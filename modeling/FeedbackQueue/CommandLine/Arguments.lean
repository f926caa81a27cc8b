import FeedbackQueue.Text.Digit
import FeedbackQueue.Text.Quoted

/-!
# Command-line arguments

Two options and a help option, each with a short and a long spelling, and at
most one workload. Long spellings may be abbreviated, a value may be joined to
its option, and short options may share one dash. `--` ends the options.

The conventions are those of release 3.11.2 of the standard argument parser. Release
3.11.10 differs in text that is joined to an option: an equals sign ends the short
options and is no part of the value, a letter that names no option is an argument too
many, and `--` is a value like any other.
-/

namespace FeedbackQueue.CommandLine

inductive Flag where
  | help | config | quiet
deriving DecidableEq, Repr

namespace Flag

def short : Flag → Char
  | .help => 'h'
  | .config => 'c'
  | .quiet => 'q'

def long : Flag → String
  | .help => "--help"
  | .config => "--config"
  | .quiet => "--quiet"

/-- Both spellings, as diagnostics name the option. -/
def label : Flag → String
  | .help => "-h/--help"
  | .config => "--config/-c"
  | .quiet => "--quiet/-q"

def takesValue (f : Flag) : Bool := f = .config

def all : List Flag := [.help, .config, .quiet]

def ofShort? (c : Char) : Option Flag := all.find? (·.short == c)

end Flag

inductive Token where
  | value (text : String)
  /-- A `--` that ends the options. -/
  | separator
  /-- An option, with the text that is joined to it. -/
  | option (flag : Flag) (isShort : Bool) (joined : Option (List Char))
  | unknown (text : String)
deriving DecidableEq, Repr

inductive UsageError where
  | ambiguous (argument : String) (matched : List String)
  | missingValue (flag : Flag)
  | ignoredValue (flag : Flag) (value : String)
  | unrecognized (arguments : List String)
deriving DecidableEq, Repr

def UsageError.message : UsageError → String
  | .ambiguous argument matched =>
    s!"ambiguous option: {argument} could match " ++ ", ".intercalate matched
  | .missingValue flag => s!"argument {flag.label}: expected one argument"
  | .ignoredValue flag value =>
    s!"argument {flag.label}: ignored explicit argument {Text.quoted value}"
  | .unrecognized arguments => "unrecognized arguments: " ++ " ".intercalate arguments

/-- A minus and digits, with or without a point before some of them. One line
feed may follow. -/
def isNegativeNumber : List Char → Bool
  | '-' :: rest =>
    let body := if rest.getLast? = some '\n' then rest.dropLast else rest
    let digits := body.dropWhile Text.isDecimalDigit
    match digits with
    | [] => !body.isEmpty
    | '.' :: decimals => !decimals.isEmpty && decimals.all Text.isDecimalDigit
    | _ => false
  | _ => false

/-- An argument that starts with a dash but is no option: a number, or a text
with a blank in it. -/
def otherToken (argument : String) : Token :=
  if isNegativeNumber argument.toList || argument.toList.contains ' ' then .value argument
  else .unknown argument

def longToken (argument : String) : Except UsageError Token :=
  let cs := argument.toList
  let name := cs.takeWhile (· ≠ '=')
  let joined := (cs.dropWhile (· ≠ '=')).tail?
  match Flag.all.filter fun f => name.isPrefixOf f.long.toList with
  | [] => .ok (otherToken argument)
  | [flag] => .ok (.option flag false joined)
  | flags => .error (.ambiguous argument (flags.map Flag.long))

/-- The text that is joined to a short option, if any, by an equals sign or directly. -/
def joinedShort : List Char → Option (List Char)
  | [] => none
  | '=' :: text => some text
  | text => some text

def token (argument : String) : Except UsageError Token :=
  match argument.toList with
  | '-' :: '-' :: _ => longToken argument
  | '-' :: c :: rest =>
    match Flag.ofShort? c with
    | some flag => .ok (.option flag true (joinedShort rest))
    | none => .ok (otherToken argument)
  | _ => .ok (.value argument)

def tokens : List String → Except UsageError (List Token)
  | [] => .ok []
  | "--" :: rest => .ok (.separator :: rest.map .value)
  | argument :: rest => do
    let first ← token argument
    return first :: (← tokens rest)

structure Options where
  workload : Option String
  /-- The value of the configuration option, if it is given. A `--` that is joined
  to the option is dropped, which leaves it without a path. -/
  config : Option (Option String)
  quiet : Bool
deriving DecidableEq, Repr

/-- Options so far, and the arguments that no option or workload takes. -/
structure Progress where
  options : Options
  extras : List String

inductive Stop where
  | help
  | usage (e : UsageError)
deriving DecidableEq, Repr

namespace Progress

def reject (p : Progress) (arguments : List String) : Progress :=
  { p with extras := p.extras ++ arguments }

/-- The first value is the workload, any other is too many. -/
def value (p : Progress) (text : String) : Progress :=
  match p.options.workload with
  | none => { p with options := { p.options with workload := some text } }
  | some _ => p.reject [text]

def act (p : Progress) (flag : Flag) (value : String) : Except Stop Progress :=
  match flag with
  | .help => .error .help
  | .config =>
    let path := if value = "--" then none else some value
    .ok { p with options := { p.options with config := some path } }
  | .quiet => .ok { p with options := { p.options with quiet := true } }

def actAll (p : Progress) : List (Flag × String) → Except Stop Progress
  | [] => .ok p
  | (flag, value) :: rest => do (← p.act flag value).actAll rest

end Progress

/-- What one option argument asks for: flags with their values in order, and
the last flag if it still needs a value. -/
structure Cluster where
  actions : List (Flag × String)
  open? : Option Flag

def Flag.ignored (flag : Flag) (text : List Char) : UsageError :=
  .ignoredValue flag (String.ofList text)

/-- Read the short flags of one argument, after those already read. A flag that
takes a value takes all the text that follows it, equals signs included. -/
def cluster (done : List (Flag × String)) (flag : Flag) : List Char → Except UsageError Cluster
  | [] =>
    if flag.takesValue then .ok ⟨done, some flag⟩ else .ok ⟨done ++ [(flag, "")], none⟩
  | c :: rest =>
    if flag.takesValue then .ok ⟨done ++ [(flag, String.ofList (c :: rest))], none⟩
    else
      match Flag.ofShort? c with
      | some next => cluster (done ++ [(flag, "")]) next rest
      | none => .error (flag.ignored (c :: rest))

/-- What an option asks for, given the text that is joined to it. An equals sign
with nothing behind it joins the empty text. -/
def Flag.expand (flag : Flag) (isShort : Bool) : Option (List Char) → Except UsageError Cluster
  | none => cluster [] flag []
  | some text =>
    if flag.takesValue then .ok ⟨[(flag, String.ofList text)], none⟩
    else if isShort ∧ text ≠ [] then cluster [] flag text
    else .error (flag.ignored text)

def Token.text : Token → String
  | .value text => text
  | .unknown text => text
  | _ => "--"

/-- Take tokens in order. A separator beside the workload is dropped; any other
counts as an argument too many. -/
def consume (p : Progress) : List Token → Except Stop Progress
  | [] => .ok p
  | .unknown text :: rest => consume (p.reject [text]) rest
  | .value text :: .separator :: rest =>
    match p.options.workload with
    | none => .ok ((p.value text).reject (rest.map Token.text))
    | some _ => .ok (p.reject (text :: "--" :: rest.map Token.text))
  | .value text :: rest => consume (p.value text) rest
  | .separator :: rest =>
    match p.options.workload, rest with
    | none, [] => .ok p
    | none, first :: rest => .ok ((p.value first.text).reject (rest.map Token.text))
    | some _, rest => .ok (p.reject ("--" :: rest.map Token.text))
  | .option flag isShort joined :: rest => do
    let c ← (flag.expand isShort joined).mapError .usage
    match c.open?, rest with
    | none, rest => consume (← p.actAll c.actions) rest
    | some last, .value text :: rest => consume (← p.actAll (c.actions ++ [(last, text)])) rest
    | some last, _ => throw (.usage (.missingValue last))

/-- What the arguments ask for. -/
def parse (arguments : List String) : Except Stop Options := do
  let ts ← (tokens arguments).mapError .usage
  let p ← consume ⟨⟨none, none, false⟩, []⟩ ts
  if p.extras ≠ [] then throw (.usage (.unrecognized p.extras))
  return p.options

end FeedbackQueue.CommandLine
