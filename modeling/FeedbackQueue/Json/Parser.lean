import FeedbackQueue.Json.Error
import FeedbackQueue.Json.Value
import FeedbackQueue.Text.Hex

/-!
# Reading JSON text

A left-to-right reader that stops at the first fault. Besides standard JSON it
takes `NaN`, `Infinity` and `-Infinity`. A reader consumes the front of the text
and returns the rest; a fault is located by the text that is left at it.
-/

namespace FeedbackQueue.Json

open Text (hexValue?)

/-- A fault before it is located: how many characters are left at it. -/
inductive Fault where
  | malformed (cause : Cause) (left : Nat)
  | longInteger (limit digits : Nat)
deriving DecidableEq, Repr

def fault (cause : Cause) (rest : List Char) : Except Fault α :=
  .error (.malformed cause rest.length)

def isBlank (c : Char) : Bool := c = ' ' || c = '\t' || c = '\n' || c = '\r'

def skipBlanks (s : List Char) : List Char := s.dropWhile isBlank

/-! ## Strings -/

def hexUnit? (a b c d : Char) : Option Nat := do
  return (((← hexValue? a) * 16 + (← hexValue? b)) * 16 + (← hexValue? c)) * 16 + (← hexValue? d)

def isHighSurrogate (u : Nat) : Bool := 0xd800 ≤ u && u < 0xdc00

def isLowSurrogate (u : Nat) : Bool := 0xdc00 ≤ u && u < 0xe000

def joinSurrogates (high low : Nat) : Nat := 0x10000 + (high - 0xd800) * 0x400 + (low - 0xdc00)

/-- Append a UTF-16 unit to code points held in reverse: a low surrogate joins
the high one before it. -/
def pushUnit : List Nat → Nat → List Nat
  | last :: done, u =>
    if isHighSurrogate last && isLowSurrogate u then joinSurrogates last u :: done
    else u :: last :: done
  | [], u => [u]

/-- The text of code points held in reverse. A lone surrogate, which is no
character, is replaced, so texts that differ in lone surrogates alone are read as
one, and every text that is read can be shown. -/
def textOf (done : List Nat) : String :=
  String.ofList (done.reverse.map fun u =>
    if isHighSurrogate u || isLowSurrogate u then '\ufffd' else Char.ofNat u)

def simpleEscape? : Char → Option Char
  | '"' => some '"'
  | '\\' => some '\\'
  | '/' => some '/'
  | 'b' => some '\x08'
  | 'f' => some '\x0c'
  | 'n' => some '\n'
  | 'r' => some '\r'
  | 't' => some '\t'
  | _ => none

/-- The rest of a string after its opening quote. `opening` is how many
characters were left at the quote, and `done` holds the code points that were
read, in reverse. -/
def string (opening : Nat) :
    (done : List Nat) → List Char → Except Fault (String × List Char)
  | _, [] => .error (.malformed .unterminatedString opening)
  | done, '"' :: rest => .ok (textOf done, rest)
  | _, ['\\'] => .error (.malformed .unterminatedString opening)
  | done, '\\' :: 'u' :: a :: b :: c :: d :: next :: rest =>
    match hexUnit? a b c d with
    | some u => string opening (pushUnit done u) (next :: rest)
    | none => fault .invalidHexEscape ('u' :: a :: b :: c :: d :: next :: rest)
  | _, '\\' :: 'u' :: rest => fault .invalidHexEscape ('u' :: rest)
  | done, '\\' :: c :: rest =>
    match simpleEscape? c with
    | some e => string opening (e.toNat :: done) rest
    | none => fault .invalidEscape ('\\' :: c :: rest)
  | done, c :: rest =>
    if c.toNat ≤ 0x1f then fault .controlCharacter (c :: rest)
    else string opening (c.toNat :: done) rest

/-! ## Numbers -/

def isDigit (c : Char) : Bool := '0' ≤ c && c ≤ '9'

def digitsValue (digits : List Char) : Nat :=
  digits.foldl (fun n c => n * 10 + (c.toNat - '0'.toNat)) 0

def takeDigits (s : List Char) : List Char × List Char := s.span isDigit

/-- A whole part: a lone zero, or digits that do not start with one. -/
def whole? (s : List Char) : Option (List Char × List Char) :=
  match s with
  | '0' :: rest => some (['0'], rest)
  | c :: _ => if isDigit c then some (takeDigits s) else none
  | [] => none

/-- The digits after a point, if at least one follows it. -/
def fraction? (s : List Char) : Option (List Char × List Char) :=
  match s with
  | '.' :: c :: rest => if isDigit c then some (takeDigits (c :: rest)) else none
  | _ => none

/-- A sign, which is true for a minus, and the text after it. -/
def sign : List Char → Bool × List Char
  | '-' :: rest => (true, rest)
  | '+' :: rest => (false, rest)
  | s => (false, s)

/-- The power of ten after an exponent mark, if digits follow it. -/
def exponent? (s : List Char) : Option (Int × List Char) :=
  match s with
  | c :: rest =>
    if c = 'e' ∨ c = 'E' then
      let (negative, rest) := sign rest
      match takeDigits rest with
      | ([], _) => none
      | (digits, rest) =>
        some (if negative then -(digitsValue digits : Int) else digitsValue digits, rest)
    else none
  | [] => none

/-- A number: an integer when it has neither a fraction nor an exponent. -/
def number (limit : Option Nat) (s : List Char) : Except Fault (Value × List Char) :=
  let (negative, unsigned) := match s with
    | '-' :: rest => (true, rest)
    | _ => (false, s)
  match whole? unsigned with
  | none => fault .expectingValue s
  | some (whole, rest) =>
    let fraction := fraction? rest
    let (decimals, rest) := fraction.getD ([], rest)
    let power := exponent? rest
    let (power10, rest) := power.getD (0, rest)
    if fraction.isNone ∧ power.isNone then
      let n : Int := digitsValue whole
      let integer := .ok (.int (if negative then -n else n), rest)
      match limit with
      | some most =>
        if most < whole.length then .error (.longInteger most whole.length) else integer
      | none => integer
    else
      let digits := digitsValue (whole ++ decimals)
      .ok (.float (.ofDecimal negative digits (power10 - decimals.length)), rest)

/-! ## Documents -/

mutual
/-- A value at the front of the text, read with at most `fuel` nested calls. -/
def value (limit : Option Nat) : (fuel : Nat) → List Char → Except Fault (Value × List Char)
  | 0, s => fault .expectingValue s
  | fuel + 1, s =>
    match s with
    | '"' :: rest => do
      let (text, rest) ← string s.length [] rest
      return (.str text, rest)
    | '{' :: rest =>
      match skipBlanks rest with
      | '}' :: rest => .ok (.obj [], rest)
      | rest => do
        let (entries, rest) ← members limit fuel [] rest
        return (.obj entries, rest)
    | '[' :: rest =>
      match skipBlanks rest with
      | ']' :: rest => .ok (.arr [], rest)
      | rest => do
        let (items, rest) ← elements limit fuel [] rest
        return (.arr items, rest)
    | 'n' :: 'u' :: 'l' :: 'l' :: rest => .ok (.null, rest)
    | 't' :: 'r' :: 'u' :: 'e' :: rest => .ok (.bool true, rest)
    | 'f' :: 'a' :: 'l' :: 's' :: 'e' :: rest => .ok (.bool false, rest)
    | 'N' :: 'a' :: 'N' :: rest => .ok (.float .nan, rest)
    | 'I' :: 'n' :: 'f' :: 'i' :: 'n' :: 'i' :: 't' :: 'y' :: rest =>
      .ok (.float (.infinite false), rest)
    | '-' :: 'I' :: 'n' :: 'f' :: 'i' :: 'n' :: 'i' :: 't' :: 'y' :: rest =>
      .ok (.float (.infinite true), rest)
    | s => number limit s

/-- The members of an object from a key on, after those already read. -/
def members (limit : Option Nat) :
    (fuel : Nat) → Members → List Char → Except Fault (Members × List Char)
  | 0, _, s => fault .expectingValue s
  | fuel + 1, done, s =>
    match s with
    | '"' :: rest => do
      let (key, rest) ← string s.length [] rest
      match skipBlanks rest with
      | ':' :: rest => do
        let (item, rest) ← value limit fuel (skipBlanks rest)
        let done := done.insert key item
        match skipBlanks rest with
        | '}' :: rest => return (done, rest)
        | ',' :: rest => members limit fuel done (skipBlanks rest)
        | rest => fault .expectingComma rest
      | rest => fault .expectingColon rest
    | rest => fault .expectingKey rest

/-- The items of an array from an item on, after those already read, reversed. -/
def elements (limit : Option Nat) :
    (fuel : Nat) → List Value → List Char → Except Fault (List Value × List Char)
  | 0, _, s => fault .expectingValue s
  | fuel + 1, done, s => do
    let (item, rest) ← value limit fuel s
    match skipBlanks rest with
    | ']' :: rest => return ((item :: done).reverse, rest)
    | ',' :: rest => elements limit fuel (item :: done) (skipBlanks rest)
    | rest => fault .expectingComma rest
end

/-- Where a fault is in a text. -/
def Fault.locate (text : List Char) : Fault → ParseError
  | .malformed cause left => .malformed cause (.after (text.take (text.length - left)))
  | .longInteger limit digits => .longInteger limit digits

/-- A whole text that is one document between blanks. Every nested call but one
in two consumes a character, so twice the length suffices as fuel. -/
def document (limit : Option Nat) (text : List Char) : Except Fault Value := do
  let start := skipBlanks text
  let (item, rest) ← value limit (2 * start.length + 2) start
  match skipBlanks rest with
  | [] => return item
  | rest => fault .extraData rest

/-- Read a document. Integer literals of more than `limit` digits are refused. -/
def parse (limit : Option Nat) (text : List Char) : Except ParseError Value :=
  match text with
  | '\ufeff' :: _ => .error (.malformed .byteOrderMark (.after []))
  | _ => (document limit text).mapError (Fault.locate text)

end FeedbackQueue.Json
