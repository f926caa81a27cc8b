import FeedbackQueue.Client.Host
import FeedbackQueue.Client.Label
import FeedbackQueue.Json.Parser
import FeedbackQueue.Text.Blank
import FeedbackQueue.Text.Numeral
import FeedbackQueue.Text.Utf8

/-!
# Addresses of requests

The target of a request may be a whole address. What follows its host is the
path, which may begin with a host of its own and is therefore split again, twice.
Hosts are checked wherever one is found, and the one that is found first is the
server. It is written in ASCII characters, and is checked again in the form in
which it is shown.
-/

namespace FeedbackQueue.Client

inductive AddressError where
  /-- Brackets that do not enclose a host. -/
  | badBrackets
  | notAddress (host : String)
  | version4InBrackets
  | badFuture
  /-- A character of the authority may be read as one that ends or divides it. -/
  | confusable (authority : String)
  /-- What follows the colon of a host is no number. -/
  | badNumber (text : String)
  | longNumber (digits : Nat)
  | numberOutside
  | encoding (e : LabelError)
  | decoding (e : LabelError)
deriving DecidableEq, Repr

namespace AddressError

def message : AddressError → String
  | .badBrackets => "Invalid IPv6 URL"
  | .notAddress host => s!"{Text.quoted host} does not appear to be an IPv4 or IPv6 address"
  | .version4InBrackets => "An IPv4 address cannot be in brackets"
  | .badFuture => "IPvFuture address is invalid"
  | .confusable authority =>
    s!"netloc '{authority}' contains invalid characters under NFKC normalization"
  | .badNumber text => s!"Port could not be cast to integer value as {Text.quoted text}"
  | .longNumber digits => (Json.ParseError.longInteger Text.digitLimit digits).message
  | .numberOutside => "Port out of range 0-65535"
  | .encoding e => codingFailure "encoding" "idna" e.message
  | .decoding (.notReversible label again) => (LabelError.notReversible label again).message
  | .decoding e => codingFailure "decoding" "idna" e.message

end AddressError

/-! ## Escapes -/

/-- An octet as a percent escape. -/
def escapeOctet (b : UInt8) : List Char := '%' :: (Text.hex 2 b.toNat).map Char.toUpper

def isPlain (c : Char) : Bool :=
  c.isAlphanum || c ∈ "_.-~%!$&'()*+,;=".toList

/-- A text with percent escapes for all but plain characters. -/
def escape (s : List Char) : List Char :=
  s.flatMap fun c =>
    if isPlain c then [c] else c.toString.toUTF8.data.toList.flatMap escapeOctet

/-- Percent escapes of ASCII characters; others are left alone. -/
def unescape : List Char → List Char
  | '%' :: a :: b :: rest =>
    match Text.hexValue? a, Text.hexValue? b with
    | some high, some low =>
      if high < 8 then Char.ofNat (high * 16 + low) :: unescape rest
      else '%' :: a :: b :: unescape rest
    | _, _ => '%' :: unescape (a :: b :: rest)
  | c :: rest => c :: unescape rest
  | [] => []

/-- An octet whose escape is shown as it is: a control, the space, the percent sign,
or what divides an authority from the rest or into its parts. -/
def staysEscaped (b : Nat) : Bool :=
  b ≤ 0x20 || b = 0x7f || b ∈ "%:@/?#".toList.map Char.toNat

/-- An ASCII text as it is shown. The octets since the last escape that stays are
held in reverse; those that are not UTF-8 are escaped again. -/
def reveal : (octets : List UInt8) → List Char → List Char
  | octets, '%' :: a :: b :: rest =>
    match Text.hexValue? a, Text.hexValue? b with
    | some high, some low =>
      let n := high * 16 + low
      if staysEscaped n then
        Text.Utf8.decodeWith escapeOctet octets.reverse ++ '%' :: a :: b :: reveal [] rest
      else reveal (n.toUInt8 :: octets) rest
    | _, _ => reveal ('%'.toNat.toUInt8 :: octets) (a :: b :: rest)
  | octets, c :: rest => reveal (c.toNat.toUInt8 :: octets) rest
  | octets, [] => Text.Utf8.decodeWith escapeOctet octets.reverse

/-! ## Authorities -/

/-- Code points whose compatibility forms hold one of `/`, `?`, `#`, `@` and `:`. -/
def confusablePoints : List Nat := [
  0x2047, 0x2048, 0x2049, 0x2100, 0x2101, 0x2105, 0x2106, 0x2a74, 0xfe13, 0xfe16, 0xfe55, 0xfe56,
  0xfe5f, 0xfe6b, 0xff03, 0xff0f, 0xff1a, 0xff1f, 0xff20]

namespace Authority

open Text (after?)

/-- The user before the last `@`, and the host after it, with its number. -/
def splitUser (authority : List Char) : List Char × List Char :=
  let host := (authority.reverse.takeWhile (· ≠ '@')).reverse
  (authority.take (authority.length - host.length - 1), host)

/-- A host, without its brackets, and the text after its colon. -/
def splitNumber (s : List Char) : List Char × List Char :=
  match after? '[' s with
  | some inner =>
    (inner.takeWhile (· ≠ ']'), ((after? ']' inner).bind (after? ':')).getD [])
  | none => (s.takeWhile (· ≠ ':'), (after? ':' s).getD [])

def checkBracketed (host : List Char) : Except AddressError Unit :=
  if host.head? = some 'v' then
    if Host.isFuture host then .ok () else .error .badFuture
  else if Host.isVersion4 host then .error .version4InBrackets
  else if Host.isVersion6 host then .ok ()
  else .error (.notAddress (String.ofList host))

/-- Nothing stands before the opening bracket of a host, and at most a number
after the closing one. -/
def areAround (s : List Char) : Bool :=
  match after? '[' s with
  | some inner => s.head? = some '[' && ((after? ']' inner).getD []).head?.all (· = ':')
  | none => true

/-- Brackets come in pairs. They may stand in the user alone, and the host is
checked all the same. -/
def checkBrackets (authority : List Char) : Except AddressError Unit :=
  let host := (splitUser authority).2
  if '[' ∉ authority ∧ ']' ∉ authority then .ok ()
  else if '[' ∈ authority ∧ ']' ∈ authority ∧ areAround host then
    checkBracketed (splitNumber host).1
  else .error .badBrackets

def check (authority : List Char) : Except AddressError Unit := do
  checkBrackets authority
  if authority.any fun c => c.toNat ∈ confusablePoints then
    throw (.confusable (String.ofList authority))

/-- The host in lower case, apart from its zone. Encoding it folds the rest. -/
def lowerHost (host : List Char) : List Char :=
  (host.takeWhile (· ≠ '%')).map Char.toLower ++ host.dropWhile (· ≠ '%')

/-- The number after the colon of a host; a missing one counts as zero. -/
def number (digits : List Char) : Except AddressError Nat :=
  if !digits.all Json.isDigit then .error (.badNumber (String.ofList digits))
  else if Text.digitLimit < digits.length then .error (.longNumber digits.length)
  else if 65535 < Json.digitsValue digits then .error .numberOutside
  else .ok (Json.digitsValue digits)

/-- The name and the password of a user, each written anew. -/
def mapUser (f : List Char → List Char) (user : List Char) : List Char :=
  let password := (after? ':' user).getD []
  f (user.takeWhile (· ≠ ':')) ++ if password = [] then [] else ':' :: f password

/-- An authority of which the user and the host are written anew. The number has no
leading zeros, and neither an empty user nor the number zero is written. -/
def mapParts (ofUser : List Char → List Char)
    (ofHost : List Char → Except AddressError (List Char)) (authority : List Char) :
    Except AddressError (List Char) := do
  let (user, rest) := splitUser authority
  let (host, digits) := splitNumber rest
  let host ← ofHost (lowerHost host)
  let n ← number digits
  let host := if ':' ∈ host then '[' :: host ++ [']'] else host
  let suffix := if n = 0 then [] else ':' :: (toString n).toList
  let user := if user.head?.all (· = ':') then [] else mapUser ofUser user ++ ['@']
  return user ++ host ++ suffix

/-- The authority in ASCII characters. -/
def normalize (authority : List Char) : Except AddressError (List Char) :=
  mapParts escape (fun host => (Label.encodeHost host).mapError .encoding) authority

/-- An ASCII authority as it is shown. -/
def shown (authority : List Char) : Except AddressError (List Char) :=
  mapParts (reveal []) (fun host => (Label.decodeHost host).mapError .decoding) authority

end Authority

/-! ## Addresses -/

structure Address where
  scheme : List Char
  authority : List Char
  path : List Char
  query : List Char
deriving DecidableEq, Repr

namespace Address

open Text (after?)

def isSchemeChar (c : Char) : Bool := c.isAlphanum || c = '+' || c = '-' || c = '.'

/-- A scheme in lower case and what follows its colon, when there is one. -/
def splitScheme (s : List Char) : List Char × List Char :=
  let scheme := s.takeWhile (· ≠ ':')
  match after? ':' s with
  | some rest =>
    if scheme.head?.any Char.isAlpha && scheme.all isSchemeChar then
      (scheme.map Char.toLower, rest)
    else ([], s)
  | none => ([], s)

/-- An authority after two slashes, and what follows it. -/
def splitAuthority : List Char → List Char × List Char
  | '/' :: '/' :: rest =>
    let inAuthority (c : Char) : Bool := c ∉ ['/', '?', '#']
    (rest.takeWhile inAuthority, rest.dropWhile inAuthority)
  | s => ([], s)

/-- Control characters and spaces in front are skipped, and tabs and line ends
anywhere. The path ends where the query or the fragment begins. -/
def split (s : List Char) : Except AddressError Address := do
  let s := (s.dropWhile (·.toNat ≤ 0x20)).filter (· ∉ ['\t', '\n', '\r'])
  let (scheme, rest) := splitScheme s
  let (authority, rest) := splitAuthority rest
  Authority.check authority
  let rest := rest.takeWhile (· ≠ '#')
  return ⟨scheme, authority, rest.takeWhile (· ≠ '?'), (after? '?' rest).getD []⟩

/-- The address as one text, but for its query. -/
def join (a : Address) : List Char :=
  (if a.scheme = [] then [] else a.scheme ++ [':']) ++
    (if a.authority = [] then [] else '/' :: '/' :: a.authority) ++ a.path

end Address

/-! ## Locations -/

/-- Where a request goes: a server, and a path with one slash in front. -/
structure Location where
  server : List Char
  path : List Char
  query : List Char
deriving DecidableEq, Repr

/-- The server without the number that its scheme stands for. -/
def dropNumber (scheme server : List Char) : List Char :=
  let suffix :=
    if scheme ∈ ["http".toList, "ws".toList] then ":80".toList
    else if scheme ∈ ["https".toList, "wss".toList] then ":443".toList
    else []
  if suffix.isSuffixOf server then server.take (server.length - suffix.length) else server

namespace Location

def ofTarget (target : String) : Except AddressError Location := do
  let whole ← Address.split target.toList
  let inner ← Address.split whole.path
  let last ← Address.split inner.path
  let path := Address.join { last with authority := ← Authority.normalize last.authority }
  let server ← Authority.normalize
    (if whole.authority = [] then "localhost".toList else whole.authority)
  Authority.check server
  let scheme := if whole.scheme = [] then "http".toList else whole.scheme
  let path := '/' :: (unescape path).dropWhile (· = '/')
  return { server := dropNumber scheme server, path, query := whole.query }

/-- The server is an authority also in the form in which it is shown. -/
def checkShown (l : Location) : Except AddressError Unit := do
  Authority.check (← Authority.shown l.server)

/-- The name of the server, which ends at the first colon, has proper labels. -/
def isKnownServer (l : Location) : Bool :=
  (Label.checkAscii (l.server.takeWhile (· ≠ ':'))).isOk

/-- Whether an address on the server with the same query has to be written in ASCII
characters and without blanks before it can be given to the client. -/
def needsWriting (l : Location) : Bool :=
  l.server.any Text.isBlank || !Label.isAscii (l.query.map Char.toNat) ||
    (l.query.reverse.dropWhile Text.isBlank).any Text.isBlank

/-- The client can be sent to another path on the server. -/
def canRedirect (l : Location) : Bool :=
  !l.needsWriting || (Authority.normalize l.server).isOk

end Location

end FeedbackQueue.Client
