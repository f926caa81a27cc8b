import FeedbackQueue.Client.Composition
import FeedbackQueue.Client.Direction
import FeedbackQueue.Client.Folding
import FeedbackQueue.Client.Punycode
import FeedbackQueue.Text.Fields
import FeedbackQueue.Text.Quoted

/-!
# Labels of hosts

A host is a sequence of labels. A label of any code points is folded and composed,
and is then written in Punycode behind `xn--`; a label of ASCII characters is left
as it is. What is written has from 1 to 63 characters. Code points are numbers
here, because a label that is read may hold surrogates.
-/

namespace FeedbackQueue.Client

inductive LabelError where
  /-- A label is empty or has more than 63 characters. -/
  | badLength
  /-- The last label of an ASCII host has more than 63 characters. -/
  | longLast
  | prohibited (point : Nat)
  /-- Letters of both writing directions. -/
  | mixedDirections
  /-- Letters from right to left, but not at both ends. -/
  | directionAtEnds
  /-- A label that is to be encoded looks like an encoded one. -/
  | encodedAlready
  | malformed (e : Punycode.Error)
  /-- What a label decodes to is encoded in another way. -/
  | notReversible (label again : List Char)
deriving DecidableEq, Repr

/-- How a failure to encode or decode is reported. -/
def codingFailure (operation coding reason : String) : String :=
  s!"{operation} with '{coding}' codec failed (UnicodeError: {reason})"

def quotedPoint (point : Nat) : String :=
  if 0xd800 ≤ point ∧ point < 0xe000 then
    String.ofList (['\'', '\\', 'u'] ++ Text.hex 4 point ++ ['\''])
  else Text.quoted (Char.ofNat point).toString

def LabelError.message : LabelError → String
  | .badLength => "label empty or too long"
  | .longLast => "label too long"
  | .prohibited point => s!"Invalid character {quotedPoint point}"
  | .mixedDirections => "Violation of BIDI requirement 2"
  | .directionAtEnds => "Violation of BIDI requirement 3"
  | .encodedAlready => "Label starts with ACE prefix"
  | .malformed e => codingFailure "decoding" "punycode" e.message
  | .notReversible label again =>
    let quoted (s : List Char) : String := Text.quoted (String.ofList s)
    s!"('IDNA does not round-trip', b{quoted label}, b{quoted again})"

namespace Label

/-- Closed ranges of the code points that no label holds: blanks, controls, private
use, surrogates, and what is no character or changes how others are shown. -/
def prohibitedRanges : List (Nat × Nat) := [
  (0x80, 0xa0), (0x340, 0x341), (0x6dd, 0x6dd), (0x70f, 0x70f), (0x1680, 0x1680), (0x180e, 0x180e),
  (0x2000, 0x200f), (0x2028, 0x202f), (0x205f, 0x2063), (0x206a, 0x206f), (0x2ff0, 0x2ffb),
  (0x3000, 0x3000), (0xd800, 0xf8ff), (0xfdd0, 0xfdef), (0xfeff, 0xfeff), (0xfff9, 0xffff),
  (0x1d173, 0x1d17a), (0x1fffe, 0x1ffff), (0x2fffe, 0x2ffff), (0x3fffe, 0x3ffff),
  (0x4fffe, 0x4ffff), (0x5fffe, 0x5ffff), (0x6fffe, 0x6ffff), (0x7fffe, 0x7ffff),
  (0x8fffe, 0x8ffff), (0x9fffe, 0x9ffff), (0xafffe, 0xaffff), (0xbfffe, 0xbffff),
  (0xcfffe, 0xcffff), (0xdfffe, 0xdffff), (0xe0001, 0xe0001), (0xe0020, 0xe007f),
  (0xefffe, 0x10ffff)]

def isProhibited (c : Nat) : Bool :=
  prohibitedRanges.any fun (first, last) => first ≤ c && c ≤ last

def checkDirection (label : List Nat) : Except LabelError Unit :=
  if !label.any isLeftward then .ok ()
  else if label.any isRightward then .error .mixedDirections
  else if label.head?.any isLeftward && label.getLast?.any isLeftward then .ok ()
  else .error .directionAtEnds

/-- The form of a label that is encoded. -/
def prepare (label : List Nat) : Except LabelError (List Nat) := do
  let label := compose (label.flatMap fold)
  if let some c := label.find? isProhibited then throw (.prohibited c)
  checkDirection label
  return label

def isAscii (s : List Nat) : Bool := s.all (· < 0x80)

def bounded (label : List Char) : Except LabelError (List Char) :=
  if label ≠ [] ∧ label.length ≤ 63 then .ok label else .error .badLength

/-- The mark of an encoded label. -/
def mark : List Char := "xn--".toList

def encode (label : List Nat) : Except LabelError (List Char) := do
  if isAscii label then bounded (label.map Char.ofNat)
  else
    let label ← prepare label
    if isAscii label then bounded (label.map Char.ofNat)
    else if (mark.map Char.toNat).isPrefixOf label then throw .encodedAlready
    else bounded (mark ++ Punycode.encode label)

/-- A label without the mark is its own meaning. -/
def decode (label : List Char) : Except LabelError (List Nat) := do
  if mark.isPrefixOf label then
    let points ← (Punycode.decode (label.drop mark.length)).mapError .malformed
    let again ← encode points
    if label.map Char.toLower = again then return points else throw (.notReversible label again)
  else return label.map Char.toNat

/-! ## Hosts -/

def isEnd (c : Char) : Bool := c ∈ ['.', '\u3002', '\uff0e', '\uff61']

def join (labels : List (List Char)) : List Char := List.intercalate ['.'] labels

/-- The labels of an ASCII host are bounded in length, and the last one may be empty. -/
def checkAscii (host : List Char) : Except LabelError Unit :=
  let labels := Text.fields '.' host
  if !labels.dropLast.all fun label => (bounded label).isOk then .error .badLength
  else if 63 < (labels.getLast?.getD []).length then .error .longLast
  else .ok ()

/-- A host in ASCII characters. -/
def encodeHost (host : List Char) : Except LabelError (List Char) := do
  if isAscii (host.map Char.toNat) then
    checkAscii host
    return host
  else
    let labels := Text.fields '.' (host.map fun c => if isEnd c then '.' else c)
    let ended := labels.getLast? = some []
    let labels := if ended then labels.dropLast else labels
    let encoded ← labels.mapM fun label => encode (label.map Char.toNat)
    return join encoded ++ if ended then ['.'] else []

/-- An ASCII host as it is read. -/
def decodeHost (host : List Char) : Except LabelError (List Char) := do
  let decoded ← (Text.fields '.' host).mapM decode
  return join (decoded.map fun label => label.map Char.ofNat)

end Label

end FeedbackQueue.Client
