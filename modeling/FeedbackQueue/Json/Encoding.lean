import FeedbackQueue.Json.Parser
import FeedbackQueue.Text.Utf8

/-!
# Encodings of JSON text

A document may be encoded in UTF-8, UTF-16 or UTF-32. Its first two characters
are ASCII, so the zeros among the first octets tell which. Lone surrogates are
let through and replaced.
-/

namespace FeedbackQueue.Json

inductive Encoding where
  | utf8
  | utf16 (bigEndian : Bool)
  | utf32 (bigEndian : Bool)
deriving DecidableEq, Repr

def Encoding.detect : List UInt8 → Encoding
  | a :: b :: c :: d :: _ =>
    if a = 0 then (if b = 0 then .utf32 true else .utf16 true)
    else if b = 0 then (if c = 0 ∧ d = 0 then .utf32 false else .utf16 false)
    else .utf8
  | [a, b] => if a = 0 then .utf16 true else if b = 0 then .utf16 false else .utf8
  | _ => .utf8

/-- Code points held in reverse, from pairs of octets. -/
def utf16Points? (bigEndian : Bool) (done : List Nat) : List UInt8 → Option (List Nat)
  | [] => some done
  | [_] => none
  | a :: b :: rest =>
    let unit := if bigEndian then a.toNat * 0x100 + b.toNat else b.toNat * 0x100 + a.toNat
    utf16Points? bigEndian (pushUnit done unit) rest

/-- Code points held in reverse, from groups of four octets. -/
def utf32Points? (bigEndian : Bool) (done : List Nat) : List UInt8 → Option (List Nat)
  | [] => some done
  | a :: b :: c :: d :: rest =>
    let octets := if bigEndian then [a, b, c, d] else [d, c, b, a]
    let point := octets.foldl (fun n octet => n * 0x100 + octet.toNat) 0
    if point < 0x110000 then utf32Points? bigEndian (point :: done) rest else none
  | _ => none

/-- The text of encoded octets. A mark at the front of UTF-8 is no part of it. -/
def decodeText? (octets : List UInt8) : Option (List Char) :=
  match octets with
  | 0xef :: 0xbb :: 0xbf :: rest => (Text.Utf8.decode rest).toOption
  | _ =>
    match Encoding.detect octets with
    | .utf8 => (Text.Utf8.decode octets).toOption
    | .utf16 bigEndian => (utf16Points? bigEndian [] octets).map (String.toList ∘ textOf)
    | .utf32 bigEndian => (utf32Points? bigEndian [] octets).map (String.toList ∘ textOf)

/-- The document in encoded octets, if there is one. Octets carry no mark that
the text itself would have to refuse. -/
def decode? (octets : List UInt8) : Option Value := do
  let text ← decodeText? octets
  (document (some Text.digitLimit) text).toOption

end FeedbackQueue.Json
