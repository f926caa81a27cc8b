/-!
# UTF-8

Strict decoding of octets. A fault names the octets of the character that cannot
be read and why: its first octet starts no character, a later one does not
continue it, or the text ends inside it.
-/

namespace FeedbackQueue.Text.Utf8

inductive Reason where
  | invalidStart
  | invalidContinuation
  | unexpectedEnd
deriving DecidableEq, Repr

def Reason.message : Reason → String
  | .invalidStart => "invalid start byte"
  | .invalidContinuation => "invalid continuation byte"
  | .unexpectedEnd => "unexpected end of data"

/-- The octets from `start` up to but without `stop` cannot be read. -/
structure Fault where
  first : UInt8
  start : Nat
  stop : Nat
  reason : Reason
deriving DecidableEq, Repr

def hexByte (b : UInt8) : String :=
  String.ofList [Nat.digitChar (b.toNat / 16), Nat.digitChar (b.toNat % 16)]

def Fault.message (f : Fault) : String :=
  if f.stop = f.start + 1 then
    s!"'utf-8' codec can't decode byte 0x{hexByte f.first} in position {f.start}: " ++
      f.reason.message
  else
    s!"'utf-8' codec can't decode bytes in position {f.start}-{f.stop - 1}: " ++ f.reason.message

/-- A character of which some octets are still to come: how many, the range of
the next one, the bits so far, and where it began. -/
structure Partial where
  owed : Nat
  low : Nat
  high : Nat
  bits : Nat
  first : UInt8
  start : Nat

/-- What the first octet of a character of several octets announces. -/
def lead? (b : UInt8) (start : Nat) : Option Partial :=
  let n := b.toNat
  if 0xc2 ≤ n ∧ n ≤ 0xdf then some ⟨1, 0x80, 0xbf, n - 0xc0, b, start⟩
  else if 0xe0 ≤ n ∧ n ≤ 0xef then
    some ⟨2, if n = 0xe0 then 0xa0 else 0x80, if n = 0xed then 0x9f else 0xbf, n - 0xe0, b, start⟩
  else if 0xf0 ≤ n ∧ n ≤ 0xf4 then
    some ⟨3, if n = 0xf0 then 0x90 else 0x80, if n = 0xf4 then 0x8f else 0xbf, n - 0xf0, b, start⟩
  else none

/-- Read the octets from a position on, after the start of a character if one
is pending. The characters before it are held in reverse. -/
def scan (done : List Char) (pending : Option Partial) (position : Nat) :
    List UInt8 → Except Fault (List Char)
  | [] =>
    match pending with
    | none => .ok done.reverse
    | some p => .error ⟨p.first, p.start, position, .unexpectedEnd⟩
  | b :: rest =>
    match pending with
    | none =>
      if b.toNat < 0x80 then scan (Char.ofNat b.toNat :: done) none (position + 1) rest
      else
        match lead? b position with
        | some p => scan done (some p) (position + 1) rest
        | none => .error ⟨b, position, position + 1, .invalidStart⟩
    | some p =>
      if p.low ≤ b.toNat ∧ b.toNat ≤ p.high then
        let bits := p.bits * 64 + (b.toNat - 0x80)
        if p.owed = 1 then scan (Char.ofNat bits :: done) none (position + 1) rest
        else
          scan done (some { p with owed := p.owed - 1, low := 0x80, high := 0xbf, bits })
            (position + 1) rest
      else .error ⟨p.first, p.start, position, .invalidContinuation⟩

def decode (octets : List UInt8) : Except Fault (List Char) := scan [] none 0 octets

/-- Decode up to `faults` runs of octets that cannot be read, and put a text in the
place of each of them. -/
def decodePast (mend : UInt8 → List Char) : (faults : Nat) → List UInt8 → List Char
  | 0, _ => []
  | faults + 1, octets =>
    match decode octets with
    | .ok text => text
    | .error f =>
      (decode (octets.take f.start)).toOption.getD [] ++
        (octets.extract f.start f.stop).flatMap mend ++ decodePast mend faults (octets.drop f.stop)

/-- Decode with a text for every octet that cannot be read. -/
def decodeWith (mend : UInt8 → List Char) (octets : List UInt8) : List Char :=
  decodePast mend (octets.length + 1) octets

end FeedbackQueue.Text.Utf8
