import FeedbackQueue.Text.Numeral

/-!
# Faults of JSON text

What keeps a text from being a document, and where. Lines and columns count
from one, offsets from zero, all in code points. A document in turn may describe
nothing valid, or may not even be told what is wrong with it.
-/

namespace FeedbackQueue.Json

inductive Cause where
  | expectingValue
  | expectingKey
  | expectingColon
  | expectingComma
  | unterminatedString
  | controlCharacter
  | invalidEscape
  | invalidHexEscape
  | extraData
  | byteOrderMark
deriving DecidableEq, Repr

def Cause.message : Cause → String
  | .expectingValue => "Expecting value"
  | .expectingKey => "Expecting property name enclosed in double quotes"
  | .expectingColon => "Expecting ':' delimiter"
  | .expectingComma => "Expecting ',' delimiter"
  | .unterminatedString => "Unterminated string starting at"
  | .controlCharacter => "Invalid control character at"
  | .invalidEscape => "Invalid \\escape"
  | .invalidHexEscape => "Invalid \\uXXXX escape"
  | .extraData => "Extra data"
  | .byteOrderMark => "Unexpected UTF-8 BOM (decode using utf-8-sig)"

structure Position where
  line : Nat
  column : Nat
  offset : Nat
deriving DecidableEq, Repr

/-- The position after the characters of a text that come before it. -/
def Position.after (before : List Char) : Position where
  line := before.count '\n' + 1
  column := (before.reverse.takeWhile (· ≠ '\n')).length + 1
  offset := before.length

inductive ParseError where
  | malformed (cause : Cause) (position : Position)
  /-- An integer literal has more digits than are allowed. -/
  | longInteger (limit digits : Nat)
deriving DecidableEq, Repr

def ParseError.message : ParseError → String
  | .malformed cause p => s!"{cause.message}: line {p.line} column {p.column} (char {p.offset})"
  | .longInteger limit digits =>
    s!"Exceeds the limit ({limit} digits) for integer string conversion: " ++
      s!"value has {digits} digits; use sys.set_int_max_str_digits() to increase the limit"

end FeedbackQueue.Json

namespace FeedbackQueue

/-- A fault on the way, rather than of what a document describes. -/
inductive ReadFault where
  | noPath
  | nulInPath
  | longInteger (limit digits : Nat)
  /-- The diagnostic would quote an integer that cannot be written. -/
  | numeral (e : Text.NumeralError)
deriving DecidableEq, Repr

def ReadFault.message : ReadFault → String
  | .noPath => "'list' object has no attribute 'read_text'"
  | .nulInPath => "embedded null byte"
  | .longInteger limit digits => (Json.ParseError.longInteger limit digits).message
  | .numeral e => e.message

/-- Why a document or a file yields no valid thing. -/
inductive LoadError (ε : Type) where
  | rejected (e : ε)
  | fault (f : ReadFault)
deriving DecidableEq

def LoadError.map (f : ε → δ) : LoadError ε → LoadError δ
  | .rejected e => .rejected (f e)
  | .fault e => .fault e

end FeedbackQueue
