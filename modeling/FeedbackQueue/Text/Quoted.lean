import FeedbackQueue.Text.Hex
import FeedbackQueue.Text.Printable

/-!
# Quoted text

Text is quoted with apostrophes, or with double quotes when it holds an
apostrophe and no double quote. A backslash marks the quote in use, itself, the
three common line and tab controls, and every unprintable code point by its
hexadecimal number.
-/

namespace FeedbackQueue.Text

def escaped (quote c : Char) : List Char :=
  if c = quote ∨ c = '\\' then ['\\', c]
  else if c = '\n' then ['\\', 'n']
  else if c = '\r' then ['\\', 'r']
  else if c = '\t' then ['\\', 't']
  else if isPrintable c then [c]
  else if c.toNat < 0x100 then '\\' :: 'x' :: hex 2 c.toNat
  else if c.toNat < 0x10000 then '\\' :: 'u' :: hex 4 c.toNat
  else '\\' :: 'U' :: hex 8 c.toNat

def quoteFor (cs : List Char) : Char :=
  if '\'' ∈ cs ∧ '"' ∉ cs then '"' else '\''

def quoted (s : String) : String :=
  let cs := s.toList
  let quote := quoteFor cs
  String.ofList (quote :: cs.flatMap (escaped quote) ++ [quote])

end FeedbackQueue.Text
