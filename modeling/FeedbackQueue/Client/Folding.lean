import FeedbackQueue.Text.Fields
import FeedbackQueue.Client.Folding.Table
import FeedbackQueue.Text.Hex

/-!
# Folded forms

The folded form of a code point is the text it is compared by: in lower case,
without compatibility variants, and without code points that are not seen. It is
given by a table, for which `Entry` is the form of what stands between two blanks.
-/

namespace FeedbackQueue.Client.Folding

open Text (after? fields hexNumber)

/-- What the table says of one or more code points in sequence. -/
inductive Entry where
  | keep
  | drop (count : Nat)
  | one (form : List Nat)
  | run (form count : Nat)
  | alternate (form count : Nat)
deriving DecidableEq, Repr

namespace Entry

def read (s : List Char) : Entry :=
  let count (mark : Char) : Option Nat := (after? mark s).map hexNumber
  let form (mark : Char) : Nat := hexNumber (s.takeWhile (· ≠ mark))
  if s.head? = some '=' then keep
  else if s.head? = some '_' then drop ((count '*').getD 1)
  else
    match count '*', count '/' with
    | some n, _ => run (form '*') n
    | none, some n => alternate (form '/') n
    | none, none => one ((fields '.' s).map hexNumber)

/-- How many code points are described. -/
def length : Entry → Nat
  | keep | one _ => 1
  | drop count | run _ count => count
  | alternate _ count => 2 * count - 1

/-- The form of the code point `c`, which is the one at a position. -/
def formAt (c position : Nat) : Entry → List Nat
  | keep => [c]
  | drop _ => []
  | one form => form
  | run form _ => [form + position]
  | alternate form _ => if position % 2 = 0 then [form + position] else [c]

end Entry

def rows : List (Nat × List Entry) :=
  table.map fun (first, text) => (first, (fields ' ' text.toList).map Entry.read)

/-- The form of `c` if the entries, which describe the code points from `first`
on, reach it. -/
def form? (c : Nat) : (first : Nat) → List Entry → Option (List Nat)
  | _, [] => none
  | first, e :: rest =>
    if c < first + e.length then some (e.formAt c (c - first)) else form? c (first + e.length) rest

end FeedbackQueue.Client.Folding

namespace FeedbackQueue.Client

/-- The folded form of a code point. -/
def fold (c : Nat) : List Nat :=
  match Folding.rows.reverse.find? fun row => row.1 ≤ c with
  | some (first, entries) => (Folding.form? c first entries).getD [c]
  | none => [c]

end FeedbackQueue.Client
