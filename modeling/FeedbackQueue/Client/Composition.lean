import FeedbackQueue.Client.Composition.Table
import FeedbackQueue.Text.Fields
import FeedbackQueue.Text.Hex

/-!
# Composition

Letters and their marks are written in different ways that mean the same. The
composed form takes every code point apart, puts the marks after a letter into
their order, and joins what can be joined. Upper case is left as it is.
-/

namespace FeedbackQueue.Client

open Text (after? fields hexNumber)

/-- Two code points and the one that they compose to. -/
structure Composite where
  first : Nat
  second : Nat
  whole : Nat
deriving DecidableEq, Repr

namespace Composition

def composites : List Composite :=
  table.flatMap fun (second, text) =>
    (fields ' ' text.toList).map fun entry =>
      ⟨hexNumber (entry.takeWhile (· ≠ ':')), second, hexNumber ((after? ':' entry).getD [])⟩

/-! ## Syllables of Hangul

A leading consonant and a vowel make a syllable, and that and a trailing
consonant another; their code points follow from those of the parts. -/

def leadBase : Nat := 0x1100

def vowelBase : Nat := 0x1161

/-- One before the first trailing consonant. -/
def trailBase : Nat := 0x11a7

def syllableBase : Nat := 0xac00

def isLead (c : Nat) : Bool := leadBase ≤ c && c < leadBase + 19

def isVowel (c : Nat) : Bool := vowelBase ≤ c && c < vowelBase + 21

def isTrail (c : Nat) : Bool := trailBase < c && c < trailBase + 28

def isSyllable (c : Nat) : Bool := syllableBase ≤ c && c < syllableBase + 19 * 21 * 28

/-- A syllable without a trailing consonant. -/
def isOpen (c : Nat) : Bool := isSyllable c && (c - syllableBase) % 28 = 0

def joinSyllable? (a b : Nat) : Option Nat :=
  if isLead a && isVowel b then
    some (syllableBase + ((a - leadBase) * 21 + (b - vowelBase)) * 28)
  else if isOpen a && isTrail b then some (a + (b - trailBase))
  else none

def splitSyllable? (c : Nat) : Option (Nat × Nat) :=
  if !isSyllable c then none
  else
    let index := c - syllableBase
    if isOpen c then some (leadBase + index / 28 / 21, vowelBase + index / 28 % 21)
    else some (c - index % 28, trailBase + index % 28)

/-! ## Taking apart and joining -/

def join? (a b : Nat) : Option Nat :=
  joinSyllable? a b <|>
    (composites.find? fun p => p.first = a ∧ p.second = b).map Composite.whole

def split? (c : Nat) : Option (Nat × Nat) :=
  splitSyllable? c <|>
    (composites.find? fun p => p.whole = c).map fun p => (p.first, p.second)

/-- The parts of a code point whose first part is taken apart `depth - 1` times. -/
def parts : (depth : Nat) → Nat → List Nat
  | 0, c => [c]
  | depth + 1, c =>
    match split? c with
    | some (a, b) => parts depth a ++ [b]
    | none => [c]

/-- No composite has more than three parts. -/
def decompose (c : Nat) : List Nat := parts 2 c

/-- The combining class: zero for what is no mark. -/
def markClass (c : Nat) : Nat :=
  match markRanges.find? fun (first, last, _) => first ≤ c ∧ c ≤ last with
  | some (_, _, k) => k
  | none => 0

/-- Put a code point in front, but behind the marks of a lower class. -/
def place (c : Nat) : List Nat → List Nat
  | [] => [c]
  | d :: rest =>
    if 0 < markClass d ∧ markClass d < markClass c then d :: place c rest else c :: d :: rest

/-- Marks in sequence are in the order of their classes. -/
def order : List Nat → List Nat
  | [] => []
  | c :: rest => place c (order rest)

/-- Join a letter with what follows it. The marks that were passed over are held
in reverse; only a mark of a higher class than theirs is joined across them. -/
def joinMarks (letter : Nat) : (passed : List Nat) → List Nat → List Nat
  | passed, [] => letter :: passed.reverse
  | passed, c :: rest =>
    let reaches := passed.head?.all fun m => markClass m < markClass c
    match if reaches then join? letter c else none with
    | some whole => joinMarks whole passed rest
    | none =>
      if markClass c = 0 then letter :: passed.reverse ++ joinMarks c [] rest
      else joinMarks letter (c :: passed) rest

/-- Marks before the first letter stay as they are. -/
def join : List Nat → List Nat
  | [] => []
  | c :: rest => if markClass c = 0 then joinMarks c [] rest else c :: join rest

end Composition

def compose (s : List Nat) : List Nat :=
  Composition.join (Composition.order (s.flatMap Composition.decompose))

end FeedbackQueue.Client
