import FeedbackQueue.Text.Numeral
import Mathlib

/-!
# Reading texts back

A text that consists of fixed words with integers between them gives the integers back, as long
as no words go on where an integer could. Lines that are joined by line feeds come apart again.
-/

namespace FeedbackQueue.Text

-- ---------------------------------------------------------------------------
-- Integers
-- ---------------------------------------------------------------------------

/-- The character may stand in a written integer. -/
def inNumeral (c : Char) : Bool := c.isDigit || c = '-'

/-- The integer at the front of a text, and the text after it. -/
def integer? (s : List Char) : Option (Int × List Char) :=
  (String.ofList (s.takeWhile inNumeral)).toInt?.map (·, s.dropWhile inNumeral)

/-- A text does not go on with a character of a written integer. -/
def Stops (s : List Char) : Prop := ∀ c ∈ s.head?, inNumeral c = false

theorem inNumeral_repr (n : Int) : ∀ c ∈ n.repr.toList, inNumeral c := by
  have hdigits (m : Nat) : ∀ c ∈ m.repr.toList, inNumeral c := by
    intro c hc
    rw [Nat.toList_repr] at hc
    simp [inNumeral, Nat.isDigit_of_mem_toDigits (by decide) (by decide) hc]
  rw [Int.repr_eq_if]
  split
  · exact hdigits _
  · rw [String.toList_append]
    intro c hc
    rcases List.mem_append.mp hc with hc | hc
    · obtain rfl : c = '-' := by simpa using hc
      decide
    · exact hdigits _ c hc

theorem takeWhile_append_of_stops (hs : ∀ c ∈ s, inNumeral c) (hrest : Stops rest) :
    (s ++ rest).takeWhile inNumeral = s ∧ (s ++ rest).dropWhile inNumeral = rest := by
  cases rest with
  | nil => simpa using hs
  | cons c rest =>
    have hc : inNumeral c = false := hrest c rfl
    simp [List.takeWhile_append_of_pos hs, List.dropWhile_append_of_pos hs, hc]

theorem integer?_append (n : Int) (hrest : Stops rest) :
    integer? (n.repr.toList ++ rest) = some (n, rest) := by
  obtain ⟨htake, hdrop⟩ := takeWhile_append_of_stops (inNumeral_repr n) hrest
  simp [integer?, htake, hdrop]

/-- Where an integer ends is seen from the text. -/
theorem append_inj_of_stops {n m : Int} (hs : Stops s) (ht : Stops t)
    (h : n.repr.toList ++ s = m.repr.toList ++ t) : n = m ∧ s = t := by
  have hboth : some (n, s) = some (m, t) := by
    rw [← integer?_append n hs, h, integer?_append m ht]
  simpa using hboth

-- ---------------------------------------------------------------------------
-- Integers between words
-- ---------------------------------------------------------------------------

/-- Integers, each with the words that follow it. -/
def fill : List String → List Int → List Char
  | w :: words, n :: numbers => n.repr.toList ++ (w.toList ++ fill words numbers)
  | _, _ => []

/-- No words start like an integer, and only the last may be none. -/
def Separate : List String → Prop
  | [] => True
  | w :: words => Stops w.toList ∧ (w = "" → words = []) ∧ Separate words

/-- The first words that differ do so before either end. -/
def Clash : List String → List String → Prop
  | w :: words, v :: others =>
    if w = v then Clash words others else ¬ w.toList <+: v.toList ∧ ¬ v.toList <+: w.toList
  | _, _ => False

instance decidableClash : (words others : List String) → Decidable (Clash words others)
  | [], _ => inferInstanceAs (Decidable False)
  | _ :: _, [] => inferInstanceAs (Decidable False)
  | w :: words, v :: others =>
    have := decidableClash words others
    inferInstanceAs (Decidable (if w = v then Clash words others
      else ¬ w.toList <+: v.toList ∧ ¬ v.toList <+: w.toList))

variable {words others : List String} {numbers numbers' : List Int}

theorem not_clash_self (words : List String) : ¬ Clash words words := by
  induction words with
  | nil => exact id
  | cons w words ih => simpa [Clash] using ih

theorem Separate.stops (h : Separate (w :: words)) : Stops (w.toList ++ fill words numbers) := by
  obtain ⟨hw, hlast, -⟩ := h
  cases hchars : w.toList with
  | nil =>
    obtain rfl := hlast (String.toList_eq_nil_iff.mp hchars)
    exact nofun
  | cons c rest =>
    rw [hchars] at hw
    exact hw

/-- A text tells which words it is made of, if it can be one of two, and which integers stand
between them. -/
theorem fill_inj (hwords : Separate words) (hothers : Separate others)
    (hlength : numbers.length = words.length) (hlength' : numbers'.length = others.length)
    (hform : words = others ∨ Clash words others) (h : fill words numbers = fill others numbers') :
    words = others ∧ numbers = numbers' := by
  induction words generalizing others numbers numbers' with
  | nil =>
    obtain rfl : [] = others := hform.resolve_right (by simp [Clash])
    rw [List.length_eq_zero_iff.mp hlength, List.length_eq_zero_iff.mp hlength']
    exact ⟨rfl, rfl⟩
  | cons w words ih =>
    cases others with
    | nil => rcases hform with hform | hform <;> cases hform
    | cons v others =>
      obtain ⟨n, numbers, rfl⟩ := List.exists_cons_of_length_eq_add_one hlength
      obtain ⟨m, numbers', rfl⟩ := List.exists_cons_of_length_eq_add_one hlength'
      obtain ⟨rfl, htail⟩ := append_inj_of_stops hwords.stops hothers.stops h
      by_cases hwv : w = v
      · subst hwv
        have hform' : words = others ∨ Clash words others := by simpa [Clash] using hform
        obtain ⟨rfl, rfl⟩ := ih hwords.2.2 hothers.2.2 (Nat.succ.inj hlength)
          (Nat.succ.inj hlength') hform' (List.append_cancel_left htail)
        exact ⟨rfl, rfl⟩
      · have hclash : ¬ w.toList <+: v.toList ∧ ¬ v.toList <+: w.toList := by
          simpa [Clash, hwv] using hform
        rcases List.append_eq_append_iff.mp htail with ⟨a, hv, -⟩ | ⟨a, hw, -⟩
        · exact absurd ⟨a, hv.symm⟩ hclash.1
        · exact absurd ⟨a, hw.symm⟩ hclash.2

theorem not_mem_fill (hc : inNumeral c = false) (hwords : ∀ w ∈ words, c ∉ w.toList) :
    c ∉ fill words numbers := by
  induction words generalizing numbers with
  | nil => simp [fill]
  | cons w words ih =>
    obtain ⟨hw, hrest⟩ := List.forall_mem_cons.mp hwords
    cases numbers with
    | nil => simp [fill]
    | cons n numbers =>
      have hn : c ∉ n.repr.toList := fun h => by simp [inNumeral_repr n c h] at hc
      simp [fill, hn, hw, ih hrest]

-- ---------------------------------------------------------------------------
-- Lines
-- ---------------------------------------------------------------------------

theorem toList_join (separator : String) (ps : List Phrase) :
    (Phrase.join separator ps).text.toList
      = separator.toList.intercalate (ps.map fun p => p.text.toList) := by
  induction ps with
  | nil => rfl
  | cons p ps ih =>
    cases ps with
    | nil => simp [Phrase.join, Phrase.text]
    | cons q ps =>
      simp only [Phrase.join, Phrase.text, List.intercalate_cons_cons] at ih ⊢
      simp [ih, Piece.text]

/-- The lines of a text. A line feed at its end starts no further line. -/
def lines (s : List Char) : List (List Char) :=
  let parts := s.splitOn '\n'
  if parts.getLast? = some [] then parts.dropLast else parts

theorem lines_intercalate {ls : List (List Char)} (hbreak : ∀ l ∈ ls, '\n' ∉ l)
    (hempty : [] ∉ ls) : lines (['\n'].intercalate ls) = ls := by
  by_cases hls : ls = []
  · subst hls
    rfl
  · have hlast : ls.getLast? ≠ some [] := fun h => hempty (List.mem_of_getLast? h)
    simp [lines, List.splitOn_intercalate '\n' hbreak hls, hlast]

end FeedbackQueue.Text
