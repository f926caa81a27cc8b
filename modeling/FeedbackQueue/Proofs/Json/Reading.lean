import FeedbackQueue.Json.Parser
import FeedbackQueue.Proofs.Basic
import Mathlib.Data.List.TakeDrop
import Mathlib.Data.List.TakeWhile

/-!
# What the readers of JSON text consume

A reader that succeeds leaves an end of its text. The only fault that is not about the form of
the text is an integer literal of too many digits, and such a literal stands in the text. So the
integers of a document that is read under the limit can all be written.
-/

namespace FeedbackQueue

namespace Json

/-- So many digits stand in a row somewhere in the text. -/
def HasDigits (n : Nat) (s : List Char) : Prop :=
  ∃ digits, digits <:+: s ∧ (∀ c ∈ digits, isDigit c) ∧ digits.length = n

theorem HasDigits.mono (h : HasDigits n t) (hts : t <:+: s) : HasDigits n s := by
  obtain ⟨digits, hdigits, hall, hlength⟩ := h
  exact ⟨digits, hdigits.trans hts, hall, hlength⟩

/-- What a reader makes of a text, under a limit on the digits of an integer. -/
structure Reads (limit : Option Nat) (s : List Char) (x : Except Fault (α × List Char)) : Prop where
  rest : ∀ a r, x = .ok (a, r) → r <:+ s
  literal : ∀ most n, x = .error (.longInteger most n) →
    limit = some most ∧ most < n ∧ HasDigits n s

namespace Reads

variable {limit : Option Nat} {s t : List Char} {x : Except Fault (α × List Char)}

theorem ok (h : r <:+ s) : Reads limit s (.ok (a, r) : Except Fault (α × List Char)) where
  rest := by
    rintro _ _ ⟨⟩
    exact h
  literal := nofun

theorem malformed : Reads limit s (.error (.malformed cause left) : Except Fault (α × List Char)) :=
  ⟨nofun, nofun⟩

theorem mono (h : Reads limit t x) (hts : t <:+ s) : Reads limit s x where
  rest a r hx := (h.rest a r hx).trans hts
  literal most n hx := by
    obtain ⟨hlimit, hlt, hdigits⟩ := h.literal most n hx
    exact ⟨hlimit, hlt, hdigits.mono hts.isInfix⟩

/-- A reader goes on where the one before it has stopped. -/
theorem bind {f : α × List Char → Except Fault (β × List Char)} (h : Reads limit s x)
    (hf : ∀ a r, r <:+ s → Reads limit s (f (a, r))) : Reads limit s (x >>= f) := by
  cases x with
  | error fault =>
    refine ⟨nofun, fun most n hx => h.literal most n ?_⟩
    rw [Except.error.inj hx]
  | ok result => exact hf result.1 result.2 (h.rest _ _ rfl)

end Reads

variable {limit : Option Nat} {s : List Char}

theorem skipBlanks_suffix : skipBlanks s <:+ s := List.dropWhile_suffix _

/-- What follows the first character that is not blank. -/
theorem suffix_of_skipBlanks (h : skipBlanks s = c :: rest) : rest <:+ s :=
  (h ▸ List.suffix_cons c rest).trans skipBlanks_suffix

-- ---------------------------------------------------------------------------
-- Strings
-- ---------------------------------------------------------------------------

theorem reads_string (opening : Nat) (done : List Nat) (s : List Char) :
    Reads limit s (string opening done s) := by
  fun_induction string opening done s with
  | case1 => exact .malformed
  | case2 => exact .ok (List.suffix_cons _ _)
  | case3 => exact .malformed
  | case4 done a b c d next rest u hu ih =>
    exact ih.mono (List.suffix_append ['\\', 'u', a, b, c, d] _)
  | case5 => exact .malformed
  | case6 => exact .malformed
  | case7 done c rest hnot hnot' e he ih => exact ih.mono (List.suffix_append ['\\', c] _)
  | case8 => exact .malformed
  | case9 => exact .malformed
  | case10 done c rest hquote hlast hunit hescape hcontrol hplain ih =>
    exact ih.mono (List.suffix_cons c _)

-- ---------------------------------------------------------------------------
-- Numbers
-- ---------------------------------------------------------------------------

theorem takeDigits_eq : takeDigits s = (s.takeWhile isDigit, s.dropWhile isDigit) :=
  List.span_eq_takeWhile_dropWhile isDigit s

theorem whole?_eq_some (h : whole? s = some (digits, rest)) :
    s = digits ++ rest ∧ ∀ c ∈ digits, isDigit c := by
  unfold whole? at h
  split at h
  · simp only [Option.some.injEq, Prod.mk.injEq] at h
    obtain ⟨rfl, rfl⟩ := h
    refine ⟨rfl, fun c hc => ?_⟩
    obtain rfl := List.mem_singleton.mp hc
    rfl
  · split at h
    · rw [takeDigits_eq, Option.some.injEq, Prod.mk.injEq] at h
      obtain ⟨rfl, rfl⟩ := h
      exact ⟨List.takeWhile_append_dropWhile.symm, fun c hc => List.mem_takeWhile_imp hc⟩
    · cases h
  · cases h

theorem fraction?_suffix (h : fraction? s = some (digits, rest)) : rest <:+ s := by
  unfold fraction? at h
  split at h
  · split at h
    · rw [takeDigits_eq, Option.some.injEq, Prod.mk.injEq] at h
      obtain ⟨-, rfl⟩ := h
      exact (List.dropWhile_suffix _).trans (List.suffix_cons _ _)
    · cases h
  · cases h

theorem sign_suffix : (sign s).2 <:+ s := by
  unfold sign
  split
  · exact List.suffix_cons _ _
  · exact List.suffix_cons _ _
  · exact List.suffix_refl _

theorem exponent?_suffix (h : exponent? s = some (power, rest)) : rest <:+ s := by
  unfold exponent? at h
  split at h
  · split at h
    · rename_i c t _
      simp only [takeDigits_eq] at h
      split at h
      · cases h
      · rename_i digits u hne heq
        obtain ⟨-, rfl⟩ := Prod.mk.inj heq
        obtain ⟨-, rfl⟩ := Prod.mk.inj (Option.some.inj h)
        exact ((List.dropWhile_suffix _).trans sign_suffix).trans (List.suffix_cons _ _)
    · cases h
  · cases h

/-- The text after a minus, if there is one. -/
theorem unsigned_suffix : (match s with
    | '-' :: rest => (true, rest)
    | _ => (false, s) : Bool × List Char).2 <:+ s := by
  split
  · exact List.suffix_cons _ _
  · exact List.suffix_refl _

theorem reads_number (s : List Char) : Reads limit s (number limit s) := by
  unfold number
  dsimp only
  split
  · exact .malformed
  · next whole rest hwhole =>
    obtain ⟨hsplit, hdigits⟩ := whole?_eq_some hwhole
    have hunsigned : whole ++ rest <:+ s := hsplit ▸ unsigned_suffix
    have hfraction : ((fraction? rest).getD ([], rest)).2 <:+ rest := by
      cases h : fraction? rest with
      | none => exact List.suffix_refl _
      | some parts => exact fraction?_suffix h
    have hpower (t : List Char) : ((exponent? t).getD (0, t)).2 <:+ t := by
      cases h : exponent? t with
      | none => exact List.suffix_refl _
      | some parts => exact exponent?_suffix h
    have hrest : rest <:+ s := (List.suffix_append whole rest).trans hunsigned
    have hend := ((hpower _).trans hfraction).trans hrest
    split
    · split
      · split
        · refine ⟨nofun, ?_⟩
          rintro _ _ ⟨⟩
          have hinfix : whole <:+: s :=
            (List.prefix_append whole rest).isInfix.trans hunsigned.isInfix
          exact ⟨rfl, ‹_›, whole, hinfix, hdigits, rfl⟩
        · exact .ok hend
      · exact .ok hend
    · exact .ok hend

-- ---------------------------------------------------------------------------
-- Documents
-- ---------------------------------------------------------------------------

section
variable {fuel : Nat} (hvalue : ∀ s, Reads limit s (value limit fuel s))
  (hmembers : ∀ done s, Reads limit s (members limit fuel done s))
  (helements : ∀ done s, Reads limit s (elements limit fuel done s))

include hmembers helements in
theorem reads_value (s : List Char) : Reads limit s (value limit (fuel + 1) s) := by
  unfold value
  split
  · exact Reads.bind ((reads_string _ _ _).mono (List.suffix_cons _ _)) fun text rest h => .ok h
  · next rest =>
    have hrest : skipBlanks rest <:+ '{' :: rest := skipBlanks_suffix.trans (List.suffix_cons _ _)
    split
    · next hclose => exact .ok ((suffix_of_skipBlanks hclose).trans (List.suffix_cons _ _))
    · exact Reads.bind ((hmembers _ _).mono hrest) fun entries rest h => .ok h
  · next rest =>
    have hrest : skipBlanks rest <:+ '[' :: rest := skipBlanks_suffix.trans (List.suffix_cons _ _)
    split
    · next hclose => exact .ok ((suffix_of_skipBlanks hclose).trans (List.suffix_cons _ _))
    · exact Reads.bind ((helements _ _).mono hrest) fun items rest h => .ok h
  · next rest => exact .ok (List.suffix_append ['n', 'u', 'l', 'l'] rest)
  · next rest => exact .ok (List.suffix_append ['t', 'r', 'u', 'e'] rest)
  · next rest => exact .ok (List.suffix_append ['f', 'a', 'l', 's', 'e'] rest)
  · next rest => exact .ok (List.suffix_append ['N', 'a', 'N'] rest)
  · next rest => exact .ok (List.suffix_append "Infinity".toList rest)
  · next rest => exact .ok (List.suffix_append "-Infinity".toList rest)
  · exact reads_number _

include hvalue hmembers in
theorem reads_members (done : Members) (s : List Char) :
    Reads limit s (members limit (fuel + 1) done s) := by
  unfold members
  split
  · next start =>
    refine Reads.bind ((reads_string _ _ _).mono (List.suffix_cons _ _)) fun key rest hkey => ?_
    dsimp only
    split
    · next after hcolon =>
      have hafter : skipBlanks after <:+ '"' :: start :=
        (skipBlanks_suffix.trans (suffix_of_skipBlanks hcolon)).trans hkey
      refine Reads.bind ((hvalue _).mono hafter) fun item rest hitem => ?_
      dsimp only
      split
      · next after hclose => exact .ok ((suffix_of_skipBlanks hclose).trans hitem)
      · next after hcomma =>
        exact (hmembers _ _).mono
          ((skipBlanks_suffix.trans (suffix_of_skipBlanks hcomma)).trans hitem)
      · exact .malformed
    · exact .malformed
  · exact .malformed

include hvalue helements in
theorem reads_elements (done : List Value) (s : List Char) :
    Reads limit s (elements limit (fuel + 1) done s) := by
  unfold elements
  refine Reads.bind (hvalue s) fun item rest hitem => ?_
  dsimp only
  split
  · next after hclose => exact .ok ((suffix_of_skipBlanks hclose).trans hitem)
  · next after hcomma =>
    exact (helements _ _).mono
      ((skipBlanks_suffix.trans (suffix_of_skipBlanks hcomma)).trans hitem)
  · exact .malformed

end

/-- The readers of values, of members and of items call each other, so the induction on the
nesting that is left is for all three. -/
theorem reads_nested (fuel : Nat) :
    (∀ s, Reads limit s (value limit fuel s)) ∧
    (∀ done s, Reads limit s (members limit fuel done s)) ∧
    ∀ done s, Reads limit s (elements limit fuel done s) := by
  induction fuel with
  | zero => exact ⟨fun _ => .malformed, fun _ _ => .malformed, fun _ _ => .malformed⟩
  | succ fuel ih =>
    obtain ⟨hvalue, hmembers, helements⟩ := ih
    exact ⟨reads_value hmembers helements, reads_members hvalue hmembers,
      reads_elements hvalue helements⟩

theorem literal_of_document (h : document limit s = .error (.longInteger most n)) :
    limit = some most ∧ most < n ∧ HasDigits n s := by
  rcases error_of_bind h with hvalue | ⟨⟨item, rest⟩, -, hend⟩
  · exact (((reads_nested _).1 _).mono skipBlanks_suffix).literal most n hvalue
  · dsimp only at hend
    split at hend <;> cases hend

/-- An integer literal that is too long stands in the text that is refused for it. -/
theorem literal_of_parse (h : parse limit s = .error (.longInteger most n)) :
    limit = some most ∧ most < n ∧ HasDigits n s := by
  unfold parse at h
  split at h
  · cases h
  · cases hdocument : document limit s with
    | ok item =>
      rw [hdocument] at h
      cases h
    | error fault =>
      rw [hdocument] at h
      cases fault with
      | malformed cause left => cases h
      | longInteger most' n' =>
        cases h
        exact literal_of_document hdocument

-- ---------------------------------------------------------------------------
-- Integers that are read
-- ---------------------------------------------------------------------------

theorem digitsValue_lt {digits : List Char} (h : ∀ c ∈ digits, isDigit c) :
    digitsValue digits < Nat.pow 10 digits.length := by
  suffices hfold : ∀ n : Nat, digits.foldl (fun n c => n * 10 + (c.toNat - '0'.toNat)) n
      < (n + 1) * Nat.pow 10 digits.length by
    simpa [digitsValue] using hfold 0
  induction digits with
  | nil => simp
  | cons c rest ih =>
    obtain ⟨hc, hrest⟩ := List.forall_mem_cons.mp h
    have hdigit : c.toNat - '0'.toNat < 10 := by
      have hnine : c.toNat ≤ '9'.toNat := of_decide_eq_true (Bool.and_eq_true_iff.mp hc).2
      have hbounds : '0'.toNat = 48 ∧ '9'.toNat = 57 := by decide
      omega
    intro n
    calc (c :: rest).foldl (fun n c => n * 10 + (c.toNat - '0'.toNat)) n
        < (n * 10 + (c.toNat - '0'.toNat) + 1) * Nat.pow 10 rest.length := ih hrest _
      _ ≤ ((n + 1) * 10) * Nat.pow 10 rest.length := Nat.mul_le_mul_right _ (by omega)
      _ = (n + 1) * Nat.pow 10 (c :: rest).length := by
        rw [List.length_cons, Nat.pow_eq, Nat.pow_eq, Nat.pow_succ, Nat.mul_assoc, Nat.mul_comm 10]

/-- Every value that a reader may make has a property. -/
def Yields (P : α → Prop) (x : Except Fault (α × List Char)) : Prop :=
  ∀ a r, x = .ok (a, r) → P a

namespace Yields

variable {P : α → Prop} {Q : β → Prop} {x : Except Fault (α × List Char)}

theorem ok (h : P a) : Yields P (.ok (a, r)) := by
  rintro _ _ ⟨⟩
  exact h

theorem error : Yields P (.error e) := nofun

theorem bind {f : α × List Char → Except Fault (β × List Char)} (h : Yields P x)
    (hf : ∀ a r, P a → Yields Q (f (a, r))) : Yields Q (x >>= f) := by
  intro b r hb
  obtain ⟨⟨a, r'⟩, ha, hb⟩ := exists_of_bind_ok hb
  exact hf a r' (h a r' ha) b r hb

/-- Texts are of no concern where only integers matter. -/
theorem string (opening : Nat) (done : List Nat) (s : List Char) :
    Yields (fun _ => True) (string opening done s) :=
  fun _ _ _ => trivial

end Yields

open Text (digitLimit)

theorem itemsWritable_reverse {items : List Value} (h : Value.itemsWritable items) :
    Value.itemsWritable items.reverse := by
  have hall (l : List Value) : Value.itemsWritable l = l.all Value.isWritable := by
    induction l with
    | nil => rfl
    | cons item rest ih => rw [Value.itemsWritable, ih, List.all_cons]
  rwa [hall, List.all_reverse, ← hall]

theorem membersWritable_insert {done : Members} (hdone : Value.membersWritable done)
    (hitem : item.isWritable) : Value.membersWritable (done.insert key item) := by
  induction done with
  | nil => simp [Members.insert, Value.membersWritable, hitem]
  | cons member rest ih =>
    obtain ⟨hmember, hrest⟩ := Bool.and_eq_true_iff.mp hdone
    rw [Members.insert]
    split
    · simp [Value.membersWritable, hitem, hrest]
    · simp [Value.membersWritable, hmember, ih hrest]

theorem yields_number (s : List Char) :
    Yields (fun v => v.isWritable) (number (some digitLimit) s) := by
  unfold number
  dsimp only
  split
  · exact .error
  · next whole rest hwhole =>
    split
    · split
      · exact .error
      · next hlength =>
        obtain ⟨-, hdigits⟩ := whole?_eq_some hwhole
        have hlt : (digitsValue whole : Int).natAbs < Nat.pow 10 whole.length :=
          digitsValue_lt hdigits
        have hsigned (negative : Bool) : Text.isWritable
            (if negative then -(digitsValue whole : Int) else digitsValue whole) := by
          refine Text.isWritable_of_lt ?_ (Nat.not_lt.mp hlength)
          cases negative
          · exact hlt
          · exact (Int.natAbs_neg _).symm ▸ hlt
        exact .ok (hsigned _)
    · exact .ok rfl

section
variable {fuel : Nat}
  (hvalue : ∀ s, Yields (fun v => v.isWritable) (value (some digitLimit) fuel s))
  (hmembers : ∀ done s, Value.membersWritable done →
    Yields (fun v => Value.membersWritable v) (members (some digitLimit) fuel done s))
  (helements : ∀ done s, Value.itemsWritable done →
    Yields (fun v => Value.itemsWritable v) (elements (some digitLimit) fuel done s))

include hmembers helements in
theorem yields_value (s : List Char) :
    Yields (fun v => v.isWritable) (value (some digitLimit) (fuel + 1) s) := by
  unfold value
  split
  · exact Yields.bind (.string _ _ _) fun text rest h => .ok rfl
  · split
    · exact .ok rfl
    · exact Yields.bind (hmembers _ _ rfl) fun entries rest h => .ok h
  · split
    · exact .ok rfl
    · exact Yields.bind (helements _ _ rfl) fun items rest h => .ok h
  all_goals first | exact .ok rfl | exact yields_number _

include hvalue hmembers in
theorem yields_members (done : Members) (s : List Char) (hdone : Value.membersWritable done) :
    Yields (fun v => Value.membersWritable v)
      (members (some digitLimit) (fuel + 1) done s) := by
  unfold members
  split
  · refine Yields.bind (.string _ _ _) fun key rest _ => ?_
    dsimp only
    split
    · refine Yields.bind (hvalue _) fun item rest hitem => ?_
      have hinsert : Value.membersWritable (done.insert key item) :=
        membersWritable_insert hdone hitem
      dsimp only
      split
      · exact .ok hinsert
      · exact hmembers _ _ hinsert
      · exact .error
    · exact .error
  · exact .error

include hvalue helements in
theorem yields_elements (done : List Value) (s : List Char) (hdone : Value.itemsWritable done) :
    Yields (fun v => Value.itemsWritable v) (elements (some digitLimit) (fuel + 1) done s) := by
  unfold elements
  refine Yields.bind (hvalue s) fun item rest hitem => ?_
  have hcons : Value.itemsWritable (item :: done) := Bool.and_eq_true_iff.mpr ⟨hitem, hdone⟩
  dsimp only
  split
  · exact .ok (itemsWritable_reverse hcons)
  · exact helements _ _ hcons
  · exact .error

end

/-- As for what the readers consume, the induction is for all three. -/
theorem yields_nested (fuel : Nat) :
    (∀ s, Yields (fun v => v.isWritable) (value (some digitLimit) fuel s)) ∧
    (∀ done s, Value.membersWritable done →
      Yields (fun v => Value.membersWritable v) (members (some digitLimit) fuel done s)) ∧
    ∀ done s, Value.itemsWritable done →
      Yields (fun v => Value.itemsWritable v) (elements (some digitLimit) fuel done s) := by
  induction fuel with
  | zero => exact ⟨fun _ => .error, fun _ _ _ => .error, fun _ _ _ => .error⟩
  | succ fuel ih =>
    obtain ⟨hvalue, hmembers, helements⟩ := ih
    exact ⟨yields_value hmembers helements, yields_members hvalue hmembers,
      yields_elements hvalue helements⟩

/-- A document that is read under the limit holds no integer that is too long. -/
theorem isWritable_of_parse (h : parse (some digitLimit) s = .ok v) : v.isWritable := by
  unfold parse at h
  split at h
  · cases h
  · cases hdocument : document (some digitLimit) s with
    | error fault =>
      rw [hdocument] at h
      cases h
    | ok item =>
      rw [hdocument] at h
      cases h
      obtain ⟨⟨item, rest⟩, hitem, hend⟩ := exists_of_bind_ok hdocument
      dsimp only at hend
      split at hend
      · cases hend
        exact (yields_nested _).1 _ _ _ hitem
      · cases hend

-- ---------------------------------------------------------------------------
-- Texts of digits
-- ---------------------------------------------------------------------------

theorem whole?_digits (hc : isDigit c) (hzero : c ≠ '0') (hall : ∀ d ∈ rest, isDigit d) :
    whole? (c :: rest) = some (c :: rest, []) := by
  have hdigits : ∀ d ∈ c :: rest, isDigit d := List.forall_mem_cons.mpr ⟨hc, hall⟩
  have htake := List.takeWhile_eq_self_iff.mpr hdigits
  have hdrop := List.dropWhile_eq_nil_iff.mpr hdigits
  unfold whole?
  split
  · next heq => exact absurd (List.cons.inj heq).1 hzero
  · next heq =>
    obtain ⟨rfl, rfl⟩ := List.cons.inj heq
    rw [if_pos hc, takeDigits_eq, htake, hdrop]
  · next heq => cases heq

theorem ne_of_isDigit (hc : isDigit c) (hd : isDigit d = false) : c ≠ d := by
  rintro rfl
  cases hc.symm.trans hd

theorem number_digits (hc : isDigit c) (hzero : c ≠ '0') (hall : ∀ d ∈ rest, isDigit d)
    (hlt : most < (c :: rest).length) :
    number (some most) (c :: rest) = .error (.longInteger most (c :: rest).length) := by
  have hminus : c ≠ '-' := ne_of_isDigit hc (by decide)
  have hlt' : most < rest.length + 1 := hlt
  unfold number
  simp [hminus, whole?_digits hc hzero hall, fraction?, exponent?, hlt']

theorem value_digit (hc : isDigit c) :
    value limit (fuel + 1) (c :: rest) = number limit (c :: rest) := by
  unfold value
  split
  case h_10 => rfl
  all_goals
    next heq => exact absurd (List.cons.inj heq).1 (ne_of_isDigit hc (by decide))

/-- A text of digits alone is an integer literal. -/
theorem parse_digits (hc : isDigit c) (hzero : c ≠ '0') (hall : ∀ d ∈ rest, isDigit d)
    (hlt : most < (c :: rest).length) :
    parse (some most) (c :: rest) = .error (.longInteger most (c :: rest).length) := by
  have hblank : isBlank c = false := by
    have hne (d : Char) (hd : isDigit d = false) : c ≠ d := ne_of_isDigit hc hd
    simp [isBlank, hne ' ' (by decide), hne '\t' (by decide), hne '\n' (by decide),
      hne '\r' (by decide)]
  have hstart : skipBlanks (c :: rest) = c :: rest := by simp [skipBlanks, hblank]
  have hdocument : document (some most) (c :: rest)
      = .error (.longInteger most (c :: rest).length) := by
    simp only [document, hstart, value_digit hc, number_digits hc hzero hall hlt]
    rfl
  unfold parse
  split
  · next heq => exact absurd (List.cons.inj heq).1 (ne_of_isDigit hc (by decide))
  · rw [hdocument]
    rfl

end Json

end FeedbackQueue
