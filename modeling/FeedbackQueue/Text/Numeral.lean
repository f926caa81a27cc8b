/-!
# Integers in text

A text may hold integers, which are written in decimal. An integer with too many
digits cannot be written, and then neither can the text. A `Phrase` keeps its
integers apart from its words, so that both the text and whether it can be
written are read off the same phrase.
-/

namespace FeedbackQueue.Text

/-- The most digits of an integer that is read or written. -/
def digitLimit : Nat := 4300

/-- The least number with more digits. -/
@[irreducible] def digitBound : Nat := Nat.pow 10 digitLimit

theorem digitBound_pos : 0 < digitBound := by
  have hpos (k : Nat) : 0 < Nat.pow 10 k := Nat.pow_pos (by decide)
  delta digitBound
  exact hpos _

def isWritable (n : Int) : Bool := n.natAbs < digitBound

theorem isWritable_of_lt (h : n.natAbs < Nat.pow 10 k) (hk : k ≤ digitLimit) : isWritable n := by
  have hmono {m : Nat} (hm : k ≤ m) : Nat.pow 10 k ≤ Nat.pow 10 m :=
    Nat.pow_le_pow_right (by decide) hm
  have hbound : Nat.pow 10 k ≤ digitBound := by
    delta digitBound
    exact hmono hk
  exact decide_eq_true (Nat.lt_of_lt_of_le h hbound)

theorem isWritable_of_le (hn : isWritable n) (h : m.natAbs ≤ n.natAbs) : isWritable m :=
  decide_eq_true (Nat.lt_of_le_of_lt h (of_decide_eq_true hn))

@[simp] theorem isWritable_digitBound : isWritable digitBound = false := by
  simp [isWritable]

inductive NumeralError where
  | tooLong
deriving DecidableEq, Repr

def NumeralError.message : NumeralError → String
  | .tooLong =>
    s!"Exceeds the limit ({digitLimit} digits) for integer string conversion; " ++
      "use sys.set_int_max_str_digits() to increase the limit"

inductive Piece where
  | words (s : String)
  | integer (n : Int)
deriving DecidableEq, Repr

namespace Piece

instance : Coe String Piece := ⟨.words⟩

instance : Coe Int Piece := ⟨.integer⟩

instance : Coe Nat Piece := ⟨fun n => .integer n⟩

def text : Piece → String
  | .words s => s
  | .integer n => toString n

def isWritable : Piece → Bool
  | .words _ => true
  | .integer n => Text.isWritable n

@[simp] theorem isWritable_words : (words s).isWritable = true := rfl

@[simp] theorem isWritable_integer : (integer n).isWritable = Text.isWritable n := rfl

end Piece

theorem intercalate_cons (separator l : List α) (ls : List (List α)) :
    separator.intercalate (l :: ls) = l ++ ls.flatMap (separator ++ ·) := by
  induction ls generalizing l with
  | nil => simp
  | cons l' ls ih =>
    rw [List.intercalate_cons_cons, ih, List.flatMap_cons, List.append_assoc, List.append_assoc]

abbrev Phrase := List Piece

namespace Phrase

/-- The text with every integer written, however long. -/
def text (p : Phrase) : String := String.join (p.map Piece.text)

def isWritable (p : Phrase) : Bool := p.all Piece.isWritable

def write (p : Phrase) : Except NumeralError String :=
  if p.isWritable then .ok p.text else .error .tooLong

/-- What is raised for an error: the error itself if its text can be written, and
otherwise that it cannot. -/
def raise (p : Phrase) (numeral : NumeralError → ε) (e : ε) : ε :=
  if p.isWritable then e else numeral .tooLong

theorem raise_of_isWritable (h : isWritable p) : raise p numeral e = e := by
  simp [raise, h]

theorem raise_of_not_isWritable (h : isWritable p = false) :
    raise p numeral e = numeral .tooLong := by
  simp [raise, h]

def concat (ps : List Phrase) : Phrase := ps.flatten

def join (separator : String) (ps : List Phrase) : Phrase :=
  List.intercalate [.words separator] ps

@[simp] theorem isWritable_nil : isWritable [] = true := rfl

@[simp] theorem isWritable_cons (piece : Piece) (p : Phrase) :
    isWritable (piece :: p) = (piece.isWritable && isWritable p) := rfl

@[simp] theorem isWritable_concat (ps : List Phrase) :
    (concat ps).isWritable = ps.all isWritable :=
  List.all_flatten

@[simp] theorem isWritable_join (separator : String) (ps : List Phrase) :
    (join separator ps).isWritable = ps.all isWritable := by
  cases ps with
  | nil => rfl
  | cons p ps =>
    rw [join, intercalate_cons, isWritable, List.all_append, List.all_flatMap, List.all_cons]
    rfl

end Phrase

end FeedbackQueue.Text
