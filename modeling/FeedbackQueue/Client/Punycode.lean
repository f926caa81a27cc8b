/-!
# Punycode

Code points as ASCII characters: the ASCII ones as they are, and behind a hyphen a
number for each of the others, in ascending order. The number says how many steps
come before its insertion, where a step goes to the next place in the text and,
past its end, on to the next code point. Numbers are written with the least digit
first. A digit below a threshold is the last one, and the thresholds adapt to the
size of the numbers before.
-/

namespace FeedbackQueue.Client.Punycode

inductive Error where
  /-- The text ends inside a number. -/
  | incomplete
  | notDigit (c : Char)
  /-- A code point is too large. -/
  | outside (point : Nat)
deriving DecidableEq, Repr

def Error.message : Error → String
  | .incomplete => "incomplete punicode string"
  | .notDigit c => s!"Invalid extended code point '{c}'"
  | .outside point =>
    let digits := String.ofList (Nat.toDigits 16 point)
    s!"Invalid character U+{digits}"

/-! ## Thresholds -/

/-- The threshold of the digit at a position. -/
def threshold (bias position : Nat) : Nat := min 26 (max 1 (36 * (position + 1) - bias))

theorem threshold_pos (bias position : Nat) : 0 < threshold bias position := by
  unfold threshold; omega

/-- The bias for numbers like `number`, as a multiple of 36 and a rest. -/
def settle (number : Nat) : Nat :=
  if 455 < number then 36 + settle (number / 35) else 36 * number / (number + 38)

/-- The bias after a number, by which the text has grown to `count` code points.
The first number is larger than those that follow it. -/
def adapt (number count : Nat) (isFirst : Bool) : Nat :=
  let number := number / if isFirst then 700 else 2
  settle (number + number / count)

/-! ## Writing -/

def digit (n : Nat) : Char := Char.ofNat (if n < 26 then 'a'.toNat + n else '0'.toNat + n - 26)

def writeNumber (bias position number : Nat) : List Char :=
  let t := threshold bias position
  if number < t then [digit number]
  else
    digit (t + (number - t) % (36 - t)) :: writeNumber bias (position + 1) ((number - t) / (36 - t))
termination_by number
decreasing_by
  have := threshold_pos bias position
  have := Nat.div_le_self (number - threshold bias position) (36 - threshold bias position)
  omega

structure Writer where
  out : List Char
  /-- The steps since the last insertion. -/
  steps : Nat
  bias : Nat
  /-- How many code points are in the text so far. -/
  count : Nat
deriving DecidableEq, Repr

/-- Go past one code point `c` of the text while `point` is inserted. -/
def Writer.visit (point : Nat) (w : Writer) (c : Nat) : Writer :=
  if c < point then { w with steps := w.steps + 1 }
  else if c = point then {
    out := w.out ++ writeNumber w.bias 0 w.steps
    steps := 0
    bias := adapt w.steps (w.count + 1) (w.out = [])
    count := w.count + 1 }
  else w

/-- Insert every other code point, of which the next is at least `next`. -/
def Writer.run (text : List Nat) (w : Writer) : (next : Nat) → List Nat → List Char
  | _, [] => w.out
  | next, point :: others =>
    let w := { w with steps := w.steps + (point - next) * (w.count + 1) }
    let w := text.foldl (Writer.visit point) w
    { w with steps := w.steps + 1 }.run text (point + 1) others

def encode (text : List Nat) : List Char :=
  let plain := text.filter (· < 0x80)
  let others := ((text.filter (0x80 ≤ ·)).mergeSort).eraseReps
  plain.map Char.ofNat ++ (if plain = [] then [] else ['-']) ++
    Writer.run text ⟨[], 0, 72, plain.length⟩ 0x80 others

/-! ## Reading -/

def digitValue? (c : Char) : Option Nat :=
  if c.isLower then some (c.toNat - 'a'.toNat)
  else if c.isUpper then some (c.toNat - 'A'.toNat)
  else if c.isDigit then some (c.toNat - '0'.toNat + 26)
  else none

structure Reader where
  text : List Nat
  point : Nat
  place : Nat
  bias : Nat
  isFirst : Bool
  /-- The number so far, the weight of its next digit, and how many it has. -/
  number : Nat
  weight : Nat
  position : Nat
deriving DecidableEq, Repr

def Reader.start (plain : List Nat) : Reader := ⟨plain, 0x80, 0, 72, true, 0, 1, 0⟩

/-- Make the steps of a number and insert a code point. -/
def Reader.insert (r : Reader) (number : Nat) : Except Error Reader :=
  let count := r.text.length + 1
  let steps := r.place + number
  let point := r.point + steps / count
  let place := steps % count
  if 0x10ffff < point then .error (.outside point)
  else
    .ok ⟨r.text.insertIdx place point, point, place + 1, adapt number count r.isFirst, false,
      0, 1, 0⟩

def Reader.run (r : Reader) : List Char → Except Error (List Nat)
  | [] => if r.position = 0 then .ok r.text else .error .incomplete
  | c :: rest =>
    match digitValue? c with
    | none => .error (.notDigit c)
    | some d => do
      let number := r.number + d * r.weight
      let t := threshold r.bias r.position
      if d < t then (← r.insert number).run rest
      else
        let weight := r.weight * (36 - t)
        { r with number, weight, position := r.position + 1 }.run rest

/-- The numbers stand behind the last hyphen, or are the whole text without one. -/
def decode (s : List Char) : Except Error (List Nat) :=
  let numbers := (s.reverse.takeWhile (· ≠ '-')).reverse
  let plain := s.take (s.length - numbers.length - 1)
  (Reader.start (plain.map Char.toNat)).run numbers

end FeedbackQueue.Client.Punycode
