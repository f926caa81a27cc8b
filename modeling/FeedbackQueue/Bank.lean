import FeedbackQueue.Config.Basic
import FeedbackQueue.Proc
import FeedbackQueue.Text.Numeral

/-!
# Queue banks

The process table and one ready queue per priority level. Queues hold slots of
the table, so a process that waits is never copied. Beside the queues the bank
keeps the set of waiting pids; `enqueue`, `dequeue` and `raiseAll` keep the two
in step, while the operations on a single level leave the set alone.
-/

namespace FeedbackQueue

/-- A level index that selects no level. -/
inductive IndexError where
  | outside
  /-- The index also takes more than 64 bits. -/
  | tooWide
deriving DecidableEq, Repr

def IndexError.message : IndexError → String
  | .outside => "list index out of range"
  | .tooWide => "cannot fit 'int' into an index-sized integer"

inductive QueueError where
  | alreadyQueued (pid : Int)
  | index (e : IndexError)
  | process (e : ProcError)
  | numeral (e : Text.NumeralError)
deriving DecidableEq, Repr

namespace QueueError

def phrase : QueueError → Text.Phrase
  | .alreadyQueued pid => ["Cannot enqueue process ", pid, ": already queued"]
  | .index e => [e.message]
  | .process e => e.phrase
  | .numeral e => [e.message]

def message (e : QueueError) : String := e.phrase.text

def raised (e : QueueError) : QueueError := e.phrase.raise .numeral e

end QueueError

/-- One priority level: its quantum and its waiting processes, head first. -/
structure Level (n : Nat) where
  quantum : Int
  queue : List (Fin n)
deriving DecidableEq, Repr

structure Bank (n : Nat) where
  processes : Vector Proc n
  /-- Highest priority first. -/
  levels : List (Level n)
  /-- The pids that count as waiting, each once. -/
  members : List Int
deriving DecidableEq, Repr

/-- An index that selects nothing is too wide unless it lies from `-indexBound` up
to but without `indexBound`, `2 ^ 63`. -/
def indexBound : Int := 0x8000000000000000

/-- The position that an index selects among `count` things. A negative index
counts from the end. -/
def position (count : Nat) (index : Int) : Except IndexError (Fin count) :=
  let k := if index < 0 then index + count else index
  if h : 0 ≤ k ∧ k < count then .ok ⟨k.toNat, by omega⟩
  else if index < -indexBound ∨ indexBound ≤ index then .error .tooWide
  else .error .outside

namespace Level

def push (l : Level n) (i : Fin n) : Level n := { l with queue := l.queue ++ [i] }

def clear (l : Level n) : Level n := { l with queue := [] }

/-- The head of the first level that has one, and the levels without it. -/
def popFirst : List (Level n) → Option (Fin n × List (Level n))
  | [] => none
  | l :: rest =>
    match l.queue with
    | i :: queue => some (i, { l with queue } :: rest)
    | [] => (popFirst rest).map fun (i, rest) => (i, l :: rest)

end Level

/-- A process that is moved to the top level starts a fresh quantum. -/
def Proc.raise (p : Proc) : Proc := { p with level := 0, used := 0 }

namespace Bank

def ofSpecs (config : Config) (specs : Vector Spec n) : Bank n where
  processes := specs.map Proc.ofSpec
  levels := config.quanta.map (⟨·, []⟩)
  members := []

def process (b : Bank n) (i : Fin n) : Proc := b.processes[i]

def pid (b : Bank n) (i : Fin n) : Int := (b.process i).pid

def pids (b : Bank n) (slots : List (Fin n)) : List Int := slots.map b.pid

def setProcess (b : Bank n) (i : Fin n) (p : Proc) : Bank n :=
  { b with processes := b.processes.set i p }

/-- The slot of the first process with a pid. -/
def find? (b : Bank n) (pid : Int) : Option (Fin n) :=
  (List.finRange n).find? fun i => b.pid i == pid

def size (b : Bank n) : Nat := b.members.length

def isEmpty (b : Bank n) : Bool := b.members.isEmpty

/-- Membership is by pid. -/
def contains (b : Bank n) (i : Fin n) : Bool := b.members.contains (b.pid i)

/-! ## Single levels -/

def level (b : Bank n) (index : Int) : Except IndexError (Level n) :=
  (position b.levels.length index).map b.levels.get

def quantum (b : Bank n) (index : Int) : Except IndexError Int :=
  (b.level index).map (·.quantum)

def describeLevel (b : Bank n) (k : Fin b.levels.length) : Text.Phrase :=
  let l := b.levels.get k
  .concat [["ReadyQueue(level=", k.val, ", quantum=", l.quantum, ", pids=["],
    .join ", " ((b.pids l.queue).map fun pid => [.integer pid]), ["])"]]

def modifyLevel (b : Bank n) (k : Nat) (f : Level n → Level n) : Bank n :=
  { b with levels := b.levels.modify k f }

def append (b : Bank n) (index : Int) (i : Fin n) : Except IndexError (Bank n) :=
  (position b.levels.length index).map fun k => b.modifyLevel k (·.push i)

def popLevel (b : Bank n) (index : Int) : Except IndexError (Option (Fin n) × Bank n) :=
  (position b.levels.length index).map fun k =>
    ((b.levels.get k).queue.head?, b.modifyLevel k fun l => { l with queue := l.queue.tail })

def drain (b : Bank n) (index : Int) : Except IndexError (List (Fin n) × Bank n) :=
  (position b.levels.length index).map fun k =>
    ((b.levels.get k).queue, b.modifyLevel k Level.clear)

/-! ## The whole bank -/

/-- Put a process at the tail of a level and record the level in it. A negative
index that selects a level is refused by the process. -/
def enqueue (b : Bank n) (i : Fin n) (index : Int) : Except QueueError (Bank n) :=
  if b.contains i then .error (QueueError.alreadyQueued (b.pid i)).raised
  else
    match position b.levels.length index with
    | .error e => .error (.index e)
    | .ok k =>
      match (b.process i).setLevel index with
      | .error e => .error (.process e)
      | .ok p =>
        .ok { (b.setProcess i p).modifyLevel k (·.push i) with members := b.pid i :: b.members }

/-- Take the head of the highest level that is not empty. -/
def dequeue (b : Bank n) : Option (Fin n × Bank n) :=
  (Level.popFirst b.levels).map fun (i, levels) =>
    (i, { b with levels, members := b.members.erase (b.pid i) })

/-- Everything that waits below the top level, in order of priority. -/
def belowTop (b : Bank n) : List (Fin n) :=
  b.levels.tail.flatMap (·.queue)

/-- Move everything that waits below the top level to its tail. -/
def raiseAll (b : Bank n) : Bank n :=
  match b.levels with
  | [] => b
  | top :: lower =>
    let moved := b.belowTop
    { b with
      processes := .ofFn fun i => if i ∈ moved then (b.process i).raise else b.process i
      levels := { top with queue := top.queue ++ moved } :: lower.map Level.clear }

end Bank

end FeedbackQueue
