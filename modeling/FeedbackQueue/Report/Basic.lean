import FeedbackQueue.Binary64.Basic
import FeedbackQueue.Proc

/-!
# Reports

Turnaround, waiting and response times of processes as they stand, with
averages over the completed ones: all of them, the I/O-bound and the CPU-bound.
-/

namespace FeedbackQueue

/-- The timing of one process; times it has not reached are missing. -/
structure Row where
  pid : Int
  name : String
  ioBound : Bool
  arrival : Int
  burst : Int
  remaining : Int
  finalLevel : Int
  firstRun : Option Int
  completion : Option Int
  turnaround : Option Int
  waiting : Option Int
  response : Option Int
deriving DecidableEq, Repr

namespace Row

def ofProc (p : Proc) : Row where
  pid := p.pid
  name := p.spec.label
  ioBound := p.spec.ioBound
  arrival := p.spec.arrival
  burst := p.spec.burst
  remaining := p.remaining
  finalLevel := p.level
  firstRun := p.firstRun
  completion := p.completion
  turnaround := p.turnaround
  waiting := p.waitingTime
  response := p.response

def completed (r : Row) : Bool := r.completion.isSome

def kind (r : Row) : String := kindLabel r.ioBound

end Row

inductive AverageError where
  /-- The mean is too large for a double. -/
  | overflow
deriving DecidableEq, Repr

def AverageError.message : AverageError → String
  | .overflow => "integer division result too large for a float"

/-- Mean times over a group of completed processes, zero for an empty group. -/
structure Averages where
  count : Nat
  turnaround : Binary64
  waiting : Binary64
  response : Binary64
deriving DecidableEq, Repr

namespace Averages

def none : Averages := ⟨0, .zero false, .zero false, .zero false⟩

/-- The sum of an optional time over rows, a missing time counting as zero. -/
def total (rows : List Row) (time : Row → Option Int) : Int :=
  rows.foldr (fun r sum => (time r).getD 0 + sum) 0

def mean (rows : List Row) (time : Row → Option Int) : Except AverageError Binary64 :=
  match Binary64.ofRatio? (total rows time) rows.length with
  | some x => .ok x
  | .none => .error .overflow

def ofRows (rows : List Row) : Except AverageError Averages := do
  let done := rows.filter Row.completed
  if done.isEmpty then return none
  return {
    count := done.length
    turnaround := ← mean done Row.turnaround
    waiting := ← mean done Row.waiting
    response := ← mean done Row.response }

end Averages

/-- The outcome of a run, or of as much of it as has happened. -/
structure Report where
  rows : List Row
  overall : Averages
  ioBound : Averages
  cpuBound : Averages
  endTime : Int
  contextSwitches : Int
  boosts : Int
  complete : Bool
deriving DecidableEq, Repr

/-- Why there is no report. -/
inductive ReportError where
  /-- A process has no name, and its pid is too long to make one of. -/
  | numeral (e : Text.NumeralError)
  | average (e : AverageError)
deriving DecidableEq, Repr

def ReportError.message : ReportError → String
  | .numeral e => e.message
  | .average e => e.message

inductive LookupError where
  | unknownPid (pid : Int)
  | numeral (e : Text.NumeralError)
deriving DecidableEq, Repr

namespace LookupError

def phrase : LookupError → Text.Phrase
  | .unknownPid pid => ["No process with pid ", pid]
  | .numeral e => [e.message]

def message (e : LookupError) : String := e.phrase.text

def raised (e : LookupError) : LookupError := e.phrase.raise .numeral e

end LookupError

namespace Report

def ofRows (rows : List Row) (endTime contextSwitches boosts : Int) :
    Except AverageError Report := do
  return {
    rows
    overall := ← Averages.ofRows rows
    ioBound := ← Averages.ofRows (rows.filter (·.ioBound))
    cpuBound := ← Averages.ofRows (rows.filter (!·.ioBound))
    endTime, contextSwitches, boosts
    complete := rows.all Row.completed }

def collect (processes : List Proc) (endTime contextSwitches boosts : Int) :
    Except ReportError Report :=
  if processes.all (·.spec.hasLabel) then
    (ofRows (processes.map Row.ofProc) endTime contextSwitches boosts).mapError .average
  else .error (.numeral .tooLong)

def byPid (r : Report) (pid : Int) : Except LookupError Row :=
  match r.rows.find? (·.pid == pid) with
  | some row => .ok row
  | none => .error (LookupError.unknownPid pid).raised

end Report

end FeedbackQueue
