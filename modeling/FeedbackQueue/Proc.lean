import FeedbackQueue.Spec
import FeedbackQueue.Text.Quoted

/-!
# Processes

A job at run time and its life cycle: new, ready, running, waiting for I/O,
terminated. Every transition checks the phase it starts from and either returns
the changed process or says why it is refused, so a refusal changes nothing.
-/

namespace FeedbackQueue

/-- Where a process stands. Only a waiting process has a time to return, and
only a terminated one a completion time. -/
inductive Phase where
  | new
  | ready
  | running
  | waiting (readyAt : Int)
  | terminated (completion : Int)
deriving DecidableEq, Repr

def Phase.label : Phase → String
  | .new => "new"
  | .ready => "ready"
  | .running => "running"
  | .waiting _ => "waiting"
  | .terminated _ => "terminated"

/-- What was attempted when a process turned out to be in the wrong phase. -/
inductive Action where
  | arrive | dispatch | preempt | block | wake | terminate | run | execute
deriving DecidableEq, Repr

namespace Action

def label : Action → String
  | .arrive => "admit"
  | .dispatch => "dispatch"
  | .preempt => "preempt"
  | .block => "block"
  | .wake => "wake"
  | .terminate => "terminate"
  | .run => "run"
  | .execute => "execute"

/-- The label of the only phase in which the action is allowed. -/
def expected : Action → String
  | .arrive => "new"
  | .dispatch => "ready"
  | .wake => "waiting"
  | _ => "running"

end Action

inductive ProcError where
  | wrongPhase (action : Action) (pid : Int) (found : Phase)
  | unfinished (pid remaining : Int)
  | sliceOutside (pid duration remaining : Int)
  | negativeLevel (level : Int)
  | numeral (e : Text.NumeralError)
deriving DecidableEq, Repr

namespace ProcError

def phrase : ProcError → Text.Phrase
  | .wrongPhase action pid found =>
    [s!"Cannot {action.label}: process ", pid, s!" is {found.label}, expected {action.expected}"]
  | .unfinished pid remaining =>
    ["Cannot terminate: process ", pid, " still needs ", remaining]
  | .sliceOutside pid duration remaining =>
    ["Process ", pid, ": slice of ", duration, " is outside [0, ", remaining, "]"]
  | .negativeLevel level => ["Queue level must be non-negative, got ", level]
  | .numeral e => [e.message]

def message (e : ProcError) : String := e.phrase.text

def raised (e : ProcError) : ProcError := e.phrase.raise .numeral e

end ProcError

structure Proc where
  spec : Spec
  phase : Phase
  /-- CPU time still owed. -/
  remaining : Int
  /-- Priority level, 0 being the highest. -/
  level : Nat
  /-- CPU time used since the quantum was last reset. -/
  used : Int
  firstRun : Option Int
deriving DecidableEq, Repr

namespace Proc

def ofSpec (spec : Spec) : Proc :=
  { spec, phase := .new, remaining := spec.burst, level := 0, used := 0, firstRun := none }

def pid (p : Proc) : Int := p.spec.pid

/-- CPU time delivered so far. -/
def cpuTime (p : Proc) : Int := p.spec.burst - p.remaining

def done (p : Proc) : Bool := p.remaining == 0

def readyAt (p : Proc) : Option Int :=
  match p.phase with
  | .waiting time => some time
  | _ => none

def completion (p : Proc) : Option Int :=
  match p.phase with
  | .terminated time => some time
  | _ => none

/-- Completion minus arrival. -/
def turnaround (p : Proc) : Option Int := p.completion.map (· - p.spec.arrival)

/-- Time in the system that was not spent on the CPU. -/
def waitingTime (p : Proc) : Option Int := p.turnaround.map (· - p.spec.burst)

/-- First dispatch minus arrival. -/
def response (p : Proc) : Option Int := p.firstRun.map (· - p.spec.arrival)

def describe (p : Proc) : Text.Phrase :=
  ["Process(pid=", p.pid, s!", name={Text.quoted p.spec.label}, state={p.phase.label}, queue=",
    p.level, ", remaining=", p.remaining, ")"]

/-! ## Transitions -/

def refuse (p : Proc) (action : Action) : Except ProcError Proc :=
  .error (ProcError.wrongPhase action p.pid p.phase).raised

def arrive (p : Proc) : Except ProcError Proc :=
  match p.phase with
  | .new => .ok { p with phase := .ready, used := 0 }
  | _ => p.refuse .arrive

/-- The first dispatch is remembered; later ones leave it alone. -/
def dispatch (p : Proc) (now : Int) : Except ProcError Proc :=
  match p.phase with
  | .ready => .ok { p with phase := .running, firstRun := p.firstRun.or (some now) }
  | _ => p.refuse .dispatch

def preempt (p : Proc) : Except ProcError Proc :=
  match p.phase with
  | .running => .ok { p with phase := .ready }
  | _ => p.refuse .preempt

def block (p : Proc) (readyAt : Int) : Except ProcError Proc :=
  match p.phase with
  | .running => .ok { p with phase := .waiting readyAt, used := 0 }
  | _ => p.refuse .block

def wake (p : Proc) : Except ProcError Proc :=
  match p.phase with
  | .waiting _ => .ok { p with phase := .ready }
  | _ => p.refuse .wake

/-- Owed CPU time is refused before the phase is looked at. -/
def terminate (p : Proc) (now : Int) : Except ProcError Proc :=
  if p.remaining ≠ 0 then .error (ProcError.unfinished p.pid p.remaining).raised
  else match p.phase with
    | .running => .ok { p with phase := .terminated now }
    | _ => p.refuse .terminate

def runFor (p : Proc) (duration : Int) : Except ProcError Proc :=
  match p.phase with
  | .running =>
    if 0 ≤ duration ∧ duration ≤ p.remaining then
      .ok { p with remaining := p.remaining - duration, used := p.used + duration }
    else .error (ProcError.sliceOutside p.pid duration p.remaining).raised
  | _ => p.refuse .run

def resetQuantum (p : Proc) : Proc := { p with used := 0 }

def setLevel (p : Proc) (level : Int) : Except ProcError Proc :=
  if 0 ≤ level then .ok { p with level := level.toNat }
  else .error (ProcError.negativeLevel level).raised

/-- One call on a process, with its arguments. -/
inductive Call where
  | arrive
  | dispatch (now : Int)
  | preempt
  | block (readyAt : Int)
  | wake
  | terminate (now : Int)
  | runFor (duration : Int)
  | resetQuantum
  | setLevel (level : Int)
deriving DecidableEq, Repr

def perform (p : Proc) : Call → Except ProcError Proc
  | .arrive => p.arrive
  | .dispatch now => p.dispatch now
  | .preempt => p.preempt
  | .block readyAt => p.block readyAt
  | .wake => p.wake
  | .terminate now => p.terminate now
  | .runFor duration => p.runFor duration
  | .resetQuantum => .ok p.resetQuantum
  | .setLevel level => p.setLevel level

end Proc

end FeedbackQueue
