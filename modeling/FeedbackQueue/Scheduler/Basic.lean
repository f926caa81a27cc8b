import FeedbackQueue.Booster
import FeedbackQueue.Log
import FeedbackQueue.Report.Basic

/-!
# Scheduler state

Everything a run carries: the queue bank, the boost timer, the virtual clock,
the counters, the executed slices and the log. Computations on it may fail, and
a failure keeps what was changed before it.
-/

namespace FeedbackQueue

/-- One executed slice, a bar of the Gantt chart. -/
structure Slice where
  pid : Int
  start : Int
  duration : Int
  level : Nat
  quantum : Int
  outcome : Outcome
deriving DecidableEq, Repr

def Slice.stop (s : Slice) : Int := s.start + s.duration

structure Scheduler (n : Nat) where
  config : Config
  bank : Bank n
  booster : Booster
  clock : Int
  /-- How many processes have completed. -/
  completed : Nat
  /-- How many dispatches have happened. -/
  switches : Nat
  timeline : Array Slice
  log : Log

inductive SchedulerError where
  | process (e : ProcError)
  | queue (e : QueueError)
  | range (e : RangeError)
  | report (e : ReportError)
  | numeral (e : Text.NumeralError)
  /-- The CPU is idle and nothing can ever become ready, yet processes are
  incomplete. Holds their number, the clock and the report of that moment. -/
  | stalled (pending : Int) (clock : Int) (report : Report)
  /-- The run goes on forever. -/
  | endless

def stalledMessage (pending : Int) : String :=
  s!"No process to run but {pending} process(es) not completed"

def SchedulerError.message : SchedulerError → String
  | .process e => e.message
  | .queue e => e.message
  | .range e => e.message
  | .report e => e.message
  | .numeral e => e.message
  | .stalled pending _ _ => stalledMessage pending
  | .endless => "The run does not end"

/-- Computations on a scheduler that may fail. -/
abbrev Sim (n : Nat) := EStateM SchedulerError (Scheduler n)

def Sim.ofExcept (wrap : ε → SchedulerError) : Except ε α → Sim n α
  | .ok a => pure a
  | .error e => throw (wrap e)

namespace Scheduler

def start (config : Config) (specs : Vector Spec n) : Scheduler n where
  config := config
  bank := .ofSpecs config specs
  booster := ⟨config.boostInterval, 0, 0, config.boostInterval_pos⟩
  clock := 0
  completed := 0
  switches := 0
  timeline := #[]
  log := #[]

def process (s : Scheduler n) (i : Fin n) : Proc := s.bank.process i

def done (s : Scheduler n) : Bool := s.completed == n

def processWithPid (s : Scheduler n) (pid : Int) : Except LookupError (Fin n) :=
  match s.bank.find? pid with
  | some i => .ok i
  | none => .error (LookupError.unknownPid pid).raised

def report (s : Scheduler n) : Except ReportError Report :=
  Report.collect s.bank.processes.toList s.clock s.switches s.booster.count

end Scheduler

end FeedbackQueue
