import FeedbackQueue.Proc
import FeedbackQueue.Text.Numeral

/-!
# Event log

A trace of scheduling decisions, each with its time, kind, severity and the
process involved. Read top to bottom, the log is a textual Gantt chart.
-/

namespace FeedbackQueue

inductive Severity where
  | debug | info | warning | error
deriving DecidableEq, Repr

namespace Severity

def rank : Severity → Nat
  | .debug => 0
  | .info => 1
  | .warning => 2
  | .error => 3

def label : Severity → String
  | .debug => "DEBUG"
  | .info => "INFO"
  | .warning => "WARNING"
  | .error => "ERROR"

def all : List Severity := [.debug, .info, .warning, .error]

def ofLabel? (label : String) : Option Severity := all.find? (·.label == label)

end Severity

inductive EventKind where
  | arrival | dispatch | completion | ioYield | ioReturn | demotion | requeue | boost | idle | error
deriving DecidableEq, Repr

namespace EventKind

def label : EventKind → String
  | .arrival => "arrival"
  | .dispatch => "dispatch"
  | .completion => "completion"
  | .ioYield => "io_yield"
  | .ioReturn => "io_return"
  | .demotion => "demotion"
  | .requeue => "requeue"
  | .boost => "boost"
  | .idle => "idle"
  | .error => "error"

def all : List EventKind :=
  [.arrival, .dispatch, .completion, .ioYield, .ioReturn, .demotion, .requeue, .boost, .idle,
    .error]

end EventKind

inductive LogError where
  | unknownKind (label : String)
deriving DecidableEq, Repr

def LogError.message : LogError → String
  | .unknownKind label => s!"{Text.quoted label} is not a valid EventKind"

def EventKind.ofLabel (label : String) : Except LogError EventKind :=
  match EventKind.all.find? (·.label == label) with
  | some kind => .ok kind
  | none => .error (.unknownKind label)

structure Entry where
  time : Int
  kind : EventKind
  message : Text.Phrase
  severity : Severity
  pid : Option Int
deriving DecidableEq, Repr

/-- What a process did at the end of a slice. -/
inductive Outcome where
  | completed | ioYield | demoted | requeued
deriving DecidableEq, Repr

def Outcome.label : Outcome → String
  | .completed => "completed"
  | .ioYield => "io_yield"
  | .demoted => "demoted"
  | .requeued => "requeued"

namespace Entry

def line (e : Entry) : Text.Phrase := "Time " :: e.time :: ": " :: e.message

/-- A level or a count of processes, which numbers things in memory and is never too
long to be written. -/
def ordinal (k : Nat) : Text.Piece := .words (toString k)

/-! ## Entries of a run -/

def arrival (time : Int) (p : Proc) : Entry :=
  ⟨time, .arrival,
    ["Process ", p.pid, " arrives (burst=", p.spec.burst, ", type=", p.spec.kind, ")"],
    .info, some p.pid⟩

def ioReturn (time : Int) (p : Proc) : Entry :=
  ⟨time, .ioReturn, ["Process ", p.pid, " returns from I/O (priority=", ordinal p.level, ")"],
    .info, some p.pid⟩

def boost (time : Int) (moved : Nat) : Entry :=
  ⟨time, .boost, ["Priority boost! (", ordinal moved, " process(es) moved to priority=0)"],
    .info, none⟩

def dispatch (time : Int) (p : Proc) (quantum : Int) : Entry :=
  ⟨time, .dispatch,
    ["Running Process ", p.pid, " (priority=", ordinal p.level, ", remaining=", p.remaining,
      ", quantum=", quantum, ")"],
    .debug, some p.pid⟩

def completion (time : Int) (p : Proc) : Entry :=
  ⟨time, .completion, ["Process ", p.pid, " completed"], .info, some p.pid⟩

def ioYield (time : Int) (p : Proc) (level : Nat) : Entry :=
  ⟨time, .ioYield, ["Process ", p.pid, " yields for I/O (keeps priority=", ordinal level, ")"],
    .info, some p.pid⟩

def demotion (time : Int) (p : Proc) (level : Nat) : Entry :=
  ⟨time, .demotion, ["Process ", p.pid, " used full quantum, demoted to priority=", ordinal level],
    .info, some p.pid⟩

def requeue (time : Int) (p : Proc) (level : Nat) : Entry :=
  ⟨time, .requeue, ["Process ", p.pid, " returned to queue (priority=", ordinal level, ")"],
    .debug, some p.pid⟩

def idle (time target : Int) : Entry :=
  ⟨time, .idle, ["CPU idle until time ", target], .info, none⟩

def failure (time : Int) (message : String) : Entry :=
  ⟨time, .error, [message], .error, none⟩

/-! ## What a message quotes -/

section
variable {time target quantum : Int} {p : Proc} {level moved : Nat}

@[simp] theorem isWritable_arrival : (arrival time p).message.isWritable =
    (Text.isWritable p.pid && Text.isWritable p.spec.burst) := by
  simp [arrival]

@[simp] theorem isWritable_ioReturn :
    (ioReturn time p).message.isWritable = Text.isWritable p.pid := by
  simp [ioReturn, ordinal]

@[simp] theorem isWritable_boost : (boost time moved).message.isWritable := rfl

@[simp] theorem isWritable_dispatch : (dispatch time p quantum).message.isWritable =
    (Text.isWritable p.pid && (Text.isWritable p.remaining && Text.isWritable quantum)) := by
  simp [dispatch, ordinal]

@[simp] theorem isWritable_completion :
    (completion time p).message.isWritable = Text.isWritable p.pid := by
  simp [completion]

@[simp] theorem isWritable_ioYield :
    (ioYield time p level).message.isWritable = Text.isWritable p.pid := by
  simp [ioYield, ordinal]

@[simp] theorem isWritable_demotion :
    (demotion time p level).message.isWritable = Text.isWritable p.pid := by
  simp [demotion, ordinal]

@[simp] theorem isWritable_requeue :
    (requeue time p level).message.isWritable = Text.isWritable p.pid := by
  simp [requeue, ordinal]

@[simp] theorem isWritable_idle :
    (idle time target).message.isWritable = Text.isWritable target := by
  simp [idle]

@[simp] theorem isWritable_failure {message : String} :
    (failure time message).message.isWritable := rfl

end

end Entry

/-- Entries in the order in which they were recorded. -/
abbrev Log := Array Entry

/-- Which entries to keep; an absent criterion keeps all. -/
structure Criteria where
  least : Option Severity
  kind : Option EventKind
  pid : Option Int
deriving DecidableEq, Repr

def Criteria.accepts (c : Criteria) (e : Entry) : Bool :=
  c.least.all (·.rank ≤ e.severity.rank) && c.kind.all (· == e.kind) &&
    c.pid.all (some · == e.pid)

namespace Log

def filter (log : Log) (c : Criteria) : List Entry := log.toList.filter c.accepts

/-- One line per entry. -/
def text (entries : List Entry) : Text.Phrase := .join "\n" (entries.map Entry.line)

end Log

end FeedbackQueue
