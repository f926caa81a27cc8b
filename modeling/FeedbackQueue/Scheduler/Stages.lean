import FeedbackQueue.Scheduler.Basic

/-!
# Stages of a step

Admission, boost, dispatch, execution and idling. Stages may be called in any
order; a step calls them in the order in which they are listed here.
-/

namespace FeedbackQueue

/-- How long a process runs when it has the CPU. -/
abbrev SlicePolicy (n : Nat) := Scheduler n → Fin n → Except SchedulerError Int

namespace SlicePolicy

/-- An I/O-bound process runs a fraction of its quantum, a CPU-bound one until
its quantum is used up, and neither longer than it needs. -/
def standard : SlicePolicy n := fun s i => do
  let p := s.process i
  if p.spec.ioBound then
    let slice ← (s.config.ioSlice p.level).mapError .range
    return min slice p.remaining
  else
    let quantum ← (s.bank.quantum p.level).mapError (.queue ∘ .index)
    return min p.remaining (quantum - p.used)

/-- At most `cap` units at a time, whatever the quantum. -/
def capped (cap : Int) : SlicePolicy n := fun s i => .ok (min cap (s.process i).remaining)

end SlicePolicy

namespace Sim

/-- An entry whose message cannot be written is not recorded, and the computation that
would record it goes no further. -/
def record (e : Entry) : Sim n Unit :=
  if e.message.isWritable then modify fun s => { s with log := s.log.push e }
  else throw (.numeral .tooLong)

def perform (i : Fin n) (call : Proc.Call) : Sim n Unit := do
  let s ← get
  match (s.process i).perform call with
  | .ok p => set { s with bank := s.bank.setProcess i p }
  | .error e => throw (.process e)

def enqueue (i : Fin n) (level : Nat) : Sim n Unit := do
  let s ← get
  match s.bank.enqueue i level with
  | .ok bank => set { s with bank }
  | .error e => throw (.queue e)

def quantum (level : Nat) : Sim n Int := do
  ofExcept (.queue ∘ .index) ((← get).bank.quantum level)

/-! ## Admission -/

/-- Queue a process whose arrival or return from I/O is due. An arrival enters
the top level with a fresh quantum, a return the level it kept. -/
def admitDue (i : Fin n) : Sim n Bool := do
  let s ← get
  let p := s.process i
  match p.phase with
  | .new =>
    if p.spec.arrival ≤ s.clock then
      perform i .arrive
      enqueue i 0
      record (.arrival s.clock p)
      return true
    else return false
  | .waiting readyAt =>
    if readyAt ≤ s.clock then
      perform i .wake
      enqueue i p.level
      record (.ioReturn s.clock p)
      return true
    else return false
  | _ => return false

/-- The processes of a list that were admitted, in its order. -/
def admitEach : List (Fin n) → Sim n (List (Fin n))
  | [] => return []
  | i :: rest => do
    let admitted ← admitDue i
    let others ← admitEach rest
    return if admitted then i :: others else others

/-- Admit everything that is due, in workload order. -/
def admitArrivals : Sim n (List (Fin n)) := admitEach (List.finRange n)

/-! ## Boost -/

/-- The processes that a boost moved; none if no boost is due. -/
def applyBoost : Sim n (List (Fin n)) := do
  let s ← get
  match s.booster.fire? s.clock s.bank with
  | none => return []
  | some (booster, bank) =>
    let moved := s.bank.belowTop
    set { s with booster, bank }
    record (.boost s.clock moved.length)
    return moved

/-! ## Dispatch -/

/-- Give the CPU to the head of the highest level that is not empty. -/
def dispatch : Sim n (Option (Fin n)) := do
  let s ← get
  match s.bank.dequeue with
  | none => return none
  | some (i, bank) =>
    set { s with bank }
    perform i (.dispatch s.clock)
    modify fun s => { s with switches := s.switches + 1 }
    let p := (← get).process i
    record (.dispatch s.clock p (← quantum p.level))
    return some i

/-! ## Execution -/

/-- Decide what becomes of a process after a slice, in this order: it has
finished, it yields for I/O, its quantum is used up, or it goes on later. -/
def reclassify (i : Fin n) (level : Nat) (quantum duration : Int) : Sim n Outcome := do
  let s ← get
  let p := s.process i
  if p.done then
    perform i (.terminate s.clock)
    modify fun s => { s with completed := s.completed + 1 }
    record (.completion s.clock p)
    return .completed
  else if p.spec.ioBound ∧ duration < quantum then
    perform i (.block (s.clock + s.config.ioDuration))
    record (.ioYield s.clock p level)
    return .ioYield
  else if quantum ≤ p.used then
    let next := min (level + 1) s.config.lowestLevel
    perform i .resetQuantum
    perform i .preempt
    enqueue i next
    record (.demotion s.clock p next)
    return .demoted
  else
    perform i .preempt
    enqueue i level
    record (.requeue s.clock p level)
    return .requeued

/-- Run a dispatched process for one slice. -/
def execute (policy : SlicePolicy n) (i : Fin n) : Sim n Slice := do
  let p := (← get).process i
  if p.phase ≠ .running then
    throw (.process (ProcError.wrongPhase .execute p.pid p.phase).raised)
  let quantum ← quantum p.level
  let duration ← ofExcept id (policy (← get) i)
  perform i (.runFor duration)
  let start := (← get).clock
  modify fun s => { s with clock := start + duration }
  let outcome ← reclassify i p.level quantum duration
  let slice : Slice := ⟨p.pid, start, duration, p.level, quantum, outcome⟩
  modify fun s => { s with timeline := s.timeline.push slice }
  return slice

end Sim

/-! ## Idling -/

/-- When a process that is not queued becomes ready on its own. -/
def Proc.due? (p : Proc) : Option Int :=
  match p.phase with
  | .new => some p.spec.arrival
  | .waiting readyAt => some readyAt
  | _ => none

/-- The earliest pending arrival or return from I/O. -/
def Scheduler.nextEvent (s : Scheduler n) : Option Int :=
  (s.bank.processes.toList.filterMap Proc.due?).min?

namespace Sim

def report : Sim n Report := do
  ofExcept .report (← get).report

/-- Move the idle clock to the next event, or fail if there will be none. -/
def fastForward : Sim n Int := do
  let s ← get
  match s.nextEvent with
  | none =>
    let pending : Int := n - s.completed
    record (.failure s.clock (stalledMessage pending))
    throw (.stalled pending s.clock (← report))
  | some target =>
    let time := max target s.clock
    record (.idle s.clock time)
    modify fun s => { s with clock := time }
    return time

end Sim

end FeedbackQueue
