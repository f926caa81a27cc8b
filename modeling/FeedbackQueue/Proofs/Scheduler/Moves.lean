import FeedbackQueue.Proofs.Bank.Sound
import FeedbackQueue.Scheduler.Run

/-!
# Moves

Every stage of a step is a sequence of atomic moves: one process is admitted, a
boost fires, one process is dispatched or runs for one slice, the clock jumps, or
the lack of anything to wait for is recorded. A move has a guard and a result
given in full, so invariants are proved once for each move and never by opening
the stages.

A move ends with an entry in the log. If the message of the entry cannot be
written the move is cut short there, with all that comes before it done.
-/

namespace FeedbackQueue

namespace Proc

/-- The process as it joins a queue. An arrival enters the top level with a fresh
quantum, a return from I/O keeps its level. -/
def admitted (p : Proc) : Proc :=
  match p.phase with
  | .new => { p with phase := .ready, level := 0, used := 0 }
  | _ => { p with phase := .ready }

def admission (p : Proc) (now : Int) : Entry :=
  match p.phase with
  | .new => .arrival now p
  | _ => .ioReturn now p

def dispatched (p : Proc) (now : Int) : Proc :=
  { p with phase := .running, firstRun := p.firstRun.or (some now) }

def ran (p : Proc) (duration : Int) : Proc :=
  { p with remaining := p.remaining - duration, used := p.used + duration }

/-- What ends a slice of a duration, of a process that has just run it. -/
def outcome (p : Proc) (quantum duration : Int) : Outcome :=
  if p.done then .completed
  else if p.spec.ioBound ∧ duration < quantum then .ioYield
  else if quantum ≤ p.used then .demoted
  else .requeued

/-- Where the outcome of its slice leaves a process. -/
def settled (p : Proc) (config : Config) (now : Int) : Outcome → Proc
  | .completed => { p with phase := .terminated now }
  | .ioYield => { p with phase := .waiting (now + config.ioDuration), used := 0 }
  | .demoted =>
    { p with phase := .ready, level := min (p.level + 1) config.lowestLevel, used := 0 }
  | .requeued => { p with phase := .ready }

def settlement (p : Proc) (config : Config) (now : Int) : Outcome → Entry
  | .completed => .completion now p
  | .ioYield => .ioYield now p p.level
  | .demoted => .demotion now p (min (p.level + 1) config.lowestLevel)
  | .requeued => .requeue now p p.level

@[simp] theorem isWritable_settlement {p : Proc} {o : Outcome} :
    (p.settlement config now o).message.isWritable = Text.isWritable p.pid := by
  cases o <;> simp [settlement]

/-- Only an arrival tells the burst time. -/
@[simp] theorem isWritable_admission {p : Proc} : (p.admission now).message.isWritable =
    (Text.isWritable p.pid && (p.phase != .new || Text.isWritable p.spec.burst)) := by
  cases h : p.phase <;> simp [admission, h, bne]

end Proc

namespace Scheduler

variable {s t : Scheduler n}

def admitted (s : Scheduler n) (i : Fin n) : Scheduler n :=
  { s with
    bank := s.bank.put i (s.process i).admitted
    log := s.log.push ((s.process i).admission s.clock) }

def boosted (s : Scheduler n) : Scheduler n :=
  { s with
    booster := s.booster.fire s.clock
    bank := s.bank.raiseAll
    log := s.log.push (.boost s.clock s.bank.belowTop.length) }

def dispatchEntry (s : Scheduler n) (i : Fin n) : Entry :=
  let p := (s.process i).dispatched s.clock
  .dispatch s.clock p (s.config.quantum p.level)

/-- The bank is what remains of the old one without the process. -/
def dispatched (s : Scheduler n) (i : Fin n) (bank : Bank n) : Scheduler n :=
  let p := (s.process i).dispatched s.clock
  { s with
    bank := bank.setProcess i p
    switches := s.switches + 1
    log := s.log.push (.dispatch s.clock p (s.config.quantum p.level)) }

/-- The slice that a process runs if it runs for a duration now. -/
def slice (s : Scheduler n) (i : Fin n) (duration : Int) : Slice :=
  let p := (s.process i).ran duration
  let quantum := s.config.quantum p.level
  ⟨p.pid, s.clock, duration, p.level, quantum, p.outcome quantum duration⟩

def processAfter (s : Scheduler n) (i : Fin n) (duration : Int) : Proc :=
  ((s.process i).ran duration).settled s.config (s.clock + duration) (s.slice i duration).outcome

def ran (s : Scheduler n) (i : Fin n) (duration : Int) : Scheduler n :=
  let slice := s.slice i duration
  let p := s.processAfter i duration
  { s with
    bank := if p.phase = .ready then s.bank.put i p else s.bank.setProcess i p
    clock := slice.stop
    completed := if slice.outcome = .completed then s.completed + 1 else s.completed
    timeline := s.timeline.push slice
    log := s.log.push (((s.process i).ran duration).settlement s.config slice.stop slice.outcome) }

def idled (s : Scheduler n) (target : Int) : Scheduler n :=
  { s with
    clock := max target s.clock
    log := s.log.push (.idle s.clock (max target s.clock)) }

def stalled (s : Scheduler n) : Scheduler n :=
  { s with log := s.log.push (.failure s.clock (stalledMessage ((n : Int) - s.completed))) }

/-- The scheduler without what was recorded since it was `s`. -/
def unrecorded (t s : Scheduler n) : Scheduler n :=
  { t with timeline := s.timeline, log := s.log }

end Scheduler

/-- One atomic change of a scheduler that runs a process for as long as a policy
says. -/
inductive Move (policy : SlicePolicy n) : Scheduler n → Scheduler n → Prop
  | enter : (s.process i).due? = some time → time ≤ s.clock → Move policy s (s.admitted i)
  | boost : s.booster.due s.clock → Move policy s s.boosted
  | dispatch : s.bank.dequeue = some (i, bank) → Move policy s (s.dispatched i bank)
  | execute : (s.process i).phase = .running → policy s i = .ok duration → 0 ≤ duration →
      duration ≤ (s.process i).remaining → Move policy s (s.ran i duration)
  | idle : s.nextEvent = some target → Move policy s (s.idled target)
  | stall : s.nextEvent = none → Move policy s s.stalled

/-- A move that is cut short where it would be recorded. The clock jumps only after
that has been recorded, so an idle jump that is cut short is none. -/
inductive Cut (policy : SlicePolicy n) : Scheduler n → Scheduler n → Prop
  | enter : (s.process i).due? = some time → time ≤ s.clock →
      ((s.process i).admission s.clock).message.isWritable = false →
      Cut policy s ((s.admitted i).unrecorded s)
  | dispatch : s.bank.dequeue = some (i, bank) →
      (s.dispatchEntry i).message.isWritable = false →
      Cut policy s ((s.dispatched i bank).unrecorded s)
  | execute : (s.process i).phase = .running → policy s i = .ok duration → 0 ≤ duration →
      duration ≤ (s.process i).remaining → Text.isWritable (s.process i).pid = false →
      Cut policy s ((s.ran i duration).unrecorded s)

/-- A move, whether or not it is recorded. -/
inductive Advance (policy : SlicePolicy n) (s t : Scheduler n) : Prop
  | move : Move policy s t → Advance policy s t
  | cut : Cut policy s t → Advance policy s t

/-- All but the records of what a move leaves behind is the same when it is cut short. -/
theorem Cut.exists_move {s t : Scheduler n} (h : Cut policy s t) :
    ∃ u, Move policy s u ∧ t = u.unrecorded s := by
  cases h with
  | enter hdue hle _ => exact ⟨_, .enter hdue hle, rfl⟩
  | dispatch hdequeue _ => exact ⟨_, .dispatch hdequeue, rfl⟩
  | execute hrunning hpolicy h0 hle _ => exact ⟨_, .execute hrunning hpolicy h0 hle, rfl⟩

end FeedbackQueue
