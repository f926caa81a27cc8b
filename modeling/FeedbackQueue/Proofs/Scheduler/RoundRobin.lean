import FeedbackQueue.Proofs.Scheduler.Admission
import FeedbackQueue.Proofs.Scheduler.FirstService
import FeedbackQueue.Proofs.Scheduler.Legible
import FeedbackQueue.Proofs.Scheduler.Termination
import FeedbackQueue.Proofs.Scheduler.Waiting

/-!
# Round robin

Where nobody can leave the top level, levels, boosts and the set of waiting pids have no
effect: the scheduler is a round robin with one line, in which an I/O-bound job has shorter
turns than others and is away for a while after each. This module defines that simulator by
itself and shows that the scheduler, seen through an abstraction, takes the same steps.
-/

namespace FeedbackQueue

namespace RoundRobin

structure Knobs where
  quantum : Int
  /-- How long an I/O-bound job runs at a time. -/
  ioSlice : Int
  /-- How long it is away after that. -/
  ioDuration : Int
deriving DecidableEq, Repr

def Knobs.turn (k : Knobs) (ioBound : Bool) : Int := if ioBound then k.ioSlice else k.quantum

inductive Ending where
  | finished | blocked | expired
deriving DecidableEq, Repr

structure Turn where
  pid : Int
  start : Int
  duration : Int
  ending : Ending
deriving DecidableEq, Repr

inductive Status where
  /-- The job arrives or returns at a time. -/
  | away (back : Int)
  | inLine
  | finished (completion : Int)
deriving DecidableEq, Repr

/-- What becomes of a job after a turn. -/
def Knobs.ending (k : Knobs) (ioBound : Bool) (remaining duration : Int) : Ending :=
  if remaining = 0 then .finished
  else if ioBound ∧ duration < k.quantum then .blocked
  else .expired

def Ending.status (k : Knobs) (stop : Int) : Ending → Status
  | .finished => .finished stop
  | .blocked => .away (stop + k.ioDuration)
  | .expired => .inLine

structure Job where
  spec : Spec
  status : Status
  remaining : Int
deriving DecidableEq, Repr

def Job.back? (j : Job) : Option Int :=
  match j.status with
  | .away time => some time
  | _ => none

def Job.completion (j : Job) : Option Int :=
  match j.status with
  | .finished time => some time
  | _ => none

@[ext]
structure State (n : Nat) where
  clock : Int
  jobs : Fin n → Job
  /-- Who waits to run, first come, first served. -/
  line : List (Fin n)
  turns : List Turn

namespace State

variable (s : State n)

def isBack (i : Fin n) : Bool := (s.jobs i).back?.any (· ≤ s.clock)

def done : Bool := (List.finRange n).all fun i => (s.jobs i).completion.isSome

/-- Everybody who is back joins the line, in workload order. -/
def gather : State n :=
  { s with
    jobs := fun i => if s.isBack i then { s.jobs i with status := .inLine } else s.jobs i
    line := s.line ++ (List.finRange n).filter s.isBack }

/-- When the next one is back. -/
def nextBack : Option Int := ((List.finRange n).filterMap fun i => (s.jobs i).back?).min?

/-- One turn of some duration, of a job that has left the line. -/
def ran (k : Knobs) (i : Fin n) (line : List (Fin n)) (duration : Int) : State n :=
  let job := s.jobs i
  let remaining := job.remaining - duration
  let ending := k.ending job.spec.ioBound remaining duration
  let stop := s.clock + duration
  { clock := stop
    jobs := Function.update s.jobs i ⟨job.spec, ending.status k stop, remaining⟩
    line := if ending = .expired then line ++ [i] else line
    turns := s.turns ++ [⟨job.spec.pid, s.clock, duration, ending⟩] }

def step (k : Knobs) : State n :=
  let s := s.gather
  match s.line with
  | i :: line => s.ran k i line (min (s.jobs i).remaining (k.turn (s.jobs i).spec.ioBound))
  | [] =>
    match s.nextBack with
    | some time => { s with clock := time }
    | none => s

def afterSteps (k : Knobs) (count : Nat) : State n := (fun s => s.step k)^[count] s

end State

def start (w : Workload) : State w.size where
  clock := 0
  jobs i := ⟨w.spec i, .away (w.spec i).arrival, (w.spec i).burst⟩
  line := []
  turns := []

end RoundRobin

-- ---------------------------------------------------------------------------
-- The scheduler as a round robin
-- ---------------------------------------------------------------------------

def Config.knobs (config : Config) : RoundRobin.Knobs where
  quantum := config.baseQuantum
  ioSlice := config.baseQuantum / config.ioSliceDivisor
  ioDuration := config.ioDuration

/-- Nobody can leave the top level: there is no other, or everybody yields early. -/
def Config.Flat (config : Config) (w : Workload) : Prop :=
  config.numQueues = 1 ∨ 2 ≤ config.ioSliceDivisor ∧ ∀ x ∈ w.specs, x.ioBound

def Phase.status (arrival : Int) : Phase → RoundRobin.Status
  | .new => .away arrival
  | .waiting readyAt => .away readyAt
  | .terminated completion => .finished completion
  | _ => .inLine

def Proc.job (p : Proc) : RoundRobin.Job :=
  ⟨p.spec, p.phase.status p.spec.arrival, p.remaining⟩

def Outcome.ending : Outcome → RoundRobin.Ending
  | .completed => .finished
  | .ioYield => .blocked
  | _ => .expired

def Slice.turn (b : Slice) : RoundRobin.Turn := ⟨b.pid, b.start, b.duration, b.outcome.ending⟩

/-- The scheduler without its levels, its timer and its counters. -/
def Scheduler.roundRobin (s : Scheduler n) : RoundRobin.State n where
  clock := s.clock
  jobs i := (s.process i).job
  line := s.bank.queueAt 0
  turns := s.timeline.toList.map Slice.turn

/-- A turn as a slice of the top level. -/
def RoundRobin.Turn.slice (quantum : Int) (t : RoundRobin.Turn) : Slice where
  pid := t.pid
  start := t.start
  duration := t.duration
  level := 0
  quantum := quantum
  outcome :=
    match t.ending with
    | .finished => .completed
    | .blocked => .ioYield
    | .expired => .demoted

theorem Config.turn_zero (config : Config) (ioBound : Bool) :
    config.turn ioBound 0 = config.knobs.turn ioBound := by
  have hquantum : config.quantum 0 = config.baseQuantum := Int.mul_one _
  by_cases hone : config.ioSliceDivisor = 1 <;> cases ioBound <;>
    simp [Config.turn, RoundRobin.Knobs.turn, knobs, ioPart, hquantum, hone]

theorem Proc.back?_job (p : Proc) : p.job.back? = p.due? := by
  cases h : p.phase <;> simp [job, RoundRobin.Job.back?, Phase.status, due?, h]

theorem Proc.completion_job (p : Proc) : p.job.completion = p.completion := by
  cases h : p.phase <;> simp [job, RoundRobin.Job.completion, Phase.status, completion, h]

theorem Proc.level_admitted_of_zero {p : Proc} (h : p.level = 0) : p.admitted.level = 0 := by
  unfold admitted
  split
  · rfl
  · exact h

theorem Proc.job_admitted (p : Proc) : p.admitted.job = { p.job with status := .inLine } := by
  simp [job, Phase.status]

theorem Proc.job_settled {p : Proc} {config : Config} (o : Outcome) :
    (p.settled config now o).job = ⟨p.spec, o.ending.status config.knobs now, p.remaining⟩ := by
  cases o <;> rfl

theorem Proc.ready_settled {p : Proc} {config : Config} (o : Outcome) :
    (p.settled config now o).phase = .ready ↔ o.ending = .expired := by
  cases o <;> simp [settled, Outcome.ending]

theorem Proc.ending_outcome (p : Proc) (config : Config) (d : Int) :
    (p.outcome (config.quantum 0) d).ending =
      config.knobs.ending p.spec.ioBound p.remaining d := by
  have hquantum : config.quantum 0 = config.knobs.quantum := Int.mul_one _
  have hdone : (p.done = true) = (p.remaining = 0) := by simp [done]
  unfold outcome RoundRobin.Knobs.ending
  rw [hquantum]
  simp only [hdone]
  split
  · rfl
  · split
    · rfl
    · split <;> rfl

theorem Slice.slice_turn {b : Slice} (hlevel : b.level = 0) (houtcome : b.outcome ≠ .requeued) :
    b.turn.slice b.quantum = b := by
  obtain ⟨pid, start, duration, level, quantum, outcome⟩ := b
  obtain rfl : level = 0 := hlevel
  cases outcome with
  | requeued => exact absurd rfl houtcome
  | _ => rfl

namespace Scheduler

variable {s t : Scheduler n}

/-- Everybody has the top level. -/
def Flat (s : Scheduler n) : Prop := ∀ i, (s.process i).level = 0

theorem Flat.arrived (h : s.Flat) : s.arrived.Flat := by
  intro i
  rw [process_arrived]
  split
  · exact Proc.level_admitted_of_zero (h i)
  · exact h i

theorem Flat.prepared (h : s.Flat) : s.prepared.Flat := by
  intro i
  unfold Scheduler.prepared
  split
  · rw [process_boosted]
    split
    · rfl
    · exact h.arrived i
  · exact h.arrived i

theorem Flat.belowTop_eq_nil (hs : s.Sound) (h : s.Flat) : s.bank.belowTop = [] :=
  List.eq_nil_iff_forall_not_mem.mpr fun i hi => (hs.bank.mem_belowTop.mp hi).2 (h i)

/-! ## The stages of a step -/

theorem isBack_roundRobin (s : Scheduler n) : s.roundRobin.isBack = s.due := by
  funext i
  rw [RoundRobin.State.isBack, due, Proc.dueBy, ← Proc.back?_job]
  rfl

theorem nextBack_roundRobin (s : Scheduler n) : s.roundRobin.nextBack = s.nextEvent := by
  rw [nextEvent, toList_processes, List.filterMap_map, RoundRobin.State.nextBack]
  congr 2
  funext i
  exact (s.process i).back?_job

theorem Flat.roundRobin_arrived (hs : s.Sound) (h : s.Flat) :
    s.arrived.roundRobin = s.roundRobin.gather := by
  have hentry : ∀ i ∈ s.dueSlots, decide ((s.process i).entryLevel = 0) := fun i _ =>
    decide_eq_true (Proc.level_admitted ▸ Proc.level_admitted_of_zero (h i))
  ext1
  case clock => exact clock_arrived
  case jobs =>
    funext i
    simp only [RoundRobin.State.gather, isBack_roundRobin]
    show (s.arrived.process i).job = _
    rw [process_arrived]
    split
    · exact Proc.job_admitted _
    · rfl
  case line =>
    simp only [RoundRobin.State.gather, isBack_roundRobin]
    show s.arrived.bank.queueAt 0 = s.bank.queueAt 0 ++ s.dueSlots
    rw [queueAt_arrived hs, List.filter_eq_self.mpr hentry]
  case turns => exact congrArg (·.toList.map Slice.turn) timeline_arrived

theorem Flat.roundRobin_prepared (hs : s.Sound) (h : s.Flat) :
    s.prepared.roundRobin = s.roundRobin.gather := by
  rw [← h.roundRobin_arrived hs]
  cases hdue : s.booster.due s.clock with
  | false => rw [prepared_of_not_due hdue]
  | true =>
    -- A boost finds nobody to move.
    have hbelow := h.arrived.belowTop_eq_nil hs.arrived
    rw [prepared_of_due hdue]
    ext1
    case clock => rfl
    case jobs =>
      funext i
      show (s.arrived.boosted.process i).job = (s.arrived.process i).job
      rw [process_boosted, hbelow, if_neg List.not_mem_nil]
    case line =>
      show s.arrived.boosted.bank.queueAt 0 = s.arrived.bank.queueAt 0
      rw [queueAt_zero_boosted, show s.arrived.boosted.bank.queued = _ from Bank.queued_raiseAll,
        Bank.queued_eq_append, hbelow, List.append_nil]
    case turns => rfl

/-- The head of the line is the head of the queues. -/
theorem Flat.queueAt_zero_of_dequeue (hs : s.Sound) (h : s.Flat)
    (hdequeue : s.bank.dequeue = some (i, rest)) : s.bank.queueAt 0 = i :: rest.queueAt 0 := by
  obtain ⟨-, -, -, -, k, hk, -, -⟩ := Bank.dequeue_eq_some hdequeue
  obtain ⟨-, hlevel⟩ := (hs.bank.located i k).mp (hk ▸ List.mem_cons_self)
  obtain rfl : 0 = k := (h i).symm.trans hlevel
  exact hk

theorem roundRobin_dispatched (hs : s.Sound) (hdequeue : s.bank.dequeue = some (i, rest)) :
    (s.dispatched i rest).roundRobin = { s.roundRobin with line := rest.queueAt 0 } := by
  ext1
  case clock => rfl
  case jobs =>
    funext j
    show ((s.dispatched i rest).process j).job = (s.process j).job
    rw [process_dispatched hdequeue]
    split
    · subst j
      have hready := hs.head_ready hdequeue
      simp [Proc.job, Proc.dispatched, hready, Phase.status]
    · rfl
  case line => rfl
  case turns => rfl

/-- A slice of the top level after which the process has the top level too. -/
theorem roundRobin_ran (hpos : 0 < s.bank.levels.length) (hlevel : (s.process i).level = 0)
    (hafter : (s.processAfter i d).level = 0) :
    (s.ran i d).roundRobin = s.roundRobin.ran s.config.knobs i (s.bank.queueAt 0) d := by
  have hending : s.config.knobs.ending (s.roundRobin.jobs i).spec.ioBound
      ((s.roundRobin.jobs i).remaining - d) d = (s.slice i d).outcome.ending := by
    have houtcome := Proc.ending_outcome ((s.process i).ran d) s.config d
    rw [← hlevel] at houtcome
    exact houtcome.symm
  simp only [RoundRobin.State.ran, hending]
  ext1
  case clock => rfl
  case jobs =>
    funext j
    show ((s.ran i d).process j).job = Function.update (fun j => (s.process j).job) i _ j
    rw [process_ran]
    by_cases hj : j = i
    · subst hj
      rw [if_pos rfl, Function.update_self, processAfter, Proc.job_settled]
      rfl
    · rw [if_neg hj, Function.update_of_ne hj]
  case line =>
    have hready : (s.processAfter i d).phase = .ready ↔ (s.slice i d).outcome.ending = .expired :=
      Proc.ready_settled _
    show (s.ran i d).bank.queueAt 0 = _
    simp only [ran, hready]
    split
    · exact (Level.queueAt_push (hafter ▸ hpos)).trans (if_pos hafter.symm)
    · rfl
  case turns =>
    show (s.timeline.push (s.slice i d)).toList.map Slice.turn = _
    rw [Array.toList_push, List.map_append]
    rfl

/-! ## Steps -/

theorem roundRobin_share (hfresh : s.Fresh) (hi : (s.process i).completion = none)
    (hlevel : (s.process i).level = 0) : s.share i =
      min (s.roundRobin.jobs i).remaining
        (s.config.knobs.turn (s.roundRobin.jobs i).spec.ioBound) := by
  rw [share_eq_min hfresh hi, hlevel, Config.turn_zero]
  rfl

theorem Flat.line_prepared_of_none (hs : s.Sound) (h : s.Flat)
    (hdequeue : s.prepared.bank.dequeue = none) : s.roundRobin.gather.line = [] := by
  have hqueued := Bank.dequeue_eq_none.mp hdequeue
  rw [Bank.queued_eq_append, List.append_eq_nil_iff] at hqueued
  rw [← h.roundRobin_prepared hs]
  exact hqueued.1

theorem Flat.line_prepared_of_some (hs : s.Sound) (h : s.Flat)
    (hdequeue : s.prepared.bank.dequeue = some (i, rest)) :
    s.roundRobin.gather.line = i :: rest.queueAt 0 := by
  rw [← h.roundRobin_prepared hs]
  exact h.prepared.queueAt_zero_of_dequeue hs.prepared hdequeue

theorem Flat.roundRobin_slice (hs : s.AtRest .standard) (h : s.Flat) (hafter : t.Flat)
    (hround : Round .standard s t) (hdequeue : s.prepared.bank.dequeue = some (i, rest)) :
    t.roundRobin = s.roundRobin.step s.config.knobs := by
  have hsound := hs.sound.prepared
  have hdispatched := roundRobin_dispatched hsound hdequeue
  have hlevel : ((s.prepared.dispatched i rest).process i).level = 0 :=
    (apply_dispatched Proc.level hdequeue fun _ _ => rfl).trans (h.prepared i)
  have hpos : 0 < (s.prepared.dispatched i rest).bank.levels.length :=
    (hsound.dispatched hdequeue).length_levels ▸ Config.numQueues_pos _
  have hshare := roundRobin_share (hs.fresh_dispatched hdequeue rfl)
    (Proc.completion_of_running (running_dispatched hdequeue)) hlevel
  have hline := h.line_prepared_of_some hs.sound hdequeue
  have htop := hafter i
  have hconfig : (s.prepared.dispatched i rest).config = s.config := config_prepared
  rw [hround.eq_ran hs.sound hdequeue] at htop ⊢
  rw [process_ran, if_pos rfl] at htop
  rw [roundRobin_ran hpos hlevel htop, hshare, hdispatched, hconfig, RoundRobin.State.step,
    h.roundRobin_prepared hs.sound, hline]
  rfl

theorem Flat.roundRobin_idle (hs : s.Sound) (h : s.Flat)
    (hdequeue : s.prepared.bank.dequeue = none) (hnext : s.prepared.nextEvent = some target) :
    (s.prepared.idled target).roundRobin = s.roundRobin.step s.config.knobs := by
  have hline := h.line_prepared_of_none hs hdequeue
  rw [← h.roundRobin_prepared hs] at hline
  rw [RoundRobin.State.step, ← h.roundRobin_prepared hs, hline, nextBack_roundRobin, hnext]
  exact RoundRobin.State.ext (clock_idled_prepared hnext) rfl hline rfl

theorem Flat.roundRobin_done (hs : s.Sound) (h : s.Flat) (hdone : s.done) :
    s.roundRobin = s.roundRobin.step s.config.knobs := by
  have hterminated := hs.done_iff.mp hdone
  have hdue (i) : s.due i = false := by
    obtain ⟨time, hphase⟩ := hterminated i
    simp [due, Proc.dueBy, Proc.due?, hphase]
  have hgather : s.roundRobin.gather = s.roundRobin := by
    rw [← h.roundRobin_arrived hs, arrived_of_not_due hdue]
  have hline : s.roundRobin.line = [] := hs.queueAt_of_done hdone
  have hnext : s.roundRobin.nextBack = none := by
    rw [nextBack_roundRobin, nextEvent_eq_none]
    intro i
    obtain ⟨time, hphase⟩ := hterminated i
    simp [Proc.due?, hphase]
  rw [RoundRobin.State.step, hgather, hline]
  simp only [hnext]

theorem Flat.roundRobin_step (hs : s.AtRest .standard) (h : s.Flat) (hafter : t.Flat)
    (hstep : Step .standard s t) : t.roundRobin = s.roundRobin.step s.config.knobs := by
  cases hstep with
  | done hdone => exact h.roundRobin_done hs.sound hdone
  | round _ hround =>
    cases hdequeue : s.prepared.bank.dequeue with
    | some head => exact h.roundRobin_slice hs hafter hround hdequeue
    | none =>
      cases hround with
      | slice hsome _ _ _ => cases hsome.symm.trans hdequeue
      | idle _ hnext => exact h.roundRobin_idle hs.sound hdequeue hnext

theorem done_roundRobin (hs : s.Sound) : s.roundRobin.done = s.done := by
  rw [Bool.eq_iff_iff, hs.done_iff, RoundRobin.State.done, List.all_eq_true]
  have hcompletion (i) : (s.roundRobin.jobs i).completion = (s.process i).completion :=
    Proc.completion_job _
  simp [hcompletion, Proc.isSome_completion]

/-! ## Steps that cannot be recorded -/

/-- The first turn of a job tells when it ran for the first time. -/
theorem firstRun_eq (hs : s.FirstRuns) (ht : t.FirstRuns) (h : s.roundRobin = t.roundRobin) :
    (s.process i).firstRun = (t.process i).firstRun := by
  have hturns (u : Scheduler n) (hu : u.FirstRuns) : (u.process i).firstRun =
      (u.roundRobin.turns.find? (·.pid = (u.roundRobin.jobs i).spec.pid)).map
        RoundRobin.Turn.start := by
    rw [hu i]
    simp only [roundRobin, List.find?_map, Option.map_map]
    rfl
  rw [hturns s hs, hturns t ht, h]

/-- Whoever is away and has never run is new. -/
theorem new_of_roundRobin (hs : s.FirstRuns) (hcome : s.FirstCome) (ht : t.FirstRuns)
    (hcome' : t.FirstCome) (h : s.roundRobin = t.roundRobin) (hnew : (s.process i).phase = .new) :
    (t.process i).phase = .new := by
  have hnone : (t.process i).firstRun = none :=
    firstRun_eq hs ht h ▸ hcome.new i hnew
  refine (hcome'.waits i hnone).resolve_right ?_
  rintro ⟨hready, -⟩
  have hjob : (s.process i).job = (t.process i).job := congrArg (fun r => r.jobs i) h
  have hstatus := congrArg RoundRobin.Job.status hjob
  simp [Proc.job, hnew, hready, Phase.status] at hstatus

theorem Flat.isWritable_dispatchEntry (h : s.Flat) :
    (s.prepared.dispatchEntry i).message.isWritable =
      (Text.isWritable (s.process i).spec.pid && (Text.isWritable (s.process i).job.remaining &&
        Text.isWritable s.config.knobs.quantum)) := by
  have hlevel : ((s.prepared.process i).dispatched s.prepared.clock).level = 0 := h.prepared i
  have hquantum : s.prepared.config.quantum 0 = s.config.knobs.quantum := by
    rw [config_prepared]
    exact Int.mul_one _
  have hpid : ((s.prepared.process i).dispatched s.prepared.clock).pid =
      (s.process i).spec.pid := congrArg Spec.pid spec_prepared
  have hremaining : ((s.prepared.process i).dispatched s.prepared.clock).remaining =
      (s.process i).job.remaining := remaining_prepared
  rw [dispatchEntry, Entry.isWritable_dispatch, hlevel, hquantum, hpid, hremaining]

/-- What the one scheduler cannot record the other one cannot either. -/
theorem not_halt_of_roundRobin (hs : s.AtRest .standard) (ht : t.AtRest .standard) (hflat : s.Flat)
    (hflat' : t.Flat) (h : s.roundRobin = t.roundRobin) (hknobs : s.config.knobs = t.config.knobs)
    (hnew : ∀ i, (s.process i).phase = .new → (t.process i).phase = .new)
    (hdone : s.done = false) (hrun : EStateM.run (Sim.step .standard) t = .ok more t') :
    ¬ s.Halt s' := by
  have hjob (i) : (s.process i).job = (t.process i).job := congrArg (fun r => r.jobs i) h
  have hspec (i) : (s.process i).spec = (t.process i).spec := congrArg RoundRobin.Job.spec (hjob i)
  have hdone' : t.done = false := by
    rw [← done_roundRobin ht.sound, ← h, done_roundRobin hs.sound, hdone]
  obtain ⟨hall, hdispatch⟩ := recorded_of_ok ht.sound hdone' hrun
  intro hhalt
  cases hhalt with
  | @admission _ i hcut =>
    have hdue := hcut.mem_due (List.mem_append_right _ (List.mem_singleton_self i))
    rw [← isBack_roundRobin, h, isBack_roundRobin] at hdue
    have hadmissible := hall i hdue
    have hrefused := hcut.refused
    rw [admissible, Proc.isWritable_admission] at hadmissible hrefused
    rw [Proc.pid, ← hspec i, Bool.and_eq_true] at hadmissible
    rw [Proc.pid, hadmissible.1, Bool.true_and, Bool.or_eq_false_iff] at hrefused
    have hphase : (s.process i).phase = .new := by simpa using hrefused.1
    simp [hnew i hphase, hrefused.2] at hadmissible
  | @dispatch i rest hdequeue hrefused =>
    have hline := hflat.line_prepared_of_some hs.sound hdequeue
    rw [h] at hline
    cases hdequeue' : t.prepared.bank.dequeue with
    | none => simp [hflat'.line_prepared_of_none ht.sound hdequeue'] at hline
    | some head =>
      obtain ⟨j, rest'⟩ := head
      rw [hflat'.line_prepared_of_some ht.sound hdequeue', List.cons.injEq] at hline
      obtain ⟨rfl, -⟩ := hline
      have hwritable := hdispatch _ _ hdequeue'
      have hremaining := congrArg RoundRobin.Job.remaining (hjob j)
      rw [hflat'.isWritable_dispatchEntry, ← hspec, ← hknobs, ← hremaining,
        ← hflat.isWritable_dispatchEntry, hrefused] at hwritable
      cases hwritable
  | @idle target hqueued hnext hrefused =>
    have hline := hflat.line_prepared_of_none hs.sound (Bank.dequeue_eq_none.mpr hqueued)
    rw [h] at hline
    cases hdequeue' : t.prepared.bank.dequeue with
    | some head => simp [hflat'.line_prepared_of_some ht.sound hdequeue'] at hline
    | none =>
      have hnext' : t.prepared.nextEvent = some target := by
        rw [← hnext, ← nextBack_roundRobin, ← nextBack_roundRobin,
          hflat'.roundRobin_prepared ht.sound, ← h, hflat.roundRobin_prepared hs.sound]
      simp [run_step_idle ht.sound hdone' hall hdequeue' hnext', hrefused] at hrun

end Scheduler

-- ---------------------------------------------------------------------------
-- Runs
-- ---------------------------------------------------------------------------

namespace Workload

open Scheduler

variable {w : Workload} {config : Config}

theorem flat_afterSteps (hflat : config.Flat w) (k : Nat) :
    ((w.start config).afterSteps .standard k).Flat := by
  intro i
  have hs : ((w.start config).afterSteps .standard k).Sound := sound_afterSteps k
  have hconfig : ((w.start config).afterSteps .standard k).config = config := config_afterSteps k
  have hspec : (((w.start config).afterSteps .standard k).process i).spec = w.spec i :=
    spec_afterSteps k i
  rcases hflat with hone | ⟨hdivisor, hio⟩
  · have hle := hs.level_le i
    rw [hconfig, Config.lowestLevel, hone] at hle
    exact Nat.le_zero.mp hle
  · refine ((levelled_afterSteps config k).placed i).yielding ?_ ?_
    · rw [hspec]
      exact hio _ (mem_specs.mpr ⟨i, rfl⟩)
    · rw [hconfig]
      omega

theorem roundRobin_start : (w.start config).roundRobin = RoundRobin.start w := by
  ext1
  case clock => rfl
  case jobs =>
    funext i
    show ((w.start config).process i).job = _
    rw [process_start]
    rfl
  case line => exact queueAt_start
  case turns => rfl

theorem roundRobin_afterSteps (hflat : config.Flat w)
    (hk : ¬ (w.start config).Stopped .standard k) :
    ((w.start config).afterSteps .standard k).roundRobin =
      (RoundRobin.start w).afterSteps config.knobs k := by
  induction k with
  | zero => exact roundRobin_start
  | succ k ih =>
    have hearlier := not_stopped_of_le hk (Nat.le_succ k)
    have hs := atRest_start.afterSteps .standard hearlier
    have hconfig : ((w.start config).afterSteps .standard k).config = config := config_afterSteps k
    rw [(flat_afterSteps hflat k).roundRobin_step hs (flat_afterSteps hflat (k + 1))
      (atRest_start.step_afterSteps .standard hk), ih hearlier, hconfig,
      RoundRobin.State.afterSteps, RoundRobin.State.afterSteps, Function.iterate_succ_apply']

/-- Two configurations that are the same to a round robin stop at the same steps. -/
theorem not_stopped_of_knobs (hflat : config.Flat w) (hflat' : config'.Flat w)
    (hknobs : config.knobs = config'.knobs) (hk : ¬ (w.start config').Stopped .standard k) :
    ¬ (w.start config).Stopped .standard k := by
  induction k with
  | zero => exact not_stopped_zero
  | succ k ih =>
    have hearlier' := not_stopped_of_le hk (Nat.le_succ k)
    have hearlier := ih hearlier'
    have hstart : (w.start config').AtRest .standard := atRest_start
    have hnext' := hstart.next .standard hk
    have hsame : ((w.start config).afterSteps .standard k).roundRobin =
        ((w.start config').afterSteps .standard k).roundRobin := by
      rw [roundRobin_afterSteps hflat hearlier, roundRobin_afterSteps hflat' hearlier', hknobs]
    have hknobs' : ((w.start config).afterSteps .standard k).config.knobs =
        ((w.start config').afterSteps .standard k).config.knobs := by
      rw [config_afterSteps, config_afterSteps, hknobs]
    rcases atRest_start.next_or_last .standard hearlier with hnext | hlast
    · exact hnext.not_stopped
    · refine absurd hlast.halt (not_halt_of_roundRobin (atRest_start.afterSteps .standard hearlier)
        (atRest_start.afterSteps .standard hearlier') (flat_afterSteps hflat k)
        (flat_afterSteps hflat' k) hsame hknobs' (fun i => ?_) hlast.not_done hnext'.run_eq)
      exact new_of_roundRobin (firstRuns_afterSteps hearlier)
        (firstCome_afterSteps .standard hearlier) (firstRuns_afterSteps hearlier')
        (firstCome_afterSteps .standard hearlier') hsame

/-- Every slice is one of the top level. -/
theorem slice_turn_of_flat (hflat : config.Flat w) (k : Nat) :
    ∀ b ∈ ((w.start config).afterSteps .standard k).timeline.toList,
      b.turn.slice config.baseQuantum = b := by
  intro b hb
  have haccounted : ((w.start config).afterSteps .standard k).Accounted :=
    accounted_afterSteps config k
  have hconfig : ((w.start config).afterSteps .standard k).config = config := config_afterSteps k
  obtain ⟨before, after, heq⟩ := List.append_of_mem hb
  obtain ⟨i, -, hlawful⟩ := haccounted.lawful before b after heq trivial
  have hspec : (((w.start config).afterSteps .standard k).process i).spec = w.spec i :=
    spec_afterSteps k i
  have houtcome := hlawful.outcome_ne_requeued
  rw [hconfig, hspec] at hlawful
  have hlevel : b.level = 0 := by
    rcases hflat with hone | ⟨hdivisor, hio⟩
    · have hlevel := ((levelled_afterSteps config k).level before b after heq).2.2
      rw [hconfig, Config.lowestLevel, hone, Nat.sub_self, Nat.zero_min] at hlevel
      exact hlevel
    · exact hlawful.level (hio _ (mem_specs.mpr ⟨i, rfl⟩)) (by omega)
  have hquantum : b.quantum = config.baseQuantum := by
    rw [hlawful.quantum, hlevel]
    exact Int.mul_one _
  rw [← hquantum]
  exact Slice.slice_turn hlevel houtcome

theorem timeline_eq_turns (hflat : config.Flat w)
    (hk : ¬ (w.start config).Stopped .standard k) :
    ((w.start config).afterSteps .standard k).timeline.toList =
      ((RoundRobin.start w).afterSteps config.knobs k).turns.map (·.slice config.baseQuantum) := by
  rw [← roundRobin_afterSteps hflat hk]
  show _ = List.map _ (List.map Slice.turn _)
  rw [List.map_map]
  exact ((List.map_congr_left (slice_turn_of_flat hflat k)).trans (List.map_id _)).symm

theorem timeline_eq_of_knobs (hflat : config.Flat w) (hflat' : config'.Flat w)
    (hknobs : config'.knobs = config.knobs) (k : Nat) :
    ((w.start config').afterSteps .standard k).timeline =
      ((w.start config).afterSteps .standard k).timeline := by
  have hquantum : config'.baseQuantum = config.baseQuantum := congrArg (·.quantum) hknobs
  induction k with
  | zero => rfl
  | succ k ih =>
    by_cases hk : (w.start config).Stopped .standard (k + 1)
    · have hk' : (w.start config').Stopped .standard (k + 1) :=
        not_not.mp fun h => not_stopped_of_knobs hflat hflat' hknobs.symm h hk
      rw [atRest_start.timeline_of_stopped .standard hk', ih,
        atRest_start.timeline_of_stopped .standard hk]
    · have hk' := not_stopped_of_knobs hflat' hflat hknobs hk
      rw [← Array.toList_inj, timeline_eq_turns hflat' hk', timeline_eq_turns hflat hk, hknobs,
        hquantum]

/-- Where nobody can leave the top level, the scheduler is a round robin: after any number of
steps it has run the same turns as slices of the top level, it has the same clock and the same
line, and the same jobs have completed at the same times, unless the steps have stopped because
one of them cannot be recorded. So the boost interval has no effect on the timeline, nor has the
number of levels where everybody yields early. -/
theorem round_robin (w : Workload) (config : Config) (hflat : config.Flat w) :
    (∀ k, ¬ (w.start config).Stopped .standard k →
      let s := (w.start config).afterSteps .standard k
      let r := (RoundRobin.start w).afterSteps config.knobs k
      s.timeline.toList = r.turns.map (·.slice config.baseQuantum) ∧
      s.clock = r.clock ∧ s.bank.queueAt 0 = r.line ∧
      (∀ i, (s.process i).completion = (r.jobs i).completion) ∧ s.done = r.done) ∧
    ((∃ k, ((w.start config).afterSteps .standard k).done) ∨
      ¬ w.Recordable config ∧ ∃ k, (w.start config).Stopped .standard k) ∧
    ∀ config', config'.Flat w → config'.knobs = config.knobs → ∀ k,
      ((w.start config').afterSteps .standard k).timeline =
        ((w.start config).afterSteps .standard k).timeline := by
  refine ⟨fun k hk => ?_, w.done_or_stopped config .standard, fun config' hflat' hknobs k =>
    timeline_eq_of_knobs hflat hflat' hknobs k⟩
  intro s r
  have hs : s.Sound := sound_afterSteps k
  have h : s.roundRobin = r := roundRobin_afterSteps hflat hk
  refine ⟨timeline_eq_turns hflat hk, congrArg (·.clock) h, congrArg (·.line) h, fun i => ?_, ?_⟩
  · rw [← h]
    exact (Proc.completion_job _).symm
  · rw [← h, done_roundRobin hs]

/-- The reference workload with a single level. -/
theorem round_robin_reference :
    let config := { Config.standard with numQueues := 1, numQueues_pos := by decide }
    config.Flat reference ∧ ∃ k, ((reference.start config).afterSteps .standard k).done ∧
      ((reference.start config).afterSteps .standard k).timeline.toList =
        ((RoundRobin.start reference).afterSteps ⟨10, 2, 10⟩ k).turns.map (·.slice 10) := by
  intro config
  have hflat : config.Flat reference := .inl rfl
  have hrecordable : reference.Recordable config := by
    refine ⟨⟨?_, ?_, ?_⟩, ?_⟩ <;> decide +kernel
  obtain ⟨hturns, hend, -⟩ := round_robin reference config hflat
  obtain ⟨k, hdone⟩ := hend.resolve_right fun hstopped => hstopped.1 hrecordable
  exact ⟨hflat, k, hdone, (hturns k (not_stopped hrecordable .standard k)).1⟩

end Workload

end FeedbackQueue
