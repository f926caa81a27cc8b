import FeedbackQueue.Proofs.Bank.Renaming
import FeedbackQueue.Proofs.Scheduler.Delivery

/-!
# Two runs side by side

A translation says where the processes of one run stand in the workload of another, how
long a unit of time of the first is in the second, and which pids there stand for those
here. Two schedulers are alike when all that the first one holds reads so in the second.
Every stage of a step keeps schedulers alike, as long as nothing becomes due in the
second one that the first one does not know.
-/

namespace FeedbackQueue

/-- How slots, times and pids of one run read in another. -/
structure Translation (n m : Nat) where
  /-- The order of the workload stays. -/
  slot : Fin n ↪o Fin m
  unit : Int
  unit_pos : 0 < unit
  pid : Int → Int

namespace Translation

variable {c : Translation n m}

def time (c : Translation n m) (t : Int) : Int := c.unit * t

@[simp] theorem time_le_time : c.time a ≤ c.time b ↔ a ≤ b := Int.mul_le_mul_left c.unit_pos

@[simp] theorem time_lt_time : c.time a < c.time b ↔ a < b := Int.mul_lt_mul_left c.unit_pos

@[simp] theorem time_inj : c.time a = c.time b ↔ a = b := mul_left_cancel_iff_of_pos c.unit_pos

@[simp] theorem time_zero : c.time 0 = 0 := Int.mul_zero c.unit

theorem time_add : c.time (a + b) = c.time a + c.time b := Int.mul_add c.unit a b

theorem time_sub : c.time (a - b) = c.time a - c.time b := Int.mul_sub c.unit a b

theorem time_min : c.time (min a b) = min (c.time a) (c.time b) :=
  mul_min_of_nonneg a b (Int.le_of_lt c.unit_pos)

theorem time_max : c.time (max a b) = max (c.time a) (c.time b) :=
  mul_max_of_nonneg a b (Int.le_of_lt c.unit_pos)

theorem slot_inj : c.slot i = c.slot j ↔ i = j := c.slot.injective.eq_iff

def phase (c : Translation n m) : Phase → Phase
  | .new => .new
  | .ready => .ready
  | .running => .running
  | .waiting readyAt => .waiting (c.time readyAt)
  | .terminated completion => .terminated (c.time completion)

def slice (c : Translation n m) (b : Slice) : Slice :=
  ⟨c.pid b.pid, c.time b.start, c.time b.duration, b.level, c.time b.quantum, b.outcome⟩

end Translation

/-- When something happened, what it was and to whom. -/
structure Mark where
  time : Int
  kind : EventKind
  pid : Option Int
deriving DecidableEq, Repr

def Entry.mark (e : Entry) : Mark := ⟨e.time, e.kind, e.pid⟩

def Translation.mark (c : Translation n m) (x : Mark) : Mark :=
  ⟨c.time x.time, x.kind, x.pid.map c.pid⟩

namespace Translation

/-- Times and pids stay as they are. -/
def ofSlots (slot : Fin n ↪o Fin m) : Translation n m := ⟨slot, 1, Int.one_pos, id⟩

variable (slot : Fin n ↪o Fin m)

@[simp] theorem ofSlots_slot : (ofSlots slot).slot = slot := rfl

@[simp] theorem ofSlots_pid : (ofSlots slot).pid = id := rfl

@[simp] theorem ofSlots_time : (ofSlots slot).time = id := funext Int.one_mul

@[simp] theorem ofSlots_phase : (ofSlots slot).phase = id := by
  funext phase
  cases phase <;> simp [Translation.phase]

@[simp] theorem ofSlots_slice : (ofSlots slot).slice = id := by
  funext b
  simp [Translation.slice]

@[simp] theorem ofSlots_mark : (ofSlots slot).mark = id := by
  funext x
  simp [Translation.mark]

end Translation

variable {c : Translation n m} {config config' : Config}

-- ---------------------------------------------------------------------------
-- Configurations and jobs
-- ---------------------------------------------------------------------------

/-- The same knobs in other units of time. How I/O-bound jobs are cut short is left to the
comparison of jobs. -/
structure Config.Alike (c : Translation n m) (config config' : Config) : Prop where
  numQueues : config'.numQueues = config.numQueues
  baseQuantum : config'.baseQuantum = c.time config.baseQuantum
  boostInterval : config'.boostInterval = c.time config.boostInterval
  ioDuration : config'.ioDuration = c.time config.ioDuration

namespace Config.Alike

theorem refl {slot : Fin n ↪o Fin m} : config.Alike (.ofSlots slot) config := by
  constructor <;> simp

theorem quantum (h : config.Alike c config') (k : Nat) :
    config'.quantum k = c.time (config.quantum k) := by
  rw [Config.quantum, h.baseQuantum]
  exact Int.mul_assoc _ _ _

theorem lowestLevel (h : config.Alike c config') : config'.lowestLevel = config.lowestLevel :=
  congrArg (· - 1) h.numQueues

end Config.Alike

/-- The two jobs ask for the same and, each under its own configuration, may run equally
long and yield for I/O alike. -/
structure Spec.Alike (c : Translation n m) (config config' : Config) (x y : Spec) : Prop where
  pid : y.pid = c.pid x.pid
  arrival : y.arrival = c.time x.arrival
  burst : y.burst = c.time x.burst
  turn : ∀ k, config'.turn y.ioBound k = c.time (config.turn x.ioBound k)
  yields : (y.ioBound ∧ config'.ioSliceDivisor ≠ 1) ↔ (x.ioBound ∧ config.ioSliceDivisor ≠ 1)

theorem Spec.Alike.refl {slot : Fin n ↪o Fin m} {x : Spec} :
    x.Alike (.ofSlots slot) config config x := by
  constructor <;> simp

-- ---------------------------------------------------------------------------
-- Processes
-- ---------------------------------------------------------------------------

namespace Proc

structure Alike (c : Translation n m) (config config' : Config) (p q : Proc) : Prop where
  spec : p.spec.Alike c config config' q.spec
  phase : q.phase = c.phase p.phase
  remaining : q.remaining = c.time p.remaining
  level : q.level = p.level
  used : q.used = c.time p.used
  firstRun : q.firstRun = p.firstRun.map c.time

namespace Alike

variable {p q : Proc}

theorem ofSpec {x y : Spec} (h : x.Alike c config config' y) :
    (Proc.ofSpec x).Alike c config config' (.ofSpec y) where
  spec := h
  phase := rfl
  remaining := h.burst
  level := rfl
  used := c.time_zero.symm
  firstRun := rfl

theorem pid (h : p.Alike c config config' q) : q.pid = c.pid p.pid := h.spec.pid

theorem due? (h : p.Alike c config config' q) : q.due? = p.due?.map c.time := by
  unfold Proc.due?
  rw [h.phase]
  cases p.phase with
  | new => exact congrArg some h.spec.arrival
  | _ => rfl

theorem dueBy (h : p.Alike c config config' q) : q.dueBy (c.time now) = p.dueBy now := by
  rw [Proc.dueBy, Proc.dueBy, h.due?]
  cases p.due? <;> simp

theorem completion (h : p.Alike c config config' q) :
    q.completion = p.completion.map c.time := by
  unfold Proc.completion
  rw [h.phase]
  cases p.phase <;> rfl

theorem ready_iff (h : p.Alike c config config' q) : q.phase = .ready ↔ p.phase = .ready := by
  rw [h.phase]
  cases p.phase <;> simp [Translation.phase]

theorem admitted (h : p.Alike c config config' q) :
    p.admitted.Alike c config config' q.admitted := by
  have hphase := h.phase
  unfold Proc.admitted
  cases hp : p.phase <;> rw [hp] at hphase <;> simp only [hphase, Translation.phase]
  · exact ⟨h.spec, rfl, h.remaining, rfl, c.time_zero.symm, h.firstRun⟩
  all_goals exact ⟨h.spec, rfl, h.remaining, h.level, h.used, h.firstRun⟩

theorem mark_admission (h : p.Alike c config config' q) :
    (q.admission (c.time now)).mark = c.mark (p.admission now).mark := by
  have hphase := h.phase
  unfold Proc.admission
  cases hp : p.phase <;> rw [hp] at hphase <;> simp only [hphase, Translation.phase] <;>
    simp [Entry.mark, Entry.arrival, Entry.ioReturn, Translation.mark, h.pid]

theorem raise (h : p.Alike c config config' q) : p.raise.Alike c config config' q.raise :=
  ⟨h.spec, h.phase, h.remaining, rfl, c.time_zero.symm, h.firstRun⟩

theorem dispatched (h : p.Alike c config config' q) :
    (p.dispatched now).Alike c config config' (q.dispatched (c.time now)) := by
  refine ⟨h.spec, rfl, h.remaining, h.level, h.used, ?_⟩
  simp [Proc.dispatched, h.firstRun]

theorem ran (h : p.Alike c config config' q) :
    (p.ran d).Alike c config config' (q.ran (c.time d)) := by
  refine ⟨h.spec, h.phase, ?_, h.level, ?_, h.firstRun⟩
  · simp [h.remaining, c.time_sub]
  · simp [h.used, c.time_add]

theorem settled (h : p.Alike c config config' q) (hconfig : config.Alike c config') (o : Outcome) :
    (p.settled config now o).Alike c config config' (q.settled config' (c.time now) o) := by
  cases o with
  | completed => exact ⟨h.spec, rfl, h.remaining, h.level, h.used, h.firstRun⟩
  | ioYield =>
    refine ⟨h.spec, ?_, h.remaining, h.level, c.time_zero.symm, h.firstRun⟩
    simp [Proc.settled, Translation.phase, hconfig.ioDuration, c.time_add]
  | demoted =>
    refine ⟨h.spec, rfl, h.remaining, ?_, c.time_zero.symm, h.firstRun⟩
    simp [Proc.settled, h.level, hconfig.lowestLevel]
  | requeued => exact ⟨h.spec, rfl, h.remaining, h.level, h.used, h.firstRun⟩

theorem mark_settlement (h : p.Alike c config config' q) (o : Outcome) :
    (q.settlement config' (c.time now) o).mark = c.mark (p.settlement config now o).mark := by
  cases o <;> simp [Proc.settlement, Entry.mark, Entry.completion, Entry.ioYield, Entry.demotion,
    Entry.requeue, Translation.mark, h.pid]

end Alike

end Proc

-- ---------------------------------------------------------------------------
-- Schedulers
-- ---------------------------------------------------------------------------

namespace Scheduler

/-- All that the first scheduler holds reads so in the second one. Processes that the first
one does not know are in none of the queues of the second and have left no mark. -/
structure Alike (c : Translation n m) (s : Scheduler n) (t : Scheduler m) : Prop where
  config : s.config.Alike c t.config
  clock : t.clock = c.time s.clock
  last : t.booster.last = c.time s.booster.last
  count : t.booster.count = s.booster.count
  completed : t.completed = s.completed
  switches : t.switches = s.switches
  process : ∀ i, (s.process i).Alike c s.config t.config (t.process (c.slot i))
  queues : s.bank.Renamed c.slot t.bank
  timeline : t.timeline.toList = s.timeline.toList.map c.slice
  marks : t.log.toList.map Entry.mark = (s.log.toList.map Entry.mark).map c.mark

namespace Alike

variable {s : Scheduler n} {t : Scheduler m}

/-! ## What happens on its own -/

theorem due (h : s.Alike c t) : t.due (c.slot i) = s.due i := by
  rw [Scheduler.due, Scheduler.due, h.clock]
  exact (h.process i).dueBy

theorem dueSlots (h : s.Alike c t) (hknown : ∀ j, t.due j → j ∈ Set.range c.slot) :
    t.dueSlots = s.dueSlots.map c.slot := by
  -- Both lists follow the order of the workload, so they are equal if their members are.
  have hsorted (l : Nat) (u : Scheduler l) : u.dueSlots.Pairwise (· < ·) :=
    (List.sortedLT_finRange l).pairwise.filter _
  have himage : (s.dueSlots.map c.slot).Pairwise (· < ·) :=
    (hsorted n s).map c.slot fun _ _ hlt => c.slot.strictMono hlt
  refine (hsorted m t).eq_of_mem_iff himage fun j => ?_
  rw [mem_dueSlots, List.mem_map]
  constructor
  · intro hj
    obtain ⟨i, rfl⟩ := hknown j hj
    exact ⟨i, mem_dueSlots.mpr (h.due ▸ hj), rfl⟩
  · rintro ⟨i, hi, rfl⟩
    exact h.due ▸ mem_dueSlots.mp hi

theorem boost_due (h : s.Alike c t) (hs : s.Sound) (ht : t.Sound) :
    t.booster.due t.clock = s.booster.due s.clock := by
  rw [Booster.due, Booster.due, ht.interval, hs.interval, h.config.boostInterval, h.clock, h.last,
    ← c.time_sub]
  exact decide_eq_decide.mpr c.time_le_time

theorem mem_belowTop (h : s.Alike c t) (hs : s.Sound) (ht : t.Sound) :
    c.slot i ∈ t.bank.belowTop ↔ i ∈ s.bank.belowTop := by
  have hi := h.process i
  rw [ht.bank.mem_belowTop, hs.bank.mem_belowTop]
  exact and_congr hi.ready_iff (not_congr (Eq.congr_left hi.level))

theorem pids (h : s.Alike c t) (l : List (Fin n)) :
    t.bank.pids (l.map c.slot) = (s.bank.pids l).map c.pid := by
  rw [Bank.pids, Bank.pids, List.map_map, List.map_map]
  exact List.map_congr_left fun i _ => (h.process i).pid

/-! ## Stages -/

theorem marks_push (h : s.Alike c t) (hmark : e'.mark = c.mark e.mark) :
    (t.log.push e').toList.map Entry.mark =
      ((s.log.push e).toList.map Entry.mark).map c.mark := by
  simp [h.marks, hmark]

/-- A change to a process and its image. -/
theorem process_update {s' : Scheduler n} {t' : Scheduler m} (h : s.Alike c t)
    (hs : ∀ j, s'.process j = if j = i then p else s.process j)
    (ht : ∀ j, t'.process j = if j = c.slot i then q else t.process j)
    (hpq : p.Alike c s.config t.config q) (j : Fin n) :
    (s'.process j).Alike c s.config t.config (t'.process (c.slot j)) := by
  simp only [hs, ht, c.slot_inj]
  split
  · exact hpq
  · exact h.process j

theorem admitted (h : s.Alike c t) (hs : s.Sound) (i : Fin n) :
    (s.admitted i).Alike c (t.admitted (c.slot i)) where
  config := h.config
  clock := h.clock
  last := h.last
  count := h.count
  completed := h.completed
  switches := h.switches
  process := h.process_update (fun _ => process_admitted) (fun _ => process_admitted)
    (h.process i).admitted
  queues := h.queues.put (h.process i).admitted.level (hs.level_admitted_lt i)
  timeline := h.timeline
  marks := h.marks_push (h.clock ▸ (h.process i).mark_admission)

theorem foldl_admitted {l : List (Fin n)} (h : s.Alike c t) (hs : s.Sound) (hl : l.Nodup)
    (hdue : ∀ i ∈ l, s.due i) :
    (l.foldl Scheduler.admitted s).Alike c ((l.map c.slot).foldl Scheduler.admitted t) := by
  induction l generalizing s t with
  | nil => exact h
  | cons i rest ih =>
    obtain ⟨hi, hrest⟩ := List.nodup_cons.mp hl
    obtain ⟨time, htime, -⟩ := Proc.dueBy_iff.mp (hdue i List.mem_cons_self)
    refine ih (h.admitted hs i) (hs.admitted htime) hrest fun j hj => ?_
    rw [Sim.due_admitted_of_ne (by rintro rfl; exact hi hj)]
    exact hdue j (List.mem_cons_of_mem i hj)

theorem arrived (h : s.Alike c t) (hs : s.Sound) (hknown : ∀ j, t.due j → j ∈ Set.range c.slot) :
    s.arrived.Alike c t.arrived := by
  have hdue := h.dueSlots hknown
  rw [Scheduler.arrived, Scheduler.arrived, hdue]
  exact h.foldl_admitted hs nodup_dueSlots fun _ => mem_dueSlots.mp

theorem boosted (h : s.Alike c t) (hs : s.Sound) (ht : t.Sound) : s.boosted.Alike c t.boosted where
  config := h.config
  clock := h.clock
  last := h.clock
  count := congrArg (· + 1) h.count
  completed := h.completed
  switches := h.switches
  process i := by
    simp only [process_boosted, h.mem_belowTop hs ht]
    split
    · exact (h.process i).raise
    · exact h.process i
  queues := h.queues.raiseAll
  timeline := h.timeline
  marks := h.marks_push (by simp [Entry.mark, Entry.boost, Translation.mark, h.clock])

theorem prepared (h : s.Alike c t) (hs : s.Sound) (ht : t.Sound)
    (hknown : ∀ j, t.due j → j ∈ Set.range c.slot) : s.prepared.Alike c t.prepared := by
  have harrived := h.arrived hs hknown
  have hdue := h.boost_due hs ht
  cases hboost : s.booster.due s.clock with
  | true =>
    rw [prepared_of_due hboost, prepared_of_due (hdue.trans hboost)]
    exact harrived.boosted hs.arrived ht.arrived
  | false =>
    rw [prepared_of_not_due hboost, prepared_of_not_due (hdue.trans hboost)]
    exact harrived

theorem dispatched (h : s.Alike c t) (hs : s.bank.dequeue = some (i, rest))
    (ht : t.bank.dequeue = some (c.slot i, rest')) (hrest : rest.Renamed c.slot rest') :
    (s.dispatched i rest).Alike c (t.dispatched (c.slot i) rest') where
  config := h.config
  clock := h.clock
  last := h.last
  count := h.count
  completed := h.completed
  switches := congrArg (· + 1) h.switches
  process := h.process_update (fun _ => process_dispatched hs) (fun _ => process_dispatched ht)
    (h.clock ▸ (h.process i).dispatched)
  queues := hrest.setProcess
  timeline := h.timeline
  marks := h.marks_push (by
    simp [Entry.mark, Entry.dispatch, Translation.mark, h.clock, Proc.pid, Proc.dispatched,
      (h.process i).spec.pid])

theorem slice (h : s.Alike c t)
    (ho : (t.slice (c.slot i) (c.time d)).outcome = (s.slice i d).outcome) :
    t.slice (c.slot i) (c.time d) = c.slice (s.slice i d) := by
  have hi := h.process i
  have hquantum := h.config.quantum (s.process i).level
  rw [← hi.level] at hquantum
  rw [Translation.slice, ← ho]
  simp only [Scheduler.slice, Proc.level_ran, hi.level, h.clock, Slice.mk.injEq, true_and,
    and_true]
  exact ⟨hi.pid, hi.level ▸ hquantum⟩

theorem ran (h : s.Alike c t) (hs : s.Sound)
    (ho : (t.slice (c.slot i) (c.time d)).outcome = (s.slice i d).outcome) :
    (s.ran i d).Alike c (t.ran (c.slot i) (c.time d)) := by
  have hslice := h.slice ho
  have hclock : t.clock + c.time d = c.time (s.clock + d) := by rw [h.clock, c.time_add]
  have hafter : (s.processAfter i d).Alike c s.config t.config
      (t.processAfter (c.slot i) (c.time d)) := by
    rw [processAfter, processAfter, ho, hclock]
    exact (h.process i).ran.settled h.config _
  constructor
  case config => exact h.config
  case clock => exact hclock
  case last => exact h.last
  case count => exact h.count
  case completed => simp only [Scheduler.ran, ho, h.completed]
  case switches => exact h.switches
  case process =>
    exact h.process_update (fun _ => process_ran) (fun _ => process_ran) hafter
  case queues =>
    simp only [Scheduler.ran, hafter.ready_iff]
    split
    · exact h.queues.put hafter.level (hs.level_processAfter_lt i d)
    · exact h.queues.setProcess
  case timeline => simp [Scheduler.ran, h.timeline, hslice]
  case marks =>
    refine h.marks_push ?_
    rw [ho, show (t.slice (c.slot i) (c.time d)).stop = c.time (s.slice i d).stop from hclock]
    exact (h.process i).ran.mark_settlement _

theorem idled (h : s.Alike c t) : (s.idled target).Alike c (t.idled (c.time target)) := by
  have hclock : max (c.time target) t.clock = c.time (max target s.clock) := by
    rw [h.clock, c.time_max]
  exact ⟨h.config, hclock, h.last, h.count, h.completed, h.switches, h.process, h.queues,
    h.timeline, h.marks_push (by simp [Entry.mark, Entry.idle, Translation.mark, h.clock])⟩

theorem stalled (h : s.Alike c t) : s.stalled.Alike c t.stalled :=
  ⟨h.config, h.clock, h.last, h.count, h.completed, h.switches, h.process, h.queues, h.timeline,
    h.marks_push (by simp [Entry.mark, Entry.failure, Translation.mark, h.clock])⟩

/-! ## Slices of the standard policy -/

theorem share (h : s.Alike c t) (hs : s.Fresh) (ht : t.Fresh)
    (hi : (s.process i).completion = none) : t.share (c.slot i) = c.time (s.share i) := by
  have hprocess := h.process i
  have hi' : (t.process (c.slot i)).completion = none := by rw [hprocess.completion, hi]; rfl
  rw [share_eq_min hs hi, share_eq_min ht hi', c.time_min, hprocess.remaining, hprocess.level,
    hprocess.spec.turn]

theorem outcome_share (h : s.Alike c t) (hs : s.Fresh) (ht : t.Fresh)
    (hi : (s.process i).completion = none) :
    (t.slice (c.slot i) (t.share (c.slot i))).outcome = (s.slice i (s.share i)).outcome := by
  have hprocess := h.process i
  have hi' : (t.process (c.slot i)).completion = none := by rw [hprocess.completion, hi]; rfl
  rw [Scheduler.outcome_share hs hi, Scheduler.outcome_share ht hi', h.share hs ht hi]
  simp only [hprocess.remaining, c.time_inj, hprocess.spec.yields]

/-! ## Steps -/

theorem done_of_done (h : s.Alike c t) (hs : s.Sound) (ht : t.Sound) (hdone : t.done) :
    s.done := by
  rw [hs.done_iff]
  intro i
  have hi := Proc.isSome_completion.mpr (ht.done_iff.mp hdone (c.slot i))
  rw [(h.process i).completion, Option.isSome_map] at hi
  exact Proc.isSome_completion.mp hi

theorem not_done (h : s.Alike c t) (hs : s.Sound) (ht : t.Sound) (hdone : s.done = false) :
    t.done = false := by
  rw [← Bool.not_eq_true] at hdone ⊢
  exact mt (h.done_of_done hs ht) hdone

/-- What the second scheduler waits for alone comes no earlier than the next event. -/
theorem nextEvent (h : s.Alike c t) (hnext : s.nextEvent = some target)
    (hothers : ∀ j ∉ Set.range c.slot, ∀ time, (t.process j).due? = some time →
      c.time target ≤ time) : t.nextEvent = some (c.time target) := by
  obtain ⟨⟨i, hi⟩, hleast⟩ := nextEvent_eq_some.mp hnext
  refine nextEvent_eq_some.mpr ⟨⟨c.slot i, by rw [(h.process i).due?, hi]; rfl⟩, ?_⟩
  intro j time hj
  by_cases hknown : j ∈ Set.range c.slot
  · obtain ⟨i, rfl⟩ := hknown
    rw [(h.process i).due?, Option.map_eq_some_iff] at hj
    obtain ⟨time, htime, rfl⟩ := hj
    exact c.time_le_time.mpr (hleast i time htime)
  · exact hothers j hknown time hj

theorem done_iff (h : s.Alike c t) (hall : Function.Surjective c.slot) (hs : s.Sound)
    (ht : t.Sound) : t.done ↔ s.done := by
  refine ⟨h.done_of_done hs ht, fun hdone => ht.done_iff.mpr fun j => ?_⟩
  obtain ⟨i, rfl⟩ := hall j
  have hi := Proc.isSome_completion.mpr (hs.done_iff.mp hdone i)
  rw [← Proc.isSome_completion, (h.process i).completion, Option.isSome_map]
  exact hi

/-- A slice of one scheduler and its image. -/
theorem ran_share (h : s.prepared.Alike c t.prepared) (hs : s.AtRest .standard)
    (ht : t.AtRest .standard) (hdequeue : s.prepared.bank.dequeue = some (i, rest))
    (hdequeue' : t.prepared.bank.dequeue = some (c.slot i, rest'))
    (hrest : rest.Renamed c.slot rest') :
    ((s.prepared.dispatched i rest).ran i ((s.prepared.dispatched i rest).share i)).Alike c
      ((t.prepared.dispatched (c.slot i) rest').ran (c.slot i)
        ((t.prepared.dispatched (c.slot i) rest').share (c.slot i))) := by
  have hdispatched := h.dispatched hdequeue hdequeue' hrest
  have hfresh := hs.fresh_dispatched hdequeue rfl
  have hfresh' := ht.fresh_dispatched hdequeue' rfl
  have hlive := Proc.completion_of_running (running_dispatched hdequeue)
  have hshare := hdispatched.share hfresh hfresh' hlive
  have houtcome := hdispatched.outcome_share hfresh hfresh' hlive
  rw [hshare]
  exact hdispatched.ran (hs.sound.prepared.dispatched hdequeue) (hshare ▸ houtcome)

/-- Schedulers that know the same processes stay alike from round to round. -/
theorem of_round {s' : Scheduler n} {t' : Scheduler m} (h : s.Alike c t)
    (hall : Function.Surjective c.slot) (hs : s.AtRest .standard) (ht : t.AtRest .standard)
    (hround : Round .standard s s') (hround' : Round .standard t t') : s'.Alike c t' := by
  have hknown (j) : j ∈ Set.range c.slot := hall j
  have hprepared := h.prepared hs.sound ht.sound fun j _ => hknown j
  cases hdequeue : s.prepared.bank.dequeue with
  | none =>
    have hdequeue' := hprepared.queues.dequeue_eq_none hdequeue
    cases hround with
    | slice hsome _ _ _ => cases hsome.symm.trans hdequeue
    | idle _ hnext =>
      have hnext' := hprepared.nextEvent hnext fun j hj => absurd (hknown j) hj
      rw [hround'.eq_idled hdequeue' hnext']
      exact hprepared.idled
  | some head =>
    obtain ⟨i, rest⟩ := head
    obtain ⟨rest', hdequeue', hrest⟩ := hprepared.queues.dequeue_eq_some hdequeue
    rw [hround.eq_ran hs.sound hdequeue, hround'.eq_ran ht.sound hdequeue']
    exact ran_share hprepared hs ht hdequeue hdequeue' hrest

theorem of_step {s' : Scheduler n} {t' : Scheduler m} (h : s.Alike c t)
    (hall : Function.Surjective c.slot) (hs : s.AtRest .standard) (ht : t.AtRest .standard)
    (hstep : Step .standard s s') (hstep' : Step .standard t t') : s'.Alike c t' := by
  have hdone := h.done_iff hall hs.sound ht.sound
  cases hstep with
  | done hsdone =>
    cases hstep' with
    | done _ => exact h
    | round htdone _ => simp [hdone.mpr hsdone] at htdone
  | round hsdone hround =>
    cases hstep' with
    | done htdone => simp [hdone.mp htdone] at hsdone
    | round _ hround' => exact h.of_round hall hs ht hround hround'

/-! ## What can be recorded -/

/-- Where times and pids stay as they are, the same can be recorded. -/
theorem admissible_eq {slot : Fin n ↪o Fin m} (h : s.Alike (.ofSlots slot) t) :
    t.admissible (slot i) = s.admissible i := by
  have hi := h.process i
  have hburst : (t.process (slot i)).spec.burst = (s.process i).spec.burst := by
    simpa using hi.spec.burst
  have hphase : (t.process (slot i)).phase = (s.process i).phase := by
    simpa using hi.phase
  have hpid : (t.process (slot i)).pid = (s.process i).pid := hi.pid
  rw [admissible, admissible, Proc.isWritable_admission, Proc.isWritable_admission, hburst, hphase,
    hpid]

theorem isWritable_dispatchEntry_eq {slot : Fin n ↪o Fin m} (h : s.Alike (.ofSlots slot) t) :
    (t.dispatchEntry (slot i)).message.isWritable = (s.dispatchEntry i).message.isWritable := by
  have hi := h.process i
  have hpid : ((t.process (slot i)).dispatched t.clock).pid =
      ((s.process i).dispatched s.clock).pid := hi.pid
  have hremaining : ((t.process (slot i)).dispatched t.clock).remaining =
      ((s.process i).dispatched s.clock).remaining := by simpa [Proc.dispatched] using hi.remaining
  have hquantum : t.config.quantum ((t.process (slot i)).dispatched t.clock).level =
      s.config.quantum ((s.process i).dispatched s.clock).level := by
    have hlevel : ((t.process (slot i)).dispatched t.clock).level =
        ((s.process i).dispatched s.clock).level := hi.level
    rw [hlevel]
    simpa using h.config.quantum ((s.process i).dispatched s.clock).level
  rw [dispatchEntry, dispatchEntry, Entry.isWritable_dispatch, Entry.isWritable_dispatch, hpid,
    hremaining, hquantum]

theorem unrecorded {s' : Scheduler n} {t' : Scheduler m} (h : s.Alike c t)
    (hbefore : s'.Alike c t') : (s.unrecorded s').Alike c (t.unrecorded t') :=
  ⟨h.config, h.clock, h.last, h.count, h.completed, h.switches, h.process, h.queues,
    hbefore.timeline, hbefore.marks⟩

/-- An admission that stops at a process stops at its image, if the same can be recorded. -/
theorem admissionCut (h : s.Alike c t) (hall : Function.Surjective c.slot)
    (hadmissible : ∀ j, t.admissible (c.slot j) = s.admissible j) (hs : s.Sound)
    (hcut : s.AdmissionCut before i) :
    t.AdmissionCut (before.map c.slot) (c.slot i) ∧
      (s.admissionCut before i).Alike c (t.admissionCut (before.map c.slot) (c.slot i)) := by
  have hdue : ∀ j ∈ before, s.due j := fun j hj => hcut.mem_due (List.mem_append_left _ hj)
  constructor
  · obtain ⟨after, hafter⟩ := hcut.due
    refine ⟨⟨after.map c.slot, ?_⟩, ?_, (hadmissible i).trans hcut.refused⟩
    · rw [h.dueSlots fun j _ => hall j, hafter, List.map_append]
      rfl
    · simp only [List.mem_map, forall_exists_index, and_imp, forall_apply_eq_imp_iff₂]
      exact fun j hj => (hadmissible j).trans (hcut.admissible j hj)
  · have hbefore := h.foldl_admitted hs hcut.nodup.1 hdue
    have hsound := sound_of_moves (moves_foldl_admitted .standard hcut.nodup.1 hdue) hs
    exact (hbefore.admitted hsound i).unrecorded hbefore

/-- Where times and pids stay as they are, both steps end alike or both halt. -/
theorem run_step {slot : Fin n ↪o Fin m} (h : s.Alike (.ofSlots slot) t)
    (hall : Function.Surjective slot) (hs : s.AtRest .standard) (ht : t.AtRest .standard)
    (hdone : s.done = false) :
    (∃ s' t', EStateM.run (Sim.step .standard) s = .ok (!s'.done) s' ∧
        EStateM.run (Sim.step .standard) t = .ok (!t'.done) t' ∧
          Round .standard s s' ∧ Round .standard t t') ∨
      ∃ s' t', EStateM.run (Sim.step .standard) s = .error (.numeral .tooLong) s' ∧
        EStateM.run (Sim.step .standard) t = .error (.numeral .tooLong) t' ∧
          s'.Alike (.ofSlots slot) t' := by
  have hdone' := h.not_done hs.sound ht.sound hdone
  rcases Sim.admissible_or_cut s with hadmissible | ⟨before, i, hcut⟩
  · have hadmissible' (j : Fin m) (hj : t.due j) : t.admissible j := by
      obtain ⟨i, rfl⟩ := hall j
      rw [h.admissible_eq]
      exact hadmissible i (h.due ▸ hj)
    have hprepared := h.prepared hs.sound ht.sound fun j _ => hall j
    cases hdequeue : s.prepared.bank.dequeue with
    | none =>
      have hqueued := Bank.dequeue_eq_none.mp hdequeue
      have hdequeue' := hprepared.queues.dequeue_eq_none hdequeue
      obtain ⟨target, hnext⟩ := hs.exists_nextEvent hdone hqueued
      have hnext' := hprepared.nextEvent hnext fun j hj => absurd (hall j) hj
      rw [Translation.ofSlots_time, id] at hnext'
      rw [run_step_idle hs.sound hdone hadmissible hdequeue hnext,
        run_step_idle ht.sound hdone' hadmissible' hdequeue' hnext']
      split
      · exact .inl ⟨_, _, rfl, rfl, .idle hqueued hnext,
          .idle (Bank.dequeue_eq_none.mp hdequeue') hnext'⟩
      · exact .inr ⟨_, _, rfl, rfl, hprepared⟩
    | some head =>
      obtain ⟨i, rest⟩ := head
      obtain ⟨rest', hdequeue', hrest⟩ := hprepared.queues.dequeue_eq_some hdequeue
      obtain ⟨d, hd, hpos, hle, hrun⟩ :=
        run_step_slice hs.sound hs.fresh .standard hdone hadmissible hdequeue
      obtain ⟨d', hd', hpos', hle', hrun'⟩ :=
        run_step_slice ht.sound ht.fresh .standard hdone' hadmissible' hdequeue'
      rw [hrun, hrun', Translation.ofSlots_slot, hprepared.isWritable_dispatchEntry_eq]
      split
      · exact .inl ⟨_, _, rfl, rfl, .slice hdequeue hd hpos hle,
          .slice hdequeue' hd' hpos' hle'⟩
      · exact .inr ⟨_, _, rfl, rfl, (hprepared.dispatched hdequeue hdequeue' hrest).unrecorded
          hprepared⟩
  · obtain ⟨hcut', halike⟩ := h.admissionCut hall (fun _ => h.admissible_eq) hs.sound hcut
    exact .inr ⟨_, _, run_step_of_cut .standard hs.sound hdone hcut,
      run_step_of_cut .standard ht.sound hdone' hcut', halike⟩

theorem afterSteps {slot : Fin n ↪o Fin m} (h : s.Alike (.ofSlots slot) t)
    (hall : Function.Surjective slot) (hs : s.AtRest .standard) (ht : t.AtRest .standard)
    (k : Nat) :
    (s.afterSteps .standard k).Alike (.ofSlots slot) (t.afterSteps .standard k) := by
  induction k generalizing s t with
  | zero => exact h
  | succ k ih =>
    cases hdone : s.done with
    | true =>
      have hdone' := (h.done_iff hall hs.sound ht.sound).mpr hdone
      rw [afterSteps_of_done .standard hdone, afterSteps_of_done .standard hdone']
      exact h
    | false =>
      rcases h.run_step hall hs ht hdone with
        ⟨s', t', hrun, hrun', hround, hround'⟩ | ⟨s', t', hrun, hrun', halike⟩
      · rw [afterSteps_of_ok .standard hrun, afterSteps_of_ok .standard hrun']
        exact ih (h.of_round hall hs ht hround hround') (hs.of_round hround)
          (ht.of_round hround')
      · rw [afterSteps_of_error hrun, afterSteps_of_error hrun']
        exact halike

end Alike

end Scheduler

namespace Workload

variable {w w' : Workload} {c : Translation w.size w'.size}

theorem alike_start (hconfig : config.Alike c config')
    (hspec : ∀ i, (w.spec i).Alike c config config' (w'.spec (c.slot i))) :
    (w.start config).Alike c (w'.start config') where
  config := hconfig
  clock := c.time_zero.symm
  last := c.time_zero.symm
  count := rfl
  completed := rfl
  switches := rfl
  process i := by
    rw [process_start, process_start]
    exact .ofSpec (hspec i)
  queues := by
    refine ⟨?_, fun k => ?_⟩
    · rw [sound_start.length_levels, sound_start.length_levels]
      exact hconfig.numQueues
    · rw [queueAt_start, queueAt_start]
      rfl
  timeline := rfl
  marks := rfl

/-- Workloads of which each job has its image run alike, as long as neither of them stops. -/
theorem alike_afterSteps (hconfig : config.Alike c config') (hall : Function.Surjective c.slot)
    (hspec : ∀ i, (w.spec i).Alike c config config' (w'.spec (c.slot i)))
    (hk : ¬ (w.start config).Stopped .standard k)
    (hk' : ¬ (w'.start config').Stopped .standard k) :
    ((w.start config).afterSteps .standard k).Alike c
      ((w'.start config').afterSteps .standard k) := by
  induction k with
  | zero => exact alike_start hconfig hspec
  | succ k ih =>
    have hearlier := not_stopped_of_le hk (Nat.le_succ k)
    have hearlier' := not_stopped_of_le hk' (Nat.le_succ k)
    exact (ih hearlier hearlier').of_step hall (atRest_start.afterSteps .standard hearlier)
      (atRest_start.afterSteps .standard hearlier') (atRest_start.step_afterSteps .standard hk)
      (atRest_start.step_afterSteps .standard hk')

end Workload

end FeedbackQueue
