import FeedbackQueue.Proofs.Scheduler.Rounds
import Mathlib.Data.PNat.Defs

/-!
# Runs that can be recorded

The log quotes pids, burst times, what a process still owes, quanta and the times to
which the clock jumps. Where the pids, the burst times and the longest quantum can be
written, no admission, dispatch or slice is cut short, however a workload is driven.

The clock never passes the time at which all would be done if everything arrived last
and every unit of CPU time were followed by a wait for I/O. Where that time can be
written as well, no step halts.
-/

namespace FeedbackQueue

open Relation (ReflTransGen)

/-- Everything that the log may have to quote of the job and of the queues can be written. -/
structure Spec.Quotable (config : Config) (spec : Spec) : Prop where
  pid : Text.isWritable spec.pid
  burst : Text.isWritable spec.burst
  quantum : Text.isWritable (config.quantum config.lowestLevel)

namespace Scheduler

variable {s t : Scheduler n} {policy : SlicePolicy n}

-- ---------------------------------------------------------------------------
-- What can be quoted
-- ---------------------------------------------------------------------------

/-- Everything that the log may have to quote of the processes and the queues can be written. -/
def Legible (s : Scheduler n) : Prop := ∀ i, (s.process i).spec.Quotable s.config

theorem admissible_of_isWritable (hpid : Text.isWritable (s.process i).pid)
    (hburst : Text.isWritable (s.process i).spec.burst) : s.admissible i := by
  simp [admissible, hpid, hburst]

theorem admissible_of_quotable (h : (s.process i).spec.Quotable s.config) : s.admissible i :=
  admissible_of_isWritable h.pid h.burst

/-- A process owes no more than its burst time, and no quantum is longer than the lowest one. -/
theorem isWritable_dispatchEntry (hs : s.Sound) (h : (s.process i).spec.Quotable s.config) :
    (s.dispatchEntry i).message.isWritable := by
  have hnonneg := (hs.process i).remaining_nonneg
  have hle := (hs.process i).remaining_le
  have hremaining : Text.isWritable (s.process i).remaining :=
    Text.isWritable_of_le h.burst (by omega)
  have hpos : 0 < s.config.quantum (s.process i).level := Config.quantum_pos _
  have hlowest := s.config.quantum_mono (hs.level_le i)
  have hquantum : Text.isWritable (s.config.quantum (s.process i).level) :=
    Text.isWritable_of_le h.quantum (by omega)
  simpa [dispatchEntry] using ⟨h.pid, hremaining, hquantum⟩

/-- What is cut short is a move of a process that the log cannot quote, and of no other. -/
theorem unquotable_of_cut (hs : s.Sound) (h : Cut policy s t) :
    ∃ i, ¬ (s.process i).spec.Quotable s.config ∧ ∀ j, j ≠ i → t.process j = s.process j := by
  cases h with
  | @enter _ _ i _ _ hrefused =>
    refine ⟨i, fun hi => ?_, fun j hj => ?_⟩
    · have hadmissible := admissible_of_quotable hi
      rw [admissible, hrefused] at hadmissible
      cases hadmissible
    · rw [process_unrecorded, process_admitted, if_neg hj]
  | @dispatch i _ _ hdequeue hrefused =>
    refine ⟨i, fun hi => ?_, fun j hj => ?_⟩
    · have hwritable := isWritable_dispatchEntry hs hi
      rw [hrefused] at hwritable
      cases hwritable
    · rw [process_unrecorded, process_dispatched hdequeue, if_neg hj]
  | @execute _ i _ _ _ _ _ hrefused =>
    refine ⟨i, fun hi => ?_, fun j hj => ?_⟩
    · cases hrefused.symm.trans hi.pid
    · rw [process_unrecorded, process_ran, if_neg hj]

/-- Nothing happens to a process that the log can quote when a move is cut short. -/
theorem process_of_cut (hs : s.Sound) (h : Cut policy s t)
    (hi : (s.process i).spec.Quotable s.config) : t.process i = s.process i := by
  obtain ⟨j, hj, hothers⟩ := unquotable_of_cut hs h
  exact hothers i fun heq => hj (heq ▸ hi)

namespace Legible

theorem of_advances (h : s.Legible) (hadvances : ReflTransGen (Advance policy) s t) :
    t.Legible := by
  intro i
  rw [spec_of_advances hadvances, config_of_advances hadvances]
  exact h i

/-- Every move can be recorded. -/
theorem not_cut (h : s.Legible) (hs : s.Sound) : ¬ Cut policy s t := by
  intro hcut
  obtain ⟨i, hi, -⟩ := unquotable_of_cut hs hcut
  exact hi (h i)

end Legible

-- ---------------------------------------------------------------------------
-- How late it can get
-- ---------------------------------------------------------------------------

/-- The CPU time that all processes together have got. -/
def cpuTime (s : Scheduler n) : Int := ∑ i, (s.process i).cpuTime

theorem cpuTime_congr
    (h : ∀ i, (t.process i).spec = (s.process i).spec ∧
      (t.process i).remaining = (s.process i).remaining) : t.cpuTime = s.cpuTime := by
  refine Finset.sum_congr rfl fun i _ => ?_
  rw [Proc.cpuTime, Proc.cpuTime, (h i).1, (h i).2]

theorem cpuTime_ran : (s.ran i d).cpuTime = s.cpuTime + d := by
  have hprocess (j : Fin n) :
      ((s.ran i d).process j).cpuTime = (s.process j).cpuTime + if j = i then d else 0 := by
    rw [process_ran]
    by_cases hj : j = i
    · subst hj
      simp [Proc.cpuTime, processAfter]
      omega
    · simp [hj]
  simp only [cpuTime, hprocess, Finset.sum_add_distrib, Finset.sum_ite_eq', Finset.mem_univ,
    if_true]

/-- What is delivered in a time and a wait for I/O after each unit of it. -/
def spent (s : Scheduler n) : Int := s.cpuTime * (1 + s.config.ioDuration)

/-- Neither the clock nor what is pending is later than the last arrival and what has been
spent. -/
structure Timely (latest : Int) (s : Scheduler n) : Prop where
  begun : 0 ≤ s.clock
  clock : s.clock ≤ latest + s.spent
  due : ∀ i time, (s.process i).due? = some time → time ≤ latest + s.spent

variable {latest : Int}

theorem Timely.of_process (h : s.Timely latest) (hclock : t.clock = s.clock)
    (hconfig : t.config = s.config)
    (hprocess : ∀ i, (t.process i).spec = (s.process i).spec ∧
      (t.process i).remaining = (s.process i).remaining ∧
        ((t.process i).due? = none ∨ (t.process i).due? = (s.process i).due?)) :
    t.Timely latest := by
  have hspent : t.spent = s.spent := by
    rw [spent, spent, hconfig, cpuTime_congr fun i => ⟨(hprocess i).1, (hprocess i).2.1⟩]
  refine ⟨hclock ▸ h.begun, by rw [hclock, hspent]; exact h.clock, fun i time htime => ?_⟩
  rw [hspent]
  rcases (hprocess i).2.2 with hnone | hsame
  · rw [hnone] at htime
    cases htime
  · exact h.due i time (hsame ▸ htime)

/-- A slice is of one unit at least, so what it adds to the time that has been spent is enough for
it and for a wait after it. -/
theorem spent_ran (hd : 0 < d) : s.spent + d + s.config.ioDuration ≤ (s.ran i d).spent := by
  have hio := s.config.ioDuration_nonneg
  have hunit : s.config.ioDuration ≤ d * s.config.ioDuration :=
    le_mul_of_one_le_left hio (by omega)
  calc s.spent + d + s.config.ioDuration ≤ s.spent + d + d * s.config.ioDuration := by omega
    _ = (s.cpuTime + d) * (1 + s.config.ioDuration) := by rw [spent]; ring
    _ = (s.ran i d).spent := by rw [spent, cpuTime_ran]; rfl

theorem Timely.ran (h : s.Timely latest) (hd : 0 < d) : (s.ran i d).Timely latest := by
  have hio := s.config.ioDuration_nonneg
  have hspent := spent_ran (s := s) (i := i) hd
  have hbegun := h.begun
  have hclock := h.clock
  have hstop : (s.ran i d).clock = s.clock + d := rfl
  refine ⟨by omega, by omega, fun j time htime => ?_⟩
  rw [process_ran] at htime
  split at htime
  · rw [processAfter, Proc.due?_settled] at htime
    split at htime
    · cases htime
      omega
    · cases htime
  · have hdue := h.due j time htime
    omega

theorem Timely.of_move (h : s.Timely latest) (hs : s.Sound)
    (hfresh : policy = .standard → s.Fresh) (hpolicy : policy.Steady) (hmove : Move policy s t) :
    t.Timely latest := by
  cases hmove with
  | @enter _ _ i _ _ =>
    refine h.of_process rfl rfl fun j => ?_
    rw [process_admitted]
    by_cases hj : j = i
    · subst hj
      simp [Proc.due?]
    · simp [hj]
  | boost _ =>
    refine h.of_process rfl rfl fun j => ?_
    rw [process_boosted]
    split
    · exact ⟨rfl, rfl, .inr rfl⟩
    · exact ⟨rfl, rfl, .inr rfl⟩
  | @dispatch i _ _ hdequeue =>
    refine h.of_process rfl rfl fun j => ?_
    rw [process_dispatched hdequeue]
    by_cases hj : j = i
    · subst hj
      simp [Proc.due?, Proc.dispatched]
    · simp [hj]
  | execute hrunning hd _ _ =>
    obtain ⟨d, hslice, hpos, -⟩ := hpolicy.slice hs hfresh (Proc.completion_of_running hrunning)
    cases hd.symm.trans hslice
    exact h.ran hpos
  | idle hnext =>
    obtain ⟨⟨i, hi⟩, -⟩ := nextEvent_eq_some.mp hnext
    exact ⟨h.begun.trans (le_max_right _ _), max_le (h.due i _ hi) h.clock, h.due⟩
  | stall _ => exact ⟨h.begun, h.clock, h.due⟩

theorem Timely.unrecorded {s t : Scheduler n} (h : t.Timely latest) :
    (t.unrecorded s).Timely latest :=
  ⟨h.begun, h.clock, h.due⟩

theorem Timely.of_advances (h : s.Timely latest) (hs : s.Sound)
    (hfresh : policy = .standard → s.Fresh) (hpolicy : policy.Steady)
    (hadvances : ReflTransGen (Advance policy) s t) : t.Timely latest := by
  induction hadvances with
  | refl => exact h
  | @tail u _ hbefore hadvance ih =>
    have hsound := sound_of_advances hbefore hs
    have hfresh' : policy = .standard → u.Fresh := by
      rintro rfl
      exact fresh_of_advances hbefore hs (hfresh rfl)
    cases hadvance with
    | move hmove => exact ih.of_move hsound hfresh' hpolicy hmove
    | cut hcut =>
      obtain ⟨u, hmove, rfl⟩ := hcut.exists_move
      exact (ih.of_move hsound hfresh' hpolicy hmove).unrecorded

/-- No more can be spent than all burst times and waits. -/
theorem Sound.spent_le (hs : s.Sound) :
    s.spent ≤ (∑ i, (s.process i).spec.burst) * (1 + s.config.ioDuration) := by
  have hio := s.config.ioDuration_nonneg
  refine Int.mul_le_mul_of_nonneg_right (Finset.sum_le_sum fun i _ => ?_) (by omega)
  exact Int.sub_le_self _ (hs.process i).remaining_nonneg

/-- A time that is not too long to be written and that the clock will not pass. -/
def Bounded (s : Scheduler n) : Prop :=
  ∃ latest, s.Timely latest ∧
    Text.isWritable (latest + (∑ i, (s.process i).spec.burst) * (1 + s.config.ioDuration))

theorem Bounded.of_advances (h : s.Bounded) (hs : s.Sound)
    (hfresh : policy = .standard → s.Fresh) (hpolicy : policy.Steady)
    (hadvances : ReflTransGen (Advance policy) s t) : t.Bounded := by
  obtain ⟨latest, htimely, hwritable⟩ := h
  refine ⟨latest, htimely.of_advances hs hfresh hpolicy hadvances, ?_⟩
  have hburst (i : Fin n) : (t.process i).spec.burst = (s.process i).spec.burst :=
    congrArg Spec.burst (spec_of_advances hadvances i)
  simpa only [hburst, config_of_advances hadvances] using hwritable

/-- The clock jumps only to times that can be written. -/
theorem Bounded.isWritable_nextEvent (h : s.Bounded) (hs : s.Sound)
    (hnext : s.nextEvent = some target) : Text.isWritable (max target s.clock) := by
  obtain ⟨latest, htimely, hwritable⟩ := h
  obtain ⟨⟨i, hi⟩, -⟩ := nextEvent_eq_some.mp hnext
  have hspent := hs.spent_le
  have hdue := htimely.due i target hi
  have hbegun := htimely.begun
  have hnow := htimely.clock
  exact Text.isWritable_of_le hwritable (by omega)

theorem Legible.not_halt (h : s.Legible) (hbounded : s.Bounded) (hs : s.Sound)
    (hfresh : policy = .standard → s.Fresh) (hpolicy : policy.Steady) : ¬ s.Halt t := by
  have hprepared := advances_of_moves (moves_prepared policy (s := s))
  intro hhalt
  cases hhalt with
  | @admission _ i hcut =>
    have hadmissible := admissible_of_quotable (h i)
    rw [hcut.refused] at hadmissible
    cases hadmissible
  | @dispatch i _ _ hrefused =>
    have hwritable := isWritable_dispatchEntry hs.prepared (h.of_advances hprepared i)
    rw [hrefused] at hwritable
    cases hwritable
  | idle _ hnext hrefused =>
    have hlater := clock_idled_prepared hnext
    have hwritable :=
      (hbounded.of_advances hs hfresh hpolicy hprepared).isWritable_nextEvent hs.prepared hnext
    rw [show max _ s.prepared.clock = _ from hlater, hrefused] at hwritable
    cases hwritable

end Scheduler

-- ---------------------------------------------------------------------------
-- Workloads that can be recorded
-- ---------------------------------------------------------------------------

namespace Workload

variable {w : Workload} {config : Config} {policy : SlicePolicy w.size}

/-- Everything that the log may have to quote of the jobs and the queues can be written. -/
structure Legible (w : Workload) (config : Config) : Prop where
  pid : ∀ i, Text.isWritable (w.spec i).pid
  burst : ∀ i, Text.isWritable (w.spec i).burst
  quantum : Text.isWritable (config.quantum config.lowestLevel)

def lastArrival (w : Workload) : Int := (w.specs.map Spec.arrival).foldr max 0

/-- A time that no run of the workload passes. -/
def horizon (w : Workload) (config : Config) : Int :=
  w.lastArrival + (w.specs.map Spec.burst).sum * (1 + config.ioDuration)

/-- Everything that a run may have to record can be written. -/
structure Recordable (w : Workload) (config : Config) : Prop extends w.Legible config where
  horizon : Text.isWritable (w.horizon config)

theorem arrival_le_lastArrival (i : Fin w.size) : (w.spec i).arrival ≤ w.lastArrival := by
  have hle (l : List Int) (x : Int) (hx : x ∈ l) : x ≤ l.foldr max 0 := by
    induction l with
    | nil => simp at hx
    | cons y rest ih =>
      rcases List.mem_cons.mp hx with rfl | hx
      · exact le_max_left _ _
      · exact (ih hx).trans (le_max_right _ _)
  exact hle _ _ (List.mem_map_of_mem (mem_specs.mpr ⟨i, rfl⟩))

theorem lastArrival_nonneg (w : Workload) : 0 ≤ w.lastArrival := by
  obtain ⟨x, hx⟩ := List.exists_mem_of_ne_nil _ w.nonempty
  obtain ⟨i, rfl⟩ := mem_specs.mp hx
  exact (w.spec i).arrival_nonneg.trans (arrival_le_lastArrival i)

theorem Legible.quotable (h : w.Legible config) (i : Fin w.size) : (w.spec i).Quotable config :=
  ⟨h.pid i, h.burst i, h.quantum⟩

theorem legible_start (h : w.Legible config) : (w.start config).Legible := by
  intro i
  rw [process_start]
  exact h.quotable i

theorem sum_burst_start :
    ∑ i, ((w.start config).process i).spec.burst = (w.specs.map Spec.burst).sum := by
  simp only [process_start]
  exact Fin.sum_univ_fun_getElem w.specs Spec.burst

theorem spent_start : (w.start config).spent = 0 := by
  have hnone : (w.start config).cpuTime = 0 := by
    refine Finset.sum_eq_zero fun i _ => ?_
    rw [process_start]
    exact sub_self _
  rw [Scheduler.spent, hnone, Int.zero_mul]

theorem timely_start : (w.start config).Timely w.lastArrival := by
  have hdue (i : Fin w.size) (time : Int)
      (htime : ((w.start config).process i).due? = some time) : time ≤ w.lastArrival := by
    rw [process_start] at htime
    cases htime
    exact arrival_le_lastArrival i
  have hlast := w.lastArrival_nonneg
  refine ⟨Int.le_refl 0, ?_, ?_⟩
  · rw [spent_start, Int.add_zero]
    exact hlast
  · rw [spent_start, Int.add_zero]
    exact hdue

theorem bounded_start (h : Text.isWritable (w.horizon config)) : (w.start config).Bounded := by
  refine ⟨w.lastArrival, timely_start, ?_⟩
  rw [sum_burst_start]
  exact h

theorem legible_drive (h : w.Legible config) (calls : List (Scheduler.Call w.size)) :
    ((w.start config).drive policy calls).Legible :=
  (legible_start h).of_advances (Scheduler.advances_drive policy sound_start calls)

theorem fresh_drive (calls : List (Scheduler.Call w.size)) :
    ((w.start config).drive .standard calls).Fresh :=
  Scheduler.fresh_of_advances (Scheduler.advances_drive .standard sound_start calls) sound_start
    (atRest_start.fresh rfl)

theorem bounded_drive (hpolicy : policy.Steady) (h : Text.isWritable (w.horizon config))
    (calls : List (Scheduler.Call w.size)) : ((w.start config).drive policy calls).Bounded :=
  (bounded_start h).of_advances sound_start atRest_start.fresh hpolicy
    (Scheduler.advances_drive policy sound_start calls)

/-- What holds at the start of a workload that the log can quote and is kept by every move of a
sound scheduler holds however the workload is driven. -/
theorem drive_induction_of_legible (h : w.Legible config) {P : Scheduler w.size → Prop}
    (start : P (w.start config)) (move : ∀ s t, s.Sound → P s → Move policy s t → P t)
    (calls : List (Scheduler.Call w.size)) : P ((w.start config).drive policy calls) := by
  refine (drive_induction (P := fun s => s.Legible ∧ P s) ⟨legible_start h, start⟩ ?_ ?_ calls).2
  · rintro s t hs ⟨hlegible, hP⟩ hmove
    exact ⟨hlegible.of_advances (.single (.move hmove)), move s t hs hP hmove⟩
  · rintro s t hs ⟨hlegible, -⟩ hcut
    exact absurd hcut (hlegible.not_cut hs)

/-- What is kept by every move, and by those that are cut short as long as the log can quote a
process, holds however a workload with such a job is driven. -/
theorem drive_induction_of_quotable (hi : (w.spec i).Quotable config) {P : Scheduler w.size → Prop}
    (start : P (w.start config)) (move : ∀ s t, s.Sound → P s → Move policy s t → P t)
    (cut : ∀ s t, s.Sound → P s → (s.process i).spec.Quotable s.config → Cut policy s t → P t)
    (calls : List (Scheduler.Call w.size)) : P ((w.start config).drive policy calls) := by
  refine (drive_induction (P := fun s => (s.process i).spec.Quotable s.config ∧ P s)
    ⟨?_, start⟩ ?_ ?_ calls).2
  · rw [process_start]
    exact hi
  · rintro s t hs ⟨hquotable, hP⟩ hmove
    refine ⟨?_, move s t hs hP hmove⟩
    rw [hmove.config_eq, hmove.spec_eq]
    exact hquotable
  · rintro s t hs ⟨hquotable, hP⟩ hcut
    refine ⟨?_, cut s t hs hP hquotable hcut⟩
    obtain ⟨u, hmove, rfl⟩ := hcut.exists_move
    rw [Scheduler.process_unrecorded, hmove.spec_eq]
    exact hmove.config_eq ▸ hquotable

/-- Steps of a workload that can be recorded never stop. -/
theorem not_stopped (h : w.Recordable config) (hpolicy : policy.Steady) (k : Nat) :
    ¬ (w.start config).Stopped policy k := by
  intro hk
  obtain ⟨j, -, hj, -, hhalt⟩ := atRest_start.exists_halt hpolicy hk
  have hstart : (w.start config).AtRest policy := atRest_start
  have hs := hstart.afterSteps hpolicy hj
  obtain ⟨calls, hcalls⟩ := (w.start config).exists_drive policy j
  rw [hcalls] at hs hhalt
  exact (legible_drive h.toLegible calls).not_halt (bounded_drive hpolicy h.horizon calls) hs.sound
    hs.fresh hpolicy hhalt

/-- The numbers of the workload are small. -/
theorem recordable_reference : reference.Recordable .standard := by
  refine ⟨⟨?_, ?_, ?_⟩, ?_⟩ <;> decide +kernel

/-- A job without a name, given by numbers that are in range as they stand. -/
def job (pid arrival : Nat) (burst : ℕ+) (ioBound : Bool) : Spec where
  pid := pid
  arrival := arrival
  burst := burst.1
  ioBound := ioBound
  name := none
  pid_nonneg := Int.natCast_nonneg pid
  arrival_nonneg := Int.natCast_nonneg arrival
  burst_pos := Int.natCast_pos.mpr burst.2

/-- An I/O-bound job that arrives at the last time that can be written. All that the log has to
quote of it can be written, but not the time at which it returns from I/O. -/
def lateJob : Workload where
  specs := [job 1 (Text.digitBound - 1) (Nat.toPNat' 5) true]
  nonempty := List.cons_ne_nil _ _
  distinct := List.nodup_singleton _

/-- A job whose arrival no message can tell, and one that arrives with it. -/
def longBurst : Workload where
  specs := [job 1 0 ⟨Text.digitBound, Text.digitBound_pos⟩ false, job 2 0 (Nat.toPNat' 5) false]
  nonempty := List.cons_ne_nil _ _
  distinct := by decide

/-- A job that no message can name. -/
def longPid : Workload where
  specs := [job Text.digitBound 0 (Nat.toPNat' 5) false]
  nonempty := List.cons_ne_nil _ _
  distinct := List.nodup_singleton _

end Workload

end FeedbackQueue
