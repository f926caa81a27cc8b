import FeedbackQueue.Proofs.Scheduler.Slicing

/-!
# Rounds

A step of a scheduler that is not done is one round. After the admissions and the
boost that are due, either the head of the queues runs for one slice, or nothing
waits and the clock jumps to the next event. Between rounds nobody holds the CPU.

A step that cannot be recorded halts before that: at an admission, at a dispatch or
at a jump of the clock. No time has passed by then and no slice was run.
-/

namespace FeedbackQueue

open Relation (ReflTransGen)

namespace Scheduler

variable {s t : Scheduler n} {policy : SlicePolicy n}

-- ---------------------------------------------------------------------------
-- Admissions and boosts before a dispatch
-- ---------------------------------------------------------------------------

/-- Admissions touch the bank and the log only. -/
theorem foldl_admitted_eq (l : List (Fin n)) (s : Scheduler n) :
    l.foldl admitted s =
      { s with bank := (l.foldl admitted s).bank, log := (l.foldl admitted s).log } := by
  induction l generalizing s with
  | nil => rfl
  | cons i rest ih => exact ih (s.admitted i)

/-- Some of the processes that are due are admitted, and nothing else happens. -/
structure Admits (s : Scheduler n) (l : List (Fin n)) (t : Scheduler n) : Prop where
  due : ∀ i ∈ l, s.due i
  process : ∀ i, t.process i = if i ∈ l then (s.process i).admitted else s.process i
  log : ∃ new, t.log.toList = s.log.toList ++ new ∧
    ∀ e ∈ new, e.kind = .arrival ∨ e.kind = .ioReturn
  rest : t = { s with bank := t.bank, log := t.log }

theorem log_foldl_admitted (l : List (Fin n)) (s : Scheduler n) :
    ∃ new, (l.foldl admitted s).log.toList = s.log.toList ++ new ∧
      ∀ e ∈ new, e.kind = .arrival ∨ e.kind = .ioReturn := by
  induction l generalizing s with
  | nil => exact ⟨[], (List.append_nil _).symm, nofun⟩
  | cons i rest ih =>
    obtain ⟨new, hnew, hkind⟩ := ih (s.admitted i)
    refine ⟨(s.process i).admission s.clock :: new, ?_, List.forall_mem_cons.mpr ⟨?_, hkind⟩⟩
    · rw [List.foldl_cons, hnew, admitted, Array.toList_push, List.append_assoc]
      rfl
    · unfold Proc.admission
      split
      · exact .inl rfl
      · exact .inr rfl

theorem admits_foldl (hl : l.Nodup) (hdue : ∀ i ∈ l, s.due i) : s.Admits l (l.foldl admitted s) :=
  ⟨hdue, fun _ => process_foldl_admitted hl, log_foldl_admitted l s, foldl_admitted_eq l s⟩

theorem admits_arrived : s.Admits s.dueSlots s.arrived :=
  admits_foldl nodup_dueSlots fun _ => mem_dueSlots.mp

/-- The last one is admitted as well, but that is not recorded. -/
theorem AdmissionCut.admits (h : s.AdmissionCut before i) :
    s.Admits (before ++ [i]) (s.admissionCut before i) := by
  have hbefore := admits_foldl h.nodup.1 fun j hj => h.mem_due (List.mem_append_left _ hj)
  refine ⟨fun j => h.mem_due, fun j => ?_, hbefore.log, ?_⟩
  · rw [admissionCut, process_unrecorded, process_admitted, hbefore.process, hbefore.process,
      if_neg h.nodup.2]
    by_cases hj : j = i
    · subst hj
      simp
    · simp [hj]
  · rw [admissionCut, hbefore.rest]
    rfl

theorem arrived_eq (s : Scheduler n) :
    s.arrived = { s with bank := s.arrived.bank, log := s.arrived.log } :=
  foldl_admitted_eq s.dueSlots s

@[simp] theorem clock_arrived : s.arrived.clock = s.clock := by rw [arrived_eq]

@[simp] theorem booster_arrived : s.arrived.booster = s.booster := by rw [arrived_eq]

@[simp] theorem config_arrived : s.arrived.config = s.config := by rw [arrived_eq]

@[simp] theorem completed_arrived : s.arrived.completed = s.completed := by rw [arrived_eq]

@[simp] theorem timeline_arrived : s.arrived.timeline = s.timeline := by rw [arrived_eq]

theorem prepared_of_due (h : s.booster.due s.clock) : s.prepared = s.arrived.boosted := by
  simp [prepared, h]

theorem prepared_of_not_due (h : s.booster.due s.clock = false) : s.prepared = s.arrived := by
  simp [prepared, h]

@[simp] theorem clock_prepared : s.prepared.clock = s.clock := by
  unfold prepared
  split <;> exact clock_arrived

@[simp] theorem config_prepared : s.prepared.config = s.config := by
  unfold prepared
  split <;> exact config_arrived

@[simp] theorem done_prepared : s.prepared.done = s.done := by
  unfold prepared
  split <;> exact congrArg (· == n) completed_arrived

@[simp] theorem timeline_prepared : s.prepared.timeline = s.timeline := by
  unfold prepared
  split <;> exact timeline_arrived

/-- What a boost leaves alone in a process depends on the admissions only. -/
theorem apply_prepared (f : Proc → α) (hraise : ∀ p : Proc, f p.raise = f p) :
    f (s.prepared.process i) = if s.due i then f (s.process i).admitted else f (s.process i) := by
  have harrived : f (s.arrived.process i) =
      if s.due i then f (s.process i).admitted else f (s.process i) := by
    rw [process_arrived]
    split <;> rfl
  unfold prepared
  split
  · rw [process_boosted, ← harrived]
    split
    · exact hraise _
    · rfl
  · exact harrived

@[simp] theorem spec_prepared : (s.prepared.process i).spec = (s.process i).spec := by
  rw [apply_prepared Proc.spec fun _ => rfl]
  simp

@[simp] theorem remaining_prepared :
    (s.prepared.process i).remaining = (s.process i).remaining := by
  rw [apply_prepared Proc.remaining fun _ => rfl]
  simp

@[simp] theorem firstRun_prepared : (s.prepared.process i).firstRun = (s.process i).firstRun := by
  rw [apply_prepared Proc.firstRun fun _ => rfl]
  simp

theorem phase_prepared :
    (s.prepared.process i).phase = if s.due i then .ready else (s.process i).phase := by
  rw [apply_prepared Proc.phase fun _ => rfl]
  simp

/-- What is pending after the admissions was pending before them. -/
theorem due?_prepared :
    (s.prepared.process i).due? = if s.due i then none else (s.process i).due? := by
  rw [apply_prepared Proc.due? fun _ => rfl]
  simp [Proc.due?]

theorem completion_prepared :
    (s.prepared.process i).completion = (s.process i).completion := by
  rw [apply_prepared Proc.completion fun _ => rfl]
  split
  · obtain ⟨time, htime, -⟩ := Proc.dueBy_iff.mp ‹_›
    rw [Proc.completion_of_due htime, Proc.completion_of_ready Proc.phase_admitted]
  · rfl

-- ---------------------------------------------------------------------------
-- The next event
-- ---------------------------------------------------------------------------

theorem mem_pending :
    time ∈ s.bank.processes.toList.filterMap Proc.due? ↔ ∃ i, (s.process i).due? = some time := by
  rw [List.mem_filterMap]
  constructor
  · rintro ⟨p, hp, hdue⟩
    obtain ⟨i, hi, rfl⟩ := Vector.getElem_of_mem (Vector.mem_toList_iff.mp hp)
    exact ⟨⟨i, hi⟩, hdue⟩
  · rintro ⟨i, hdue⟩
    exact ⟨s.process i, Vector.mem_toList_iff.mpr (Vector.getElem_mem i.isLt), hdue⟩

theorem nextEvent_eq_none : s.nextEvent = none ↔ ∀ i, (s.process i).due? = none := by
  rw [nextEvent, List.min?_eq_none_iff, List.eq_nil_iff_forall_not_mem]
  simp only [mem_pending, not_exists]
  constructor
  · intro h i
    exact Option.eq_none_iff_forall_ne_some.mpr fun time => h time i
  · intro h time i
    simp [h i]

theorem nextEvent_eq_some : s.nextEvent = some target ↔
    (∃ i, (s.process i).due? = some target) ∧
      ∀ i time, (s.process i).due? = some time → target ≤ time := by
  rw [nextEvent, List.min?_eq_some_iff, mem_pending]
  simp only [mem_pending]
  constructor
  · rintro ⟨hmem, hle⟩
    exact ⟨hmem, fun i time h => hle time ⟨i, h⟩⟩
  · rintro ⟨hmem, hle⟩
    exact ⟨hmem, fun time ⟨i, h⟩ => hle i time h⟩

/-- What was due has been admitted, so the next event is still to come. -/
theorem clock_lt_nextEvent (hnext : s.prepared.nextEvent = some target) : s.clock < target := by
  obtain ⟨⟨i, hi⟩, -⟩ := nextEvent_eq_some.mp hnext
  rw [due?_prepared] at hi
  split at hi
  · simp at hi
  · exact Int.not_le.mp fun hle => ‹¬ _› (Proc.dueBy_iff.mpr ⟨target, hi, hle⟩)

theorem clock_idled_prepared (hnext : s.prepared.nextEvent = some target) :
    (s.prepared.idled target).clock = target := by
  have hlater : s.prepared.clock ≤ target := by
    rw [clock_prepared]
    exact Int.le_of_lt (clock_lt_nextEvent hnext)
  exact Int.max_eq_left hlater

-- ---------------------------------------------------------------------------
-- One round
-- ---------------------------------------------------------------------------

/-- What holds of a scheduler between two steps. -/
structure AtRest (policy : SlicePolicy n) (s : Scheduler n) : Prop where
  sound : s.Sound
  free : ∀ i, (s.process i).phase ≠ .running
  fresh : policy = .standard → s.Fresh

/-- One step of a scheduler that is not done. -/
inductive Round (policy : SlicePolicy n) (s : Scheduler n) : Scheduler n → Prop
  | idle : s.prepared.bank.queued = [] → s.prepared.nextEvent = some target →
      Round policy s (s.prepared.idled target)
  | slice : s.prepared.bank.dequeue = some (i, rest) →
      policy (s.prepared.dispatched i rest) i = .ok d → 0 < d → d ≤ (s.process i).remaining →
      Round policy s ((s.prepared.dispatched i rest).ran i d)

/-- What a step leaves behind that is not done and cannot be recorded. A slice can always be
recorded where the dispatch before it was. -/
inductive Halt (s : Scheduler n) : Scheduler n → Prop
  | admission : s.AdmissionCut before i → Halt s (s.admissionCut before i)
  | dispatch : s.prepared.bank.dequeue = some (i, rest) →
      (s.prepared.dispatchEntry i).message.isWritable = false →
      Halt s ((s.prepared.dispatched i rest).unrecorded s.prepared)
  | idle : s.prepared.bank.queued = [] → s.prepared.nextEvent = some target →
      Text.isWritable target = false → Halt s s.prepared

theorem remaining_dispatched (hdequeue : s.prepared.bank.dequeue = some (i, rest)) :
    ((s.prepared.dispatched i rest).process j).remaining = (s.process j).remaining := by
  rw [apply_dispatched Proc.remaining hdequeue fun _ _ => rfl, remaining_prepared]

/-- The slice of a round runs from the time of the step. -/
theorem start_slice_prepared :
    ((s.prepared.dispatched i rest).slice i d).start = s.clock := clock_prepared

theorem stop_slice_prepared :
    ((s.prepared.dispatched i rest).slice i d).stop = s.clock + d :=
  congrArg (· + d) clock_prepared

theorem pid_slice_prepared (hdequeue : s.prepared.bank.dequeue = some (i, rest)) :
    ((s.prepared.dispatched i rest).slice i d).pid = (s.process i).pid :=
  (apply_dispatched Proc.pid hdequeue fun _ _ => rfl).trans (congrArg Spec.pid spec_prepared)

theorem config_ran_prepared : ((s.prepared.dispatched i rest).ran i d).config = s.config :=
  config_prepared

theorem clock_ran_prepared : ((s.prepared.dispatched i rest).ran i d).clock = s.clock + d :=
  stop_slice_prepared

/-- The process that runs in a round is settled by what ends its slice. -/
theorem process_ran_prepared_self :
    ((s.prepared.dispatched i rest).ran i d).process i =
      (((s.prepared.dispatched i rest).process i).ran d).settled s.config (s.clock + d)
        ((s.prepared.dispatched i rest).slice i d).outcome := by
  have hconfig : (s.prepared.dispatched i rest).config = s.config := config_prepared
  have hclock : (s.prepared.dispatched i rest).clock = s.clock := clock_prepared
  rw [process_ran, if_pos rfl, processAfter, hconfig, hclock]

/-- A round leaves alone whoever does not run in it, once it is admitted and boosted. -/
theorem process_ran_prepared_of_ne (hdequeue : s.prepared.bank.dequeue = some (i, rest))
    (hne : j ≠ i) : ((s.prepared.dispatched i rest).ran i d).process j = s.prepared.process j := by
  rw [process_ran, if_neg hne, process_dispatched hdequeue, if_neg hne]

theorem timeline_ran_prepared :
    ((s.prepared.dispatched i rest).ran i d).timeline.toList =
      s.timeline.toList ++ [(s.prepared.dispatched i rest).slice i d] := by
  rw [ran, Array.toList_push, dispatched, timeline_prepared]

/-- A round records one slice of all its time, or none. -/
theorem Round.timeline_eq (h : Round policy s t) : t.timeline = s.timeline ∨
    ∃ b, t.timeline.toList = s.timeline.toList ++ [b] ∧ b.start = s.clock ∧ b.stop = t.clock := by
  cases h with
  | idle _ _ => exact .inl timeline_prepared
  | slice _ _ _ _ => exact .inr ⟨_, timeline_ran_prepared, start_slice_prepared, rfl⟩

theorem Round.clock_le (h : Round policy s t) : s.clock ≤ t.clock := by
  cases h with
  | idle _ hnext =>
    rw [clock_idled_prepared hnext]
    exact Int.le_of_lt (clock_lt_nextEvent hnext)
  | slice _ _ hpos _ =>
    rw [clock_ran_prepared]
    omega

theorem fresh_of_advances (h : ReflTransGen (Advance .standard) s t) (hs : s.Sound)
    (hfresh : s.Fresh) : t.Fresh := by
  induction h with
  | refl => exact hfresh
  | tail hadvances hadvance ih =>
    exact fresh_of_advance (sound_of_advances hadvances hs) ih hadvance

theorem Round.moves (h : Round policy s t) : ReflTransGen (Move policy) s t := by
  have hprepared := moves_prepared policy (s := s)
  cases h with
  | idle hqueued hnext => exact hprepared.tail (.idle hnext)
  | slice hdequeue hd hpos hle =>
    have hrunning := running_dispatched hdequeue
    refine (hprepared.tail (.dispatch hdequeue)).tail (.execute hrunning hd (Int.le_of_lt hpos) ?_)
    rw [remaining_dispatched hdequeue]
    exact hle

/-- Who runs in a round of the standard policy runs for its share. -/
theorem Round.eq_ran (h : Round .standard s t) (hs : s.Sound)
    (hdequeue : s.prepared.bank.dequeue = some (i, rest)) :
    t = (s.prepared.dispatched i rest).ran i ((s.prepared.dispatched i rest).share i) := by
  cases h with
  | idle hqueued _ =>
    rw [Bank.dequeue_eq_none.mpr hqueued] at hdequeue
    cases hdequeue
  | slice hsome hd _ _ =>
    cases hsome.symm.trans hdequeue
    rw [standard_eq (hs.prepared.dispatched hdequeue)] at hd
    cases hd
    rfl

theorem Round.eq_idled (h : Round policy s t) (hdequeue : s.prepared.bank.dequeue = none)
    (hnext : s.prepared.nextEvent = some target) : t = s.prepared.idled target := by
  cases h with
  | idle _ hsome =>
    cases hsome.symm.trans hnext
    rfl
  | slice hsome _ _ _ => cases hsome.symm.trans hdequeue

-- ---------------------------------------------------------------------------
-- When a round is halted
-- ---------------------------------------------------------------------------

theorem Halt.advances (h : s.Halt t) : ReflTransGen (Advance policy) s t := by
  have hprepared := advances_of_moves (moves_prepared policy (s := s))
  cases h with
  | admission hcut => exact advances_admissionCut policy hcut
  | dispatch hdequeue hrefused => exact hprepared.tail (.cut (.dispatch hdequeue hrefused))
  | idle _ _ _ => exact hprepared

theorem Halt.clock_eq (h : s.Halt t) : t.clock = s.clock := by
  cases h with
  | admission hcut => rw [hcut.admits.rest]
  | dispatch _ _ => exact clock_prepared
  | idle _ _ _ => exact clock_prepared

theorem Halt.timeline_eq (h : s.Halt t) : t.timeline = s.timeline := by
  cases h with
  | admission hcut => rw [hcut.admits.rest]
  | dispatch _ _ => exact timeline_prepared
  | idle _ _ _ => exact timeline_prepared

theorem Halt.config_eq (h : s.Halt t) : t.config = s.config := by
  have hadvances : ReflTransGen (Advance .standard) s t := h.advances
  exact config_of_advances hadvances

theorem Halt.done_eq (h : s.Halt t) : t.done = s.done := by
  cases h with
  | admission hcut => rw [hcut.admits.rest, done, done]
  | dispatch _ _ => exact done_prepared
  | idle _ _ _ => exact done_prepared

theorem Halt.sound (h : s.Halt t) (hs : s.Sound) : t.Sound := by
  have hadvances : ReflTransGen (Advance .standard) s t := h.advances
  exact sound_of_advances hadvances hs

-- ---------------------------------------------------------------------------
-- When there is a round
-- ---------------------------------------------------------------------------

/-- Somebody holds the CPU, and everybody else holds it too or has completed. A step runs whom
it dispatches, so it helps none of them. -/
structure Stranded (s : Scheduler n) : Prop where
  running : ∃ i, (s.process i).phase = .running
  rest : ∀ i, (s.process i).phase = .running ∨ ∃ time, (s.process i).phase = .terminated time

theorem Stranded.due?_eq_none (h : s.Stranded) (i : Fin n) : (s.process i).due? = none := by
  rcases h.rest i with hphase | ⟨time, hphase⟩ <;> simp [Proc.due?, hphase]

theorem Stranded.not_due (h : s.Stranded) (i : Fin n) : s.due i = false := by
  rw [due, Proc.dueBy, h.due?_eq_none i]
  rfl

theorem Stranded.not_done (h : s.Stranded) (hs : s.Sound) : s.done = false := by
  obtain ⟨i, hi⟩ := h.running
  by_contra hdone
  obtain ⟨time, htime⟩ := hs.done_iff.mp (by simpa using hdone) i
  simp [hi] at htime

/-- When nothing waits to run, what does not hold the CPU and has not completed waits for its
time to come. -/
theorem Sound.pending (hs : s.Sound) (hqueued : s.prepared.bank.queued = []) (i : Fin n) :
    (s.prepared.process i).phase = .running ∨
      (∃ time, (s.prepared.process i).phase = .terminated time) ∨
      ∃ time, (s.prepared.process i).due? = some time := by
  have hready : (s.prepared.process i).phase ≠ .ready := by
    rw [show s.prepared.process i = s.prepared.bank.process i from rfl, ne_eq,
      ← hs.prepared.bank.mem_queued, hqueued]
    simp
  cases hphase : (s.prepared.process i).phase with
  | new => exact .inr (.inr ⟨_, Proc.due?_eq_some.mpr (.inl ⟨hphase, rfl⟩)⟩)
  | ready => exact absurd hphase hready
  | running => exact .inl rfl
  | waiting time => exact .inr (.inr ⟨time, Proc.due?_eq_some.mpr (.inr hphase)⟩)
  | terminated time => exact .inr (.inl ⟨time, rfl⟩)

/-- Being stranded is what leaves a step without anything to run and to wait for. -/
theorem stranded_iff (hs : s.Sound) (hdone : s.done = false) :
    s.Stranded ↔ s.prepared.bank.queued = [] ∧ s.prepared.nextEvent = none := by
  constructor
  · intro h
    have hphase (i : Fin n) : (s.prepared.process i).phase = (s.process i).phase := by
      rw [phase_prepared, h.not_due i, if_neg Bool.false_ne_true]
    refine ⟨List.eq_nil_iff_forall_not_mem.mpr fun i hi => ?_, nextEvent_eq_none.mpr fun i => ?_⟩
    · have hready : (s.prepared.process i).phase = .ready := hs.prepared.bank.mem_queued.mp hi
      rw [hphase] at hready
      rcases h.rest i with hrunning | ⟨time, hterminated⟩
      · simp [hrunning] at hready
      · simp [hterminated] at hready
    · rw [due?_prepared, h.not_due i, if_neg Bool.false_ne_true, h.due?_eq_none i]
  · rintro ⟨hqueued, hnext⟩
    have hrest (i : Fin n) : (s.process i).phase = .running ∨
        ∃ time, (s.process i).phase = .terminated time := by
      have hpending := hs.pending hqueued i
      rw [nextEvent_eq_none.mp hnext i, phase_prepared] at hpending
      cases hdue : s.due i with
      | true => simp [hdue] at hpending
      | false => simpa [hdue] using hpending
    refine ⟨?_, hrest⟩
    -- If nobody held the CPU, everybody would have completed.
    by_contra hfree
    have hall : s.done := hs.done_iff.mpr fun i => (hrest i).resolve_left (not_exists.mp hfree i)
    rw [hdone] at hall
    cases hall

/-- Before a slice of the standard policy every quantum is still whole. -/
theorem fresh_dispatched (hs : s.Sound) (hfresh : policy = .standard → s.Fresh)
    (hdequeue : s.prepared.bank.dequeue = some (i, rest)) (hpolicy : policy = .standard) :
    (s.prepared.dispatched i rest).Fresh := by
  subst hpolicy
  have hmoves := (moves_prepared .standard).tail (.dispatch hdequeue)
  exact fresh_of_advances (advances_of_moves hmoves) hs (hfresh rfl)

/-- Whose dispatch has been recorded may run a slice that is recorded as well. -/
theorem isWritable_pid_dispatched (h : s.bank.dequeue = some (i, rest))
    (hentry : (s.dispatchEntry i).message.isWritable) :
    Text.isWritable ((s.dispatched i rest).process i).pid := by
  rw [apply_dispatched Proc.pid h fun _ _ => rfl]
  simp only [dispatchEntry, Entry.isWritable_dispatch, Bool.and_eq_true] at hentry
  exact hentry.1

/-- A step that finds nobody to run jumps to the next event, if that can be recorded. -/
theorem run_step_idle (hs : s.Sound) (hdone : s.done = false)
    (hall : ∀ i, s.due i → s.admissible i) (hdequeue : s.prepared.bank.dequeue = none)
    (hnext : s.prepared.nextEvent = some target) :
    EStateM.run (Sim.step policy) s =
      if Text.isWritable target then
        .ok (!(s.prepared.idled target).done) (s.prepared.idled target)
      else .error (.numeral .tooLong) s.prepared := by
  have hlater : max target s.prepared.clock = target := clock_idled_prepared hnext
  simp only [run_step policy hs hdone hall, hdequeue]
  cases htarget : Text.isWritable target with
  | true => simp only [Sim.run_fastForward hnext (hlater.symm ▸ htarget), if_true]
  | false =>
    simp only [Sim.run_fastForward_refused hnext (hlater.symm ▸ htarget), Bool.false_eq_true,
      if_false]

/-- A step that finds somebody to run runs the process for one slice, if its dispatch can be
recorded. -/
theorem run_step_slice (hs : s.Sound) (hfresh : policy = .standard → s.Fresh)
    (hpolicy : policy.Steady) (hdone : s.done = false) (hall : ∀ i, s.due i → s.admissible i)
    (hdequeue : s.prepared.bank.dequeue = some (i, rest)) :
    ∃ d, policy (s.prepared.dispatched i rest) i = .ok d ∧ 0 < d ∧ d ≤ (s.process i).remaining ∧
      EStateM.run (Sim.step policy) s =
        if (s.prepared.dispatchEntry i).message.isWritable then
          .ok (!((s.prepared.dispatched i rest).ran i d).done)
            ((s.prepared.dispatched i rest).ran i d)
        else .error (.numeral .tooLong) ((s.prepared.dispatched i rest).unrecorded s.prepared) := by
  have hsound := hs.prepared.dispatched hdequeue
  have hrunning := running_dispatched hdequeue
  obtain ⟨d, hd, hpos, hle⟩ := hpolicy.slice hsound (fresh_dispatched hs hfresh hdequeue)
    (Proc.completion_of_running hrunning)
  refine ⟨d, hd, hpos, remaining_dispatched hdequeue ▸ hle, ?_⟩
  simp only [run_step policy hs hdone hall, hdequeue]
  split
  · have hpid := isWritable_pid_dispatched hdequeue ‹_›
    simp only [Sim.run_execute hsound hrunning hd (Int.le_of_lt hpos) hle hpid]
  · rfl

/-- Unless it is stranded, a scheduler that is not done makes a round in its next step, or halts
because that cannot be recorded. -/
theorem round_or_halt (hs : s.Sound) (hfresh : policy = .standard → s.Fresh)
    (hpolicy : policy.Steady) (hdone : s.done = false) (hstranded : ¬ s.Stranded) :
    (∃ t, EStateM.run (Sim.step policy) s = .ok (!t.done) t ∧ Round policy s t) ∨
      ∃ t, EStateM.run (Sim.step policy) s = .error (.numeral .tooLong) t ∧ Halt s t := by
  rcases Sim.admissible_or_cut s with hall | ⟨before, i, hcut⟩
  · cases hdequeue : s.prepared.bank.dequeue with
    | none =>
      have hqueued := Bank.dequeue_eq_none.mp hdequeue
      cases hnext : s.prepared.nextEvent with
      | none => exact absurd ((stranded_iff hs hdone).mpr ⟨hqueued, hnext⟩) hstranded
      | some target =>
        cases htarget : Text.isWritable target with
        | true =>
          refine .inl ⟨_, ?_, .idle hqueued hnext⟩
          rw [run_step_idle hs hdone hall hdequeue hnext, if_pos htarget]
        | false =>
          refine .inr ⟨_, ?_, .idle hqueued hnext htarget⟩
          rw [run_step_idle hs hdone hall hdequeue hnext, if_neg (Bool.eq_false_iff.mp htarget)]
    | some head =>
      obtain ⟨i, rest⟩ := head
      obtain ⟨d, hd, hpos, hle, hrun⟩ := run_step_slice hs hfresh hpolicy hdone hall hdequeue
      cases hrecorded : (s.prepared.dispatchEntry i).message.isWritable with
      | true => exact .inl ⟨_, by rw [hrun, if_pos hrecorded], .slice hdequeue hd hpos hle⟩
      | false =>
        exact .inr ⟨_, by rw [hrun, if_neg (Bool.eq_false_iff.mp hrecorded)],
          .dispatch hdequeue hrecorded⟩
  · exact .inr ⟨_, run_step_of_cut policy hs hdone hcut, .admission hcut⟩

/-- A step that succeeds has recorded its admissions and its dispatch. -/
theorem recorded_of_ok (hs : s.Sound) (hdone : s.done = false)
    (hstep : EStateM.run (Sim.step policy) s = .ok more t) :
    (∀ i, s.due i → s.admissible i) ∧ ∀ i rest, s.prepared.bank.dequeue = some (i, rest) →
      (s.prepared.dispatchEntry i).message.isWritable := by
  rcases Sim.admissible_or_cut s with hall | ⟨before, i, hcut⟩
  · refine ⟨hall, fun i rest hdequeue => ?_⟩
    by_contra hrefused
    simp only [run_step policy hs hdone hall, hdequeue, hrefused] at hstep
    cases hstep
  · rw [run_step_of_cut policy hs hdone hcut] at hstep
    cases hstep

namespace AtRest

theorem free_prepared (hs : s.AtRest policy) (i : Fin n) :
    (s.prepared.process i).phase ≠ .running := by
  rw [phase_prepared]
  split
  · simp
  · exact hs.free i

theorem not_stranded (hs : s.AtRest policy) : ¬ s.Stranded := by
  intro h
  obtain ⟨i, hi⟩ := h.running
  exact hs.free i hi

/-- When nothing waits to run, what has not completed waits for its time to come. -/
theorem pending (hs : s.AtRest policy) (hqueued : s.prepared.bank.queued = [])
    (hi : (s.prepared.process i).completion = none) :
    ∃ time, (s.prepared.process i).due? = some time := by
  rcases hs.sound.pending hqueued i with hrunning | hterminated | hdue
  · exact absurd hrunning (hs.free_prepared i)
  · rw [← Proc.isSome_completion, hi] at hterminated
    cases hterminated
  · exact hdue

theorem fresh_dispatched (hs : s.AtRest policy)
    (hdequeue : s.prepared.bank.dequeue = some (i, rest)) (hpolicy : policy = .standard) :
    (s.prepared.dispatched i rest).Fresh :=
  Scheduler.fresh_dispatched hs.sound hs.fresh hdequeue hpolicy

theorem round_or_halt (hs : s.AtRest policy) (hpolicy : policy.Steady) (hdone : s.done = false) :
    (∃ t, EStateM.run (Sim.step policy) s = .ok (!t.done) t ∧ Round policy s t) ∨
      ∃ t, EStateM.run (Sim.step policy) s = .error (.numeral .tooLong) t ∧ Halt s t :=
  Scheduler.round_or_halt hs.sound hs.fresh hpolicy hdone hs.not_stranded

theorem exists_nextEvent (hs : s.AtRest policy) (hdone : s.done = false)
    (hqueued : s.prepared.bank.queued = []) : ∃ target, s.prepared.nextEvent = some target :=
  Option.ne_none_iff_exists'.mp fun hnone =>
    hs.not_stranded ((stranded_iff hs.sound hdone).mpr ⟨hqueued, hnone⟩)

theorem of_round (hs : s.AtRest policy) (h : Round policy s t) : t.AtRest policy := by
  have hmoves := h.moves
  refine ⟨sound_of_moves hmoves hs.sound, ?_, ?_⟩
  · intro j
    cases h with
    | idle hqueued hnext => exact hs.free_prepared j
    | @slice i _ _ hdequeue hd hpos hle =>
      by_cases hj : j = i
      · rw [process_ran, if_pos hj]
        exact Proc.phase_settled
      · rw [process_ran_prepared_of_ne hdequeue hj]
        exact hs.free_prepared j
  · rintro rfl
    exact fresh_of_advances (advances_of_moves hmoves) hs.sound (hs.fresh rfl)

/-- A step leaves a finished scheduler alone. Any other makes a round or halts. -/
theorem run_step (hs : s.AtRest policy) (hpolicy : policy.Steady) : s.done ∨ s.done = false ∧
    ((∃ t, EStateM.run (Sim.step policy) s = .ok (!t.done) t ∧ Round policy s t) ∨
      ∃ t, EStateM.run (Sim.step policy) s = .error (.numeral .tooLong) t ∧ Halt s t) := by
  cases hdone : s.done with
  | true => exact .inl rfl
  | false => exact .inr ⟨rfl, hs.round_or_halt hpolicy hdone⟩

end AtRest

/-- A step that does not halt. -/
inductive Step (policy : SlicePolicy n) (s : Scheduler n) : Scheduler n → Prop
  | done : s.done → Step policy s s
  | round {t : Scheduler n} : s.done = false → Round policy s t → Step policy s t

/-- What the next step does to a scheduler that some steps have led to. -/
structure Next (policy : SlicePolicy n) (s : Scheduler n) (k : Nat) : Prop where
  not_stopped : ¬ s.Stopped policy (k + 1)
  run_eq : EStateM.run (Sim.step policy) (s.afterSteps policy k) =
    .ok (!(s.afterSteps policy (k + 1)).done) (s.afterSteps policy (k + 1))
  step : Step policy (s.afterSteps policy k) (s.afterSteps policy (k + 1))

/-- The next step is the first one that halts. -/
structure Last (policy : SlicePolicy n) (s : Scheduler n) (k : Nat) : Prop where
  stopped : s.Stopped policy (k + 1)
  run_eq : EStateM.run (Sim.step policy) (s.afterSteps policy k) =
    .error (.numeral .tooLong) (s.afterSteps policy (k + 1))
  not_done : (s.afterSteps policy k).done = false
  halt : Halt (s.afterSteps policy k) (s.afterSteps policy (k + 1))

theorem Next.of_done (hdone : s.done) : Next policy s k := by
  have hsame (j : Nat) : s.afterSteps policy j = s := afterSteps_of_done policy hdone
  refine ⟨not_stopped_of_done policy hdone, ?_, ?_⟩ <;> rw [hsame, hsame]
  · rw [run_step_of_done policy hdone, hdone]
    rfl
  · exact .done hdone

/-- A step that succeeds only puts off what comes after it. -/
theorem Next.later (hstep : EStateM.run (Sim.step policy) s = .ok (!t.done) t)
    (h : Next policy t k) : Next policy s (k + 1) := by
  have hmore (j : Nat) := afterSteps_of_ok (k := j) policy hstep
  refine ⟨?_, ?_, ?_⟩
  · rw [stopped_succ_of_ok policy hstep]
    exact h.not_stopped
  · rw [hmore, hmore]
    exact h.run_eq
  · rw [hmore, hmore]
    exact h.step

theorem Last.later (hstep : EStateM.run (Sim.step policy) s = .ok (!t.done) t)
    (h : Last policy t k) : Last policy s (k + 1) := by
  have hmore (j : Nat) := afterSteps_of_ok (k := j) policy hstep
  refine ⟨(stopped_succ_of_ok policy hstep).mpr h.stopped, ?_, ?_, ?_⟩
  · rw [hmore, hmore]
    exact h.run_eq
  · rw [hmore]
    exact h.not_done
  · rw [hmore, hmore]
    exact h.halt

namespace AtRest

theorem next_or_last (hs : s.AtRest policy) (hpolicy : policy.Steady)
    (hk : ¬ s.Stopped policy k) : Next policy s k ∨ Last policy s k := by
  induction k generalizing s with
  | zero =>
    rcases hs.run_step hpolicy with hdone | ⟨hdone, ⟨t, hstep, hround⟩ | ⟨t, hstep, hhalt⟩⟩
    · exact .inl (.of_done hdone)
    · have hnext := afterSteps_of_ok (k := 0) policy hstep
      refine .inl ⟨?_, ?_, ?_⟩
      · rw [stopped_succ_of_ok policy hstep]
        exact not_stopped_zero
      · rw [hnext, afterSteps_zero, afterSteps_zero, hstep]
      · rw [hnext, afterSteps_zero, afterSteps_zero]
        exact .round hdone hround
    · have hlast := afterSteps_of_error (k := 0) hstep
      refine .inr ⟨(stopped_succ_of_error hstep).mpr rfl, ?_, hdone, ?_⟩
      · rw [hlast, afterSteps_zero, hstep]
      · rw [hlast, afterSteps_zero]
        exact hhalt
  | succ k ih =>
    rcases hs.run_step hpolicy with hdone | ⟨-, ⟨t, hstep, hround⟩ | ⟨t, hstep, -⟩⟩
    · exact .inl (.of_done hdone)
    · have hstopped := stopped_succ_of_ok (k := k) policy hstep
      exact (ih (hs.of_round hround) fun h => hk (hstopped.mpr h)).imp (.later hstep) (.later hstep)
    · exact absurd ((stopped_succ_of_error hstep).mpr rfl) hk

theorem next (hs : s.AtRest policy) (hpolicy : policy.Steady)
    (hk : ¬ s.Stopped policy (k + 1)) : Next policy s k :=
  (hs.next_or_last hpolicy fun h => hk (h.mono (Nat.le_succ k))).resolve_right
    fun h => hk h.stopped

theorem step_afterSteps (hs : s.AtRest policy) (hpolicy : policy.Steady)
    (hk : ¬ s.Stopped policy (k + 1)) :
    Step policy (s.afterSteps policy k) (s.afterSteps policy (k + 1)) :=
  (hs.next hpolicy hk).step

theorem run_step_afterSteps (hs : s.AtRest policy) (hpolicy : policy.Steady)
    (hk : ¬ s.Stopped policy (k + 1)) :
    EStateM.run (Sim.step policy) (s.afterSteps policy k) =
      .ok (!(s.afterSteps policy (k + 1)).done) (s.afterSteps policy (k + 1)) :=
  (hs.next hpolicy hk).run_eq

theorem afterSteps (hs : s.AtRest policy) (hpolicy : policy.Steady) (hk : ¬ s.Stopped policy k) :
    (s.afterSteps policy k).AtRest policy := by
  induction k with
  | zero => exact hs
  | succ k ih =>
    have hbefore := ih fun h => hk (h.mono (Nat.le_succ k))
    have hstep := hs.step_afterSteps hpolicy hk
    generalize s.afterSteps policy (k + 1) = t at hstep ⊢
    cases hstep with
    | done _ => exact hbefore
    | round _ hround => exact hbefore.of_round hround

/-- One more step makes a round, or halts, or changes nothing. -/
theorem afterSteps_cases (hs : s.AtRest policy) (hpolicy : policy.Steady) (k : Nat) :
    s.afterSteps policy (k + 1) = s.afterSteps policy k ∨
      (s.afterSteps policy k).AtRest policy ∧
        (¬ s.Stopped policy (k + 1) ∧
            Round policy (s.afterSteps policy k) (s.afterSteps policy (k + 1)) ∨
          Halt (s.afterSteps policy k) (s.afterSteps policy (k + 1))) := by
  by_cases hk : s.Stopped policy k
  · exact .inl (hk.afterSteps_eq (Nat.le_succ k))
  have hrest := hs.afterSteps hpolicy hk
  rcases hs.next_or_last hpolicy hk with hnext | hlast
  · have hstep := hnext.step
    have hnot := hnext.not_stopped
    generalize s.afterSteps policy (k + 1) = t at hstep ⊢
    cases hstep with
    | done _ => exact .inl rfl
    | round _ hround => exact .inr ⟨hrest, .inl ⟨hnot, hround⟩⟩
  · exact .inr ⟨hrest, .inr hlast.halt⟩

/-- Steps that stop have halted after some that do not. -/
theorem exists_halt (hs : s.AtRest policy) (hpolicy : policy.Steady) (hk : s.Stopped policy k) :
    ∃ j < k, ¬ s.Stopped policy j ∧ (s.afterSteps policy j).done = false ∧
      Halt (s.afterSteps policy j) (s.afterSteps policy k) := by
  induction k with
  | zero => exact absurd hk not_stopped_zero
  | succ k ih =>
    by_cases hearlier : s.Stopped policy k
    · obtain ⟨j, hj, hnot, hmore, hhalt⟩ := ih hearlier
      exact ⟨j, by omega, hnot, hmore, hearlier.afterSteps_eq (Nat.le_succ k) ▸ hhalt⟩
    · have hlast := (hs.next_or_last hpolicy hearlier).resolve_left fun h => h.not_stopped hk
      exact ⟨k, Nat.lt_succ_self k, hearlier, hlast.not_done, hlast.halt⟩

/-- No slice is run by the step that stops. -/
theorem timeline_of_stopped (hs : s.AtRest policy) (hpolicy : policy.Steady)
    (hk : s.Stopped policy (k + 1)) :
    (s.afterSteps policy (k + 1)).timeline = (s.afterSteps policy k).timeline := by
  by_cases hearlier : s.Stopped policy k
  · rw [hearlier.afterSteps_eq (Nat.le_succ k)]
  · have hlast := (hs.next_or_last hpolicy hearlier).resolve_left fun h => h.not_stopped hk
    exact hlast.halt.timeline_eq

/-- A finished run has not stopped. -/
theorem not_stopped_of_done (hs : s.AtRest policy) (hpolicy : policy.Steady)
    (hdone : (s.afterSteps policy k).done) : ¬ s.Stopped policy k := by
  intro hk
  obtain ⟨j, -, -, hmore, hhalt⟩ := hs.exists_halt hpolicy hk
  rw [hhalt.done_eq, hmore] at hdone
  cases hdone

theorem afterSteps_eq_of_done (hs : s.AtRest policy) (hpolicy : policy.Steady)
    (hdone : (s.afterSteps policy j).done) (hjk : j ≤ k) :
    s.afterSteps policy k = s.afterSteps policy j := by
  induction hjk with
  | refl => rfl
  | @step k _ ih =>
    have hdone : (s.afterSteps policy k).done := ih ▸ hdone
    rcases hs.next_or_last hpolicy (hs.not_stopped_of_done hpolicy hdone) with hnext | hlast
    · have hstep := hnext.step
      rw [← ih]
      generalize s.afterSteps policy (k + 1) = t at hstep ⊢
      cases hstep with
      | done _ => rfl
      | round hmore _ => rw [hmore] at hdone; cases hdone
    · rw [hlast.not_done] at hdone
      cases hdone

end AtRest

end Scheduler

-- ---------------------------------------------------------------------------
-- Steps from the start of a workload
-- ---------------------------------------------------------------------------

namespace Workload

variable {w : Workload} {config : Config} {policy : SlicePolicy w.size}

theorem atRest_start : (w.start config).AtRest policy := by
  refine ⟨sound_start, ?_, ?_⟩
  · intro i
    rw [process_start]
    simp [Proc.ofSpec]
  · intro _ i
    rw [process_start]
    exact fun _ => rfl

theorem not_stopped_of_done (hpolicy : policy.Steady)
    (hdone : ((w.start config).afterSteps policy k).done) :
    ¬ (w.start config).Stopped policy k :=
  atRest_start.not_stopped_of_done hpolicy hdone

theorem not_stopped_of_le (hk : ¬ (w.start config).Stopped policy k) (hjk : j ≤ k) :
    ¬ (w.start config).Stopped policy j :=
  fun hj => hk (hj.mono hjk)

/-- Any number of steps is one that has not stopped, or halts right after one. -/
theorem exists_not_stopped (config : Config) (hpolicy : policy.Steady) (k : Nat) :
    ∃ j ≤ k, ¬ (w.start config).Stopped policy j ∧
      ((w.start config).afterSteps policy k = (w.start config).afterSteps policy j ∨
        ((w.start config).afterSteps policy j).Halt ((w.start config).afterSteps policy k)) := by
  by_cases hk : (w.start config).Stopped policy k
  · obtain ⟨j, hj, hnot, -, hhalt⟩ := atRest_start.exists_halt hpolicy hk
    exact ⟨j, hj.le, hnot, .inr hhalt⟩
  · exact ⟨k, Nat.le_refl k, hk, .inl rfl⟩

/-- What holds at the start of a workload and is kept by every round holds after any
number of steps that have not stopped. -/
theorem rounds_induction (hpolicy : policy.Steady) {P : Scheduler w.size → Prop}
    (start : P (w.start config))
    (round : ∀ s t, s.AtRest policy → P s → Scheduler.Round policy s t → P t)
    (hk : ¬ (w.start config).Stopped policy k) : P ((w.start config).afterSteps policy k) := by
  induction k with
  | zero => exact start
  | succ k ih =>
    have hearlier := not_stopped_of_le hk (Nat.le_succ k)
    have hs := atRest_start.afterSteps hpolicy hearlier
    have hstep := atRest_start.step_afterSteps hpolicy hk
    generalize (w.start config).afterSteps policy (k + 1) = t at hstep ⊢
    cases hstep with
    | done _ => exact ih hearlier
    | round _ hround => exact round _ _ hs (ih hearlier) hround

/-- What is kept also by a step that halts holds after any number of steps. -/
theorem steps_induction (hpolicy : policy.Steady) {P : Scheduler w.size → Prop}
    (start : P (w.start config))
    (round : ∀ s t, s.AtRest policy → P s → Scheduler.Round policy s t → P t)
    (halt : ∀ s t, s.AtRest policy → P s → Scheduler.Halt s t → P t) (k : Nat) :
    P ((w.start config).afterSteps policy k) := by
  induction k with
  | zero => exact start
  | succ k ih =>
    rcases atRest_start.afterSteps_cases hpolicy k with hsame | ⟨hs, ⟨-, hround⟩ | hhalt⟩
    · exact hsame ▸ ih
    · exact round _ _ hs ih hround
    · exact halt _ _ hs ih hhalt

end Workload

end FeedbackQueue
