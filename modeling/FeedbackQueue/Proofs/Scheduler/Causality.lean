import FeedbackQueue.Proofs.Scheduler.Correspondence
import FeedbackQueue.Proofs.Scheduler.Legible
import FeedbackQueue.Proofs.Scheduler.Termination

/-!
# The future does not act on the past

What a run does before a time depends on the processes that arrive before that time, and
not on any others. Whatever else there is, the run is compared with that of the early
processes alone: as long as the clock is early the two schedulers are alike, since a process
that has yet to arrive leaves no trace. Then they part, but whatever they record from there
on starts late.
-/

namespace FeedbackQueue

/-- The process has yet to arrive, at a time or later. -/
def Proc.Late (a : Int) (p : Proc) : Prop := p.phase = .new ∧ a ≤ p.spec.arrival

theorem Proc.Late.due? {p : Proc} (h : p.Late a) : p.due? = some p.spec.arrival :=
  Proc.due?_eq_some.mpr (.inl ⟨h.1, rfl⟩)

theorem Proc.Late.of_eq {p q : Proc} (h : p.Late a) (hphase : q.phase = p.phase)
    (hspec : q.spec = p.spec) : q.Late a := by
  rw [Late, hphase, hspec]
  exact h

namespace Scheduler

variable {s t : Scheduler n} {policy : SlicePolicy n}

theorem not_due_of_late (h : (s.process i).Late a) (hclock : s.clock < a) : s.due i = false := by
  have hlt : s.clock < (s.process i).spec.arrival := Int.lt_of_lt_of_le hclock h.2
  simpa [due, Proc.dueBy, h.due?] using hlt

theorem late_prepared (h : (s.process i).Late a) (hclock : s.clock < a) :
    (s.prepared.process i).Late a := by
  refine h.of_eq ?_ spec_prepared
  rw [phase_prepared, not_due_of_late h hclock]
  rfl

/-- The slices that start before a time. -/
def startedBefore (s : Scheduler n) (a : Int) : List Slice :=
  s.timeline.toList.filter (·.start < a)

-- ---------------------------------------------------------------------------
-- When nothing early is left to happen
-- ---------------------------------------------------------------------------

/-- No slice will start before the time any more: the clock has reached it, or whoever has
not completed has yet to arrive. -/
def Settled (a : Int) (s : Scheduler n) : Prop :=
  a ≤ s.clock ∨ ∀ i, (∃ time, (s.process i).phase = .terminated time) ∨ (s.process i).Late a

theorem Settled.of_done (hs : s.Sound) (hdone : s.done) : s.Settled a :=
  .inr fun i => .inl (hs.done_iff.mp hdone i)

/-- As long as it is early, nobody wakes up in a settled scheduler. -/
theorem Settled.not_due (h : s.Settled a) (hclock : s.clock < a) (i : Fin n) : s.due i = false := by
  rcases h with hle | hrest
  · omega
  · rcases hrest i with ⟨time, hphase⟩ | hlate
    · simp [due, Proc.dueBy, Proc.due?, hphase]
    · exact not_due_of_late hlate hclock

theorem startedBefore_idled : (s.prepared.idled target).startedBefore a = s.startedBefore a := by
  have htimeline : (s.prepared.idled target).timeline = s.timeline := timeline_prepared
  rw [startedBefore, htimeline, startedBefore]

theorem Settled.of_round (hs : s.AtRest policy) (h : s.Settled a) (hround : Round policy s t) :
    t.Settled a ∧ t.startedBefore a = s.startedBefore a := by
  by_cases hclock : a ≤ s.clock
  · refine ⟨.inl (Int.le_trans hclock hround.clock_le), ?_⟩
    rcases hround.timeline_eq with hsame | ⟨b, hconcat, hstart, -⟩
    · rw [startedBefore, hsame, startedBefore]
    · have hlate : ¬ b.start < a := by omega
      rw [startedBefore, hconcat, List.filter_append]
      simp [hlate, startedBefore]
  · -- Nobody wakes up before the time, so nobody runs and the clock jumps past it.
    have hrest := h.resolve_left hclock
    have hnot := h.not_due (Int.not_le.mp hclock)
    cases hround with
    | idle _ hnext =>
      obtain ⟨⟨i, hi⟩, -⟩ := nextEvent_eq_some.mp hnext
      rw [due?_prepared, hnot] at hi
      refine ⟨.inl (Int.le_trans ?_ (Int.le_max_left _ _)), startedBefore_idled⟩
      rcases hrest i with ⟨time, hphase⟩ | hlate
      · simp [Proc.due?, hphase] at hi
      · rw [hlate.due?] at hi
        cases hi
        exact hlate.2
    | @slice i _ _ hdequeue _ _ _ =>
      have hready := hs.sound.prepared.head_ready hdequeue
      rw [phase_prepared, hnot] at hready
      rcases hrest i with ⟨time, hphase⟩ | hlate
      · simp [hphase] at hready
      · simp [hlate.1] at hready

theorem Settled.of_step (hs : s.AtRest policy) (h : s.Settled a) (hstep : Step policy s t) :
    t.Settled a ∧ t.startedBefore a = s.startedBefore a := by
  cases hstep with
  | done _ => exact ⟨h, rfl⟩
  | round _ hround => exact h.of_round hs hround

-- ---------------------------------------------------------------------------
-- Two runs up to a time
-- ---------------------------------------------------------------------------

/-- The second scheduler knows all processes of the first one. Either they are alike, and
whoever only the second one knows has yet to arrive, or they have parted, after they have
recorded the same slices that start before the time. -/
inductive Concur (slot : Fin n ↪o Fin m) (a : Int) (s : Scheduler n) (t : Scheduler m) : Prop
  | alike : s.Alike (.ofSlots slot) t → (∀ j ∉ Set.range slot, (t.process j).Late a) →
      Concur slot a s t
  | parted : s.Settled a → t.Settled a → t.startedBefore a = s.startedBefore a →
      Concur slot a s t

namespace Concur

variable {slot : Fin n ↪o Fin m} {s s' : Scheduler n} {t t' : Scheduler m}

theorem startedBefore_eq (h : Concur slot a s t) : t.startedBefore a = s.startedBefore a := by
  cases h with
  | alike h _ => simp [startedBefore, h.timeline]
  | parted _ _ hsame => exact hsame

theorem of_parted (hs : s.AtRest .standard) (ht : t.AtRest .standard) (h : s.Settled a)
    (h' : t.Settled a) (hsame : t.startedBefore a = s.startedBefore a)
    (hstep : Step .standard s s') (hstep' : Step .standard t t') : Concur slot a s' t' := by
  obtain ⟨hsettled, hstarted⟩ := h.of_step hs hstep
  obtain ⟨hsettled', hstarted'⟩ := h'.of_step ht hstep'
  exact .parted hsettled hsettled' (by rw [hstarted', hsame, hstarted])

/-- Once the first scheduler is done, the second one has nobody left but late processes. -/
theorem settled_of_done (h : s.Alike (.ofSlots slot) t) (hs : s.Sound)
    (hlate : ∀ j ∉ Set.range slot, (t.process j).Late a) (hdone : s.done) : t.Settled a := by
  refine .inr fun j => ?_
  by_cases hj : j ∈ Set.range slot
  · obtain ⟨i, rfl⟩ := hj
    obtain ⟨time, hphase⟩ := hs.done_iff.mp hdone i
    have hi := (h.process i).phase
    rw [hphase] at hi
    exact .inl ⟨_, hi⟩
  · exact .inr (hlate j hj)

/-- As long as it is early, nobody is due who is not known to both. -/
theorem prepared_alike (hs : s.Sound) (ht : t.Sound) (h : s.Alike (.ofSlots slot) t)
    (hlate : ∀ j ∉ Set.range slot, (t.process j).Late a) (hclock : s.clock < a) :
    s.prepared.Alike (.ofSlots slot) t.prepared ∧
      ∀ j ∉ Set.range slot, (t.prepared.process j).Late a := by
  have hclock' : t.clock < a := by simpa [h.clock] using hclock
  refine ⟨h.prepared hs ht fun j hj => ?_, fun j hj => late_prepared (hlate j hj) hclock'⟩
  by_contra hnew
  simp [not_due_of_late (hlate j hnew) hclock'] at hj

/-- Both sleep until the same time, or past the time. -/
theorem nextEvent_eq_or_le (h : s.Alike (.ofSlots slot) t)
    (hlate : ∀ j ∉ Set.range slot, (t.process j).Late a) (hnext : s.nextEvent = some target)
    (hnext' : t.nextEvent = some target') : target' = target ∨ a ≤ target ∧ a ≤ target' := by
  by_cases htarget : target < a
  · have hsame := h.nextEvent hnext fun j hj time htime => by
      rw [(hlate j hj).due?, Option.some.injEq] at htime
      have hle := (hlate j hj).2
      simp
      omega
    rw [hnext', Option.some.injEq] at hsame
    exact .inl (by simpa using hsame)
  · -- The second scheduler has no other reason to wake up earlier.
    refine .inr ⟨Int.not_lt.mp htarget, ?_⟩
    obtain ⟨⟨j, hj⟩, -⟩ := nextEvent_eq_some.mp hnext'
    by_cases hold : j ∈ Set.range slot
    · obtain ⟨i, rfl⟩ := hold
      have hi : (s.process i).due? = some target' := by
        simpa using (h.process i).due?.symm.trans hj
      have hle := (nextEvent_eq_some.mp hnext).2 i target' hi
      omega
    · have hle := (hlate j hold).2
      rw [(hlate j hold).due?, Option.some.injEq] at hj
      omega

/-- Before the time both schedulers find the same to do, or find that there is nothing to do
until then. -/
theorem of_rounds (hs : s.AtRest .standard) (ht : t.AtRest .standard)
    (h : s.Alike (.ofSlots slot) t) (hlate : ∀ j ∉ Set.range slot, (t.process j).Late a)
    (hclock : s.clock < a) (hround : Round .standard s s') (hround' : Round .standard t t') :
    Concur slot a s' t' := by
  obtain ⟨hprepared, hlate'⟩ := prepared_alike hs.sound ht.sound h hlate hclock
  cases hdequeue : s.prepared.bank.dequeue with
  | some head =>
    obtain ⟨i, rest⟩ := head
    obtain ⟨rest', hdequeue', hrest⟩ := hprepared.queues.dequeue_eq_some hdequeue
    rw [hround.eq_ran hs.sound hdequeue, hround'.eq_ran ht.sound hdequeue']
    refine .alike (.ran_share hprepared hs ht hdequeue hdequeue' hrest) fun j hj => ?_
    have hne : j ≠ slot i := by
      rintro rfl
      exact hj ⟨i, rfl⟩
    rw [process_ran_prepared_of_ne hdequeue' hne]
    exact hlate' j hj
  | none =>
    have hdequeue' := hprepared.queues.dequeue_eq_none hdequeue
    cases hround with
    | slice hsome _ _ _ => cases hsome.symm.trans hdequeue
    | @idle target _ hnext =>
      cases hround' with
      | slice hsome _ _ _ => cases hsome.symm.trans hdequeue'
      | @idle target' _ hnext' =>
        rcases nextEvent_eq_or_le hprepared hlate' hnext hnext' with rfl | ⟨hlater, hlater'⟩
        · have hidled : (s.prepared.idled target').Alike _ _ := hprepared.idled
          rw [Translation.ofSlots_time] at hidled
          exact .alike hidled hlate'
        · refine .parted (.inl ?_) (.inl ?_) ?_
          · exact Int.le_trans hlater (Int.le_max_left _ _)
          · exact Int.le_trans hlater' (Int.le_max_left _ _)
          · rw [startedBefore_idled, startedBefore_idled]
            exact (Concur.alike h hlate).startedBefore_eq

theorem of_steps (hs : s.AtRest .standard) (ht : t.AtRest .standard) (h : Concur slot a s t)
    (hstep : Step .standard s s') (hstep' : Step .standard t t') : Concur slot a s' t' := by
  have hsame := h.startedBefore_eq
  cases h with
  | parted hsettled hsettled' _ => exact of_parted hs ht hsettled hsettled' hsame hstep hstep'
  | alike h hlate =>
    by_cases hclock : a ≤ s.clock
    · have hclock' : a ≤ t.clock := by simpa [h.clock] using hclock
      exact of_parted hs ht (.inl hclock) (.inl hclock') hsame hstep hstep'
    · cases hdone : s.done with
      | true =>
        exact of_parted hs ht (.of_done hs.sound hdone)
          (settled_of_done h hs.sound hlate hdone) hsame hstep hstep'
      | false =>
        have hdone' := h.not_done hs.sound ht.sound hdone
        cases hstep with
        | done hsdone => simp [hdone] at hsdone
        | round _ hround =>
          cases hstep' with
          | done htdone => simp [hdone'] at htdone
          | round _ hround' => exact of_rounds hs ht h hlate (Int.not_le.mp hclock) hround hround'

/-- Early entries are the same in both, so only a jump past the time stops one of them alone. -/
theorem settled_of_halt (hs : s.AtRest .standard) (ht : t.AtRest .standard)
    (h : s.Alike (.ofSlots slot) t) (hlate : ∀ j ∉ Set.range slot, (t.process j).Late a)
    (hclock : s.clock < a) (hhalt : s.Halt s') (hdone : s.done = false)
    (hrun' : EStateM.run (Sim.step .standard) t = .ok more t') (hround' : Round .standard t t') :
    t'.Settled a ∧ t'.startedBefore a = t.startedBefore a := by
  obtain ⟨hprepared, hlate'⟩ := prepared_alike hs.sound ht.sound h hlate hclock
  have hdone' := h.not_done hs.sound ht.sound hdone
  obtain ⟨hall, hdispatch⟩ := recorded_of_ok ht.sound hdone' hrun'
  cases hhalt with
  | @admission _ i hcut =>
    have hdue := hcut.mem_due (List.mem_append_right _ (List.mem_singleton_self i))
    have hadmissible := hall (slot i) ((h.due (i := i)).trans hdue)
    rw [h.admissible_eq, hcut.refused] at hadmissible
    cases hadmissible
  | @dispatch i rest hdequeue hrefused =>
    obtain ⟨rest', hdequeue', -⟩ := hprepared.queues.dequeue_eq_some hdequeue
    have hwritable := hdispatch _ _ hdequeue'
    rw [Translation.ofSlots_slot, hprepared.isWritable_dispatchEntry_eq, hrefused] at hwritable
    cases hwritable
  | @idle target hqueued hnext hrefused =>
    have hdequeue' := hprepared.queues.dequeue_eq_none (Bank.dequeue_eq_none.mpr hqueued)
    cases hround' with
    | slice hsome _ _ _ => cases hsome.symm.trans hdequeue'
    | @idle target' _ hnext' =>
      rw [run_step_idle ht.sound hdone' hall hdequeue' hnext'] at hrun'
      rcases nextEvent_eq_or_le hprepared hlate' hnext hnext' with rfl | ⟨-, hlater'⟩
      · simp [hrefused] at hrun'
      · exact ⟨.inl (Int.le_trans hlater' (Int.le_max_left _ _)), startedBefore_idled⟩

/-- When only the first one stops, the second one goes on without it. -/
theorem settled_of_last (hs : s.AtRest .standard) (ht : t.AtRest .standard)
    (h : Concur slot a s t) (hhalt : s.Halt s') (hdone : s.done = false)
    (hrun' : EStateM.run (Sim.step .standard) t = .ok more t') (hstep' : Step .standard t t') :
    t'.Settled a ∧ t'.startedBefore a = s'.startedBefore a := by
  have hsame := h.startedBefore_eq
  have hlast : s'.startedBefore a = s.startedBefore a := by
    rw [startedBefore, hhalt.timeline_eq, startedBefore]
  rw [hlast, ← hsame]
  cases h with
  | parted _ hsettled' _ => exact hsettled'.of_step ht hstep'
  | alike h hlate =>
    by_cases hclock : a ≤ s.clock
    · have hclock' : a ≤ t.clock := by simpa [h.clock] using hclock
      exact Settled.of_step ht (.inl hclock') hstep'
    · have hdone' := h.not_done hs.sound ht.sound hdone
      cases hstep' with
      | done htdone => simp [hdone'] at htdone
      | round _ hround' =>
        exact settled_of_halt hs ht h hlate (Int.not_le.mp hclock) hhalt hdone hrun' hround'

end Concur

end Scheduler

-- ---------------------------------------------------------------------------
-- Two workloads with the same early jobs
-- ---------------------------------------------------------------------------

namespace Workload

open Scheduler

variable {w : Workload} {config : Config}

theorem spec_injective : Function.Injective w.spec :=
  List.nodup_iff_injective_get.mp (List.Nodup.of_map _ w.distinct)

/-- The jobs that arrive before a time, if there are any. -/
def early (w : Workload) (a : Int) (hsome : w.specs.filter (·.arrival < a) ≠ []) : Workload where
  specs := w.specs.filter (·.arrival < a)
  nonempty := hsome
  distinct := w.distinct.sublist (List.filter_sublist.map _)

/-- Where the early jobs of a workload stand among all of them. -/
theorem exists_slots (hsome : w.specs.filter (·.arrival < a) ≠ []) :
    ∃ slot : Fin (w.early a hsome).size ↪o Fin w.size,
      (∀ i, w.spec (slot i) = (w.early a hsome).spec i) ∧
        ∀ j ∉ Set.range slot, a ≤ (w.spec j).arrival := by
  have hsublist : (w.early a hsome).specs.Sublist w.specs := List.filter_sublist
  obtain ⟨slot, hslot⟩ := List.sublist_iff_exists_fin_orderEmbedding_get_eq.mp hsublist
  refine ⟨slot, fun i => (hslot i).symm, fun j hj => ?_⟩
  by_contra hearly
  have hmem : w.spec j ∈ (w.early a hsome).specs :=
    List.mem_filter.mpr ⟨mem_specs.mpr ⟨j, rfl⟩, by simpa using hearly⟩
  obtain ⟨i, hi⟩ := mem_specs.mp hmem
  exact hj ⟨i, spec_injective ((hslot i).symm.trans hi)⟩

theorem late_start (h : a ≤ (w.spec i).arrival) : ((w.start config).process i).Late a := by
  rw [process_start]
  exact ⟨rfl, h⟩

/-- The run of a workload concurs with the run of its early jobs. If only the latter stops, all
that starts early has started by then. -/
theorem concur_afterSteps {early : Workload} {slot : Fin early.size ↪o Fin w.size}
    (hspec : ∀ i, w.spec (slot i) = early.spec i)
    (hlate : ∀ j ∉ Set.range slot, a ≤ (w.spec j).arrival)
    (hk : ¬ (w.start config).Stopped .standard k) :
    let s := (early.start config).afterSteps .standard k
    let t := (w.start config).afterSteps .standard k
    (¬ (early.start config).Stopped .standard k ∧ Concur slot a s t) ∨
      (early.start config).Stopped .standard k ∧ t.Settled a ∧
        t.startedBefore a = s.startedBefore a := by
  induction k with
  | zero =>
    refine .inl ⟨not_stopped_zero, .alike (alike_start .refl fun i => ?_) fun j hj =>
      late_start (hlate j hj)⟩
    rw [Translation.ofSlots_slot, hspec]
    exact .refl
  | succ k ih =>
    have hbefore := not_stopped_of_le hk (Nat.le_succ k)
    have hstart : (w.start config).AtRest .standard := atRest_start
    have ht := hstart.afterSteps .standard hbefore
    have hnext' := hstart.next .standard hk
    rcases ih hbefore with ⟨hearly, hconcur⟩ | ⟨hearly, hsettled, hsame⟩
    · have hfirst : (early.start config).AtRest .standard := atRest_start
      have hs := hfirst.afterSteps .standard hearly
      rcases hfirst.next_or_last .standard hearly with hnext | hlast
      · exact .inl ⟨hnext.not_stopped, hconcur.of_steps hs ht hnext.step hnext'.step⟩
      · exact .inr ⟨hlast.stopped,
          hconcur.settled_of_last hs ht hlast.halt hlast.not_done hnext'.run_eq hnext'.step⟩
    · obtain ⟨hsettled', hsame'⟩ := hsettled.of_step ht hnext'.step
      refine .inr ⟨hearly.mono (Nat.le_succ k), hsettled', ?_⟩
      rw [hsame', hsame, hearly.afterSteps_eq (Nat.le_succ k)]

/-- Before a time, the run of a workload is that of its early jobs. -/
theorem startedBefore_early (config : Config) (hsome : w.specs.filter (·.arrival < a) ≠ [])
    (hdone : ((w.start config).afterSteps .standard j).done) (hjk : j ≤ k) :
    ((w.start config).afterSteps .standard j).startedBefore a =
      (((w.early a hsome).start config).afterSteps .standard k).startedBefore a := by
  obtain ⟨slot, hspec, hlate⟩ := exists_slots hsome
  have hsame := atRest_start.afterSteps_eq_of_done .standard hdone hjk
  rw [← hsame] at hdone ⊢
  rcases concur_afterSteps hspec hlate (not_stopped_of_done .standard hdone) with
    ⟨-, hconcur⟩ | ⟨-, -, hstarted⟩
  · exact hconcur.startedBefore_eq
  · exact hstarted

/-- Where all jobs are late, nothing starts early. -/
theorem startedBefore_eq_nil (hnone : w.specs.filter (·.arrival < a) = [])
    (hk : ¬ (w.start config).Stopped .standard k) :
    ((w.start config).afterSteps .standard k).startedBefore a = [] := by
  suffices h : ((w.start config).afterSteps .standard k).Settled a ∧
      ((w.start config).afterSteps .standard k).startedBefore a = [] from h.2
  refine rounds_induction .standard (P := fun s => s.Settled a ∧ s.startedBefore a = []) ?_ ?_ hk
  · refine ⟨.inr fun i => .inr (late_start ?_), rfl⟩
    have hlate := List.filter_eq_nil_iff.mp hnone (w.spec i) (mem_specs.mpr ⟨i, rfl⟩)
    simpa using hlate
  · intro s t hs ⟨hsettled, hstarted⟩ hround
    obtain ⟨hsettled', hsame⟩ := hsettled.of_round hs hround
    exact ⟨hsettled', hsame.trans hstarted⟩

/-- No arrival acts on what a run does before it. If two workloads have the same jobs that
arrive before a time, in the same order, then their runs, once they have ended, have the same
slices that start before that time. What else arrives, and where it is listed, is irrelevant.
A run ends unless it stops at a step that cannot be recorded, and if all of it can be it ends. -/
theorem causal (w w' : Workload) (config : Config) (a : Int)
    (hsame : w.specs.filter (·.arrival < a) = w'.specs.filter (·.arrival < a)) :
    ((∃ k, ((w.start config).afterSteps .standard k).done) ∨
      ¬ w.Recordable config ∧ ∃ k, (w.start config).Stopped .standard k) ∧
    ((∃ k, ((w'.start config).afterSteps .standard k).done) ∨
      ¬ w'.Recordable config ∧ ∃ k, (w'.start config).Stopped .standard k) ∧
    ∀ k k', ((w.start config).afterSteps .standard k).done →
      ((w'.start config).afterSteps .standard k').done →
      ((w.start config).afterSteps .standard k).timeline.toList.filter (·.start < a) =
        ((w'.start config).afterSteps .standard k').timeline.toList.filter (·.start < a) := by
  refine ⟨w.done_or_stopped config .standard, w'.done_or_stopped config .standard,
    fun k k' hdone hdone' => ?_⟩
  show ((w.start config).afterSteps .standard k).startedBefore a =
    ((w'.start config).afterSteps .standard k').startedBefore a
  by_cases hnone : w.specs.filter (·.arrival < a) = []
  · rw [startedBefore_eq_nil hnone (not_stopped_of_done .standard hdone),
      startedBefore_eq_nil (hsame ▸ hnone) (not_stopped_of_done .standard hdone')]
  · have hearly : w'.early a (hsame ▸ hnone) = w.early a hnone := by
      simp only [early, hsame]
    rw [startedBefore_early config hnone hdone (Nat.le_max_left k k'),
      startedBefore_early config (hsame ▸ hnone) hdone' (Nat.le_max_right k k'), hearly]

/-- A long job in front of the reference workload that arrives when the others are there. -/
theorem causal_reference :
    let late : Workload :=
      { specs := ⟨7, 25, 30, false, none, by decide, by decide, by decide⟩ :: reference.specs,
        nonempty := by decide, distinct := by decide }
    reference.specs.filter (·.arrival < 25) = late.specs.filter (·.arrival < 25) ∧
    ∃ k k', ((reference.start .standard).afterSteps .standard k).timeline.toList.filter
        (·.start < 25) =
      ((late.start .standard).afterSteps .standard k').timeline.toList.filter (·.start < 25) := by
  intro late
  have hsame : reference.specs.filter (·.arrival < 25) = late.specs.filter (·.arrival < 25) := rfl
  have hlate : late.Recordable .standard := by
    refine ⟨⟨?_, ?_, ?_⟩, ?_⟩ <;> decide +kernel
  obtain ⟨hend, hend', h⟩ := causal reference late .standard 25 hsame
  obtain ⟨k, hdone⟩ := hend.resolve_right fun hstopped => hstopped.1 recordable_reference
  obtain ⟨k', hdone'⟩ := hend'.resolve_right fun hstopped => hstopped.1 hlate
  exact ⟨hsame, k, k', h k k' hdone hdone'⟩

end Workload

end FeedbackQueue
