import FeedbackQueue.Proofs.Scheduler.Admission

/-!
# Stages called again before a step

A step begins with an admission and a boost, so whoever calls them before the step does a part
of its work. This takes nothing from it and adds nothing to it: one scan admits everybody who is
due, a boost makes nobody due, and a timer that has fired does not fire again at the same
instant. An admission has to come first, since a boost that fires before it would put those whom
it moves in front of those who arrive. And it must not fail: an admission that cannot be recorded
leaves the process queued, so the step after it goes on where it would have failed itself.
-/

namespace FeedbackQueue

namespace Sim

/-- A stage with which a step begins. -/
inductive Opening where
  | arrivals | boost
deriving DecidableEq, Repr

def opening : Opening → Sim n Unit
  | .arrivals => do let _ ← admitArrivals
  | .boost => do let _ ← applyBoost

/-- An admission, and then more of the stages with which a step begins, in any order. -/
def rehearse (more : List Opening) : Sim n Unit := do
  let _ ← admitArrivals
  more.forM opening

/-- Steps until nothing remains, each of which may be rehearsed before it is taken. -/
def rehearsedSteps (policy : SlicePolicy n) (extra : Nat → Option (List Opening)) :
    Nat → Sim n Unit
  | 0 => throw .endless
  | fuel + 1 => do
    (extra 0).forM rehearse
    if ← step policy then rehearsedSteps policy (fun k => extra (k + 1)) fuel

def rehearsedRun (policy : SlicePolicy n) (extra : Nat → Option (List Opening)) :
    Sim n Report := do
  rehearsedSteps policy extra (← get).stepBound
  report

end Sim

namespace Scheduler

variable {s t : Scheduler n} {policy : SlicePolicy n}

-- ---------------------------------------------------------------------------
-- Once is enough
-- ---------------------------------------------------------------------------

theorem arrived_arrived (s : Scheduler n) : s.arrived.arrived = s.arrived :=
  arrived_of_not_due s.due_arrived

theorem due_boosted (s : Scheduler n) (i : Fin n) : s.boosted.due i = s.due i := by
  have hclock : s.boosted.clock = s.clock := rfl
  rw [due, process_boosted, hclock]
  split <;> rfl

theorem due_prepared (s : Scheduler n) (i : Fin n) : s.prepared.due i = false := by
  unfold prepared
  split
  · rw [due_boosted, due_arrived]
  · exact s.due_arrived i

theorem arrived_prepared (s : Scheduler n) : s.prepared.arrived = s.prepared :=
  arrived_of_not_due s.due_prepared

/-- A boost that was due has fired. -/
theorem not_due_prepared (s : Scheduler n) : s.prepared.booster.due s.prepared.clock = false := by
  unfold prepared
  split
  · have hpos := s.arrived.booster.interval_pos
    have hlast : s.arrived.boosted.booster.last = s.arrived.boosted.clock := rfl
    rw [Booster.due, hlast, Int.sub_self]
    exact decide_eq_false (Int.not_le.mpr hpos)
  · exact Bool.eq_false_iff.mpr ‹_›

theorem prepared_arrived (s : Scheduler n) : s.arrived.prepared = s.prepared := by
  rw [prepared, arrived_arrived, prepared]

theorem prepared_prepared (s : Scheduler n) : s.prepared.prepared = s.prepared := by
  have hdue := s.not_due_prepared
  rw [← arrived_prepared] at hdue
  rw [prepared_of_not_due, arrived_prepared]
  simpa using hdue

-- ---------------------------------------------------------------------------
-- Rehearsals
-- ---------------------------------------------------------------------------

/-- Where the stages with which a step begins lead, once there has been an admission. -/
inductive Rehearsed (s : Scheduler n) : Scheduler n → Prop
  | arrived : Rehearsed s s.arrived
  | prepared : Rehearsed s s.prepared

theorem run_opening_arrivals (ht : t.Sound) (hdue : ∀ i, t.due i = false) :
    EStateM.run (Sim.opening .arrivals) t = .ok () t := by
  have hnobody (i : Fin n) (hi : t.due i) : t.admissible i := by
    rw [hdue i] at hi
    cases hi
  rw [Sim.opening, EStateM.run_bind, Sim.run_admitArrivals ht hnobody, arrived_of_not_due hdue]
  rfl

theorem run_opening_boost : EStateM.run (Sim.opening .boost) t =
    .ok () (if t.booster.due t.clock then t.boosted else t) := by
  rw [Sim.opening, EStateM.run_bind, Sim.run_applyBoost]
  cases t.booster.due t.clock <;> rfl

namespace Rehearsed

theorem sound (hs : s.Sound) (h : s.Rehearsed t) : t.Sound := by
  cases h with
  | arrived => exact hs.arrived
  | prepared => exact hs.prepared

theorem done_eq (h : s.Rehearsed t) : t.done = s.done := by
  cases h with
  | arrived => exact congrArg (· == n) completed_arrived
  | prepared => exact done_prepared

theorem prepared_eq (h : s.Rehearsed t) : t.prepared = s.prepared := by
  cases h with
  | arrived => exact s.prepared_arrived
  | prepared => exact s.prepared_prepared

/-- Nobody is left to be admitted. -/
theorem not_due (h : s.Rehearsed t) (i : Fin n) : t.due i = false := by
  cases h with
  | arrived => exact s.due_arrived i
  | prepared => exact s.due_prepared i

theorem run_opening (hs : s.Sound) (h : s.Rehearsed t) (o : Sim.Opening) :
    ∃ u, EStateM.run (Sim.opening o) t = .ok () u ∧ s.Rehearsed u := by
  cases o with
  | arrivals => exact ⟨t, run_opening_arrivals (h.sound hs) h.not_due, h⟩
  | boost =>
    refine ⟨s.prepared, ?_, .prepared⟩
    rw [run_opening_boost]
    cases h with
    | arrived => rfl
    | prepared => rw [s.not_due_prepared, if_neg Bool.false_ne_true]

theorem run_openings (hs : s.Sound) (h : s.Rehearsed t) (more : List Sim.Opening) :
    ∃ u, EStateM.run (more.forM Sim.opening) t = .ok () u ∧ s.Rehearsed u := by
  induction more generalizing t with
  | nil => exact ⟨t, rfl, h⟩
  | cons o rest ih =>
    obtain ⟨u, hu, hrehearsed⟩ := h.run_opening hs o
    obtain ⟨v, hv, hrest⟩ := ih hrehearsed
    refine ⟨v, ?_, hrest⟩
    have hcons : (o :: rest).forM Sim.opening =
        (do Sim.opening o; rest.forM Sim.opening : Sim n Unit) := List.forM_cons
    rw [hcons, EStateM.run_bind, hu]
    exact hv

/-- What has been rehearsed is what the step would have done first. -/
theorem run_step (hs : s.Sound) (hdone : s.done = false)
    (hadmissible : ∀ i, s.due i → s.admissible i) (h : s.Rehearsed t) :
    EStateM.run (Sim.step policy) t = EStateM.run (Sim.step policy) s := by
  have hnobody (i : Fin n) (hi : t.due i) : t.admissible i := by
    rw [h.not_due i] at hi
    cases hi
  rw [Scheduler.run_step policy (h.sound hs) (h.done_eq.trans hdone) hnobody, h.prepared_eq,
    Scheduler.run_step policy hs hdone hadmissible]

end Rehearsed

/-- A rehearsal does not fail if its admission can be recorded. -/
theorem run_rehearse (hs : s.Sound) (hadmissible : ∀ i, s.due i → s.admissible i)
    (more : List Sim.Opening) :
    ∃ t, EStateM.run (Sim.rehearse more) s = .ok () t ∧ s.Rehearsed t := by
  obtain ⟨t, ht, hrehearsed⟩ := Rehearsed.run_openings hs .arrived more
  refine ⟨t, ?_, hrehearsed⟩
  rw [Sim.rehearse, EStateM.run_bind, Sim.run_admitArrivals hs hadmissible]
  exact ht

theorem run_rehearsed_step (hs : s.Sound) (hdone : s.done = false)
    (hadmissible : ∀ i, s.due i → s.admissible i) (more : List Sim.Opening) :
    EStateM.run (do Sim.rehearse more; Sim.step policy) s = EStateM.run (Sim.step policy) s := by
  obtain ⟨t, ht, hrehearsed⟩ := run_rehearse hs hadmissible more
  rw [EStateM.run_bind, ht]
  exact hrehearsed.run_step hs hdone hadmissible

/-- A step says whether something remains. -/
theorem done_of_run_step (hs : s.Sound) (h : EStateM.run (Sim.step policy) s = .ok more t) :
    t.done = !more := by
  cases hdone : s.done with
  | true =>
    rw [run_step_of_done policy hdone] at h
    cases h
    exact hdone
  | false =>
    rw [run_step policy hs hdone (recorded_of_ok hs hdone h).1] at h
    split at h
    · split at h <;> cases h
      exact (Bool.not_not _).symm
    · split at h
      · split at h <;> cases h
        exact (Bool.not_not _).symm
      · cases h

/-- Every admission can be recorded, now and later. -/
def Announceable (s : Scheduler n) : Prop :=
  ∀ i, Text.isWritable (s.process i).pid ∧ Text.isWritable (s.process i).spec.burst

theorem Announceable.of_advances (h : s.Announceable)
    (hadvances : Relation.ReflTransGen (Advance policy) s t) : t.Announceable := by
  intro i
  rw [Proc.pid, spec_of_advances hadvances]
  exact h i

theorem run_rehearsedSteps (hs : s.Sound) (hdone : s.done = false) (hw : s.Announceable)
    (extra : Nat → Option (List Sim.Opening)) (fuel : Nat) :
    EStateM.run (Sim.rehearsedSteps policy extra fuel) s =
      EStateM.run (Sim.steps policy fuel) s := by
  induction fuel generalizing s extra with
  | zero => rfl
  | succ fuel ih =>
    have hstep : EStateM.run (do (extra 0).forM Sim.rehearse; Sim.step policy) s =
        EStateM.run (Sim.step policy) s := by
      cases extra 0 with
      | none => rfl
      | some more =>
        exact run_rehearsed_step hs hdone (fun i _ => admissible_of_isWritable (hw i).1 (hw i).2)
          more
    rw [Sim.rehearsedSteps, Sim.steps, ← bind_assoc, EStateM.run_bind, hstep, EStateM.run_bind]
    cases hrun : EStateM.run (Sim.step policy) s with
    | error e t => rfl
    | ok more t =>
      cases more with
      | false => rfl
      | true =>
        have hadvances := advances_call policy hs .step
        rw [call, Sim.after, hrun] at hadvances
        exact ih (sound_of_advances hadvances hs) (done_of_run_step hs hrun)
          (hw.of_advances hadvances) _

theorem run_rehearsedRun (hs : s.Sound) (hdone : s.done = false) (hw : s.Announceable)
    (extra : Nat → Option (List Sim.Opening)) :
    EStateM.run (Sim.rehearsedRun policy extra) s = EStateM.run (Sim.run policy) s := by
  simp only [Sim.rehearsedRun, Sim.run, EStateM.run_bind, EStateM.run_get,
    run_rehearsedSteps hs hdone hw]

end Scheduler

namespace Workload

/-- However a workload is driven, as long as somebody has not completed, a step does the same and
answers or fails with the same after a rehearsal as without one, if the admissions that are due
can be recorded. So does a whole run, whichever of its steps are rehearsed, if the pids and the
burst times can be written. -/
theorem rehearsals_harmless (w : Workload) (config : Config) (policy : SlicePolicy w.size)
    (calls : List (Scheduler.Call w.size)) :
    let s := (w.start config).drive policy calls
    s.done = false →
      ((∀ i, s.Ripe i → s.admissible i) →
        ∀ more, EStateM.run (do Sim.rehearse more; Sim.step policy) s =
          EStateM.run (Sim.step policy) s) ∧
      ((∀ i, Text.isWritable (w.spec i).pid ∧ Text.isWritable (w.spec i).burst) →
        ∀ extra, EStateM.run (Sim.rehearsedRun policy extra) s =
          EStateM.run (Sim.run policy) s) := by
  intro s hdone
  have hs : s.Sound := sound_drive calls
  refine ⟨fun hadmissible => Scheduler.run_rehearsed_step hs hdone fun i hi =>
    hadmissible i (Scheduler.ripe_iff.mpr hi), fun hw => Scheduler.run_rehearsedRun hs hdone ?_⟩
  intro i
  rw [Proc.pid, show (s.process i).spec = w.spec i from spec_drive calls i]
  exact hw i

/-- The first process of the reference workload, dispatched but not yet run. -/
theorem rehearsals_harmless_reference :
    let s := (reference.start .standard).drive .standard [.arrivals, .dispatch]
    let extra := fun k => if k % 2 = 0 then some [.boost, .arrivals, .boost] else none
    s.done = false ∧
      EStateM.run (Sim.rehearsedRun .standard extra) s = EStateM.run (Sim.run .standard) s := by
  intro s extra
  have hdone : s.done = false := by decide +kernel
  have hlegible := recordable_reference.toLegible
  exact ⟨hdone, (rehearsals_harmless reference .standard .standard _ hdone).2
    (fun i => ⟨hlegible.pid i, hlegible.burst i⟩) extra⟩

/-- The step alone fails over the admission of a job that no message can tell of. After an
admission that has failed over it before, the step fails over the dispatch. -/
theorem long_burst_rehearsed :
    let s := longBurst.start .standard
    let alone := s.drive .standard [.step]
    let rehearsed := s.drive .standard [.arrivals, .step]
    (alone.process ⟨0, by decide⟩).phase = .ready ∧
      (rehearsed.process ⟨0, by decide⟩).phase = .running := by
  decide +kernel

end Workload

end FeedbackQueue
