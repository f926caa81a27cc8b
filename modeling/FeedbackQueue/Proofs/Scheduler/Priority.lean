import FeedbackQueue.Proofs.Scheduler.Conservation
import FeedbackQueue.Proofs.Scheduler.Timeline

/-!
# The highest priority runs

A slice is given to a process of the highest priority among all that could run when it
starts. Picking the first queue that is not empty is half of it. The other half is that
whoever could run, by the slices so far, stands in a queue by then.
-/

namespace FeedbackQueue

/-- By the slices so far a process may run at a time: it has arrived, it is back from I/O,
or it lost the CPU for another reason. -/
def Eligible (config : Config) (slices : List Slice) (now : Int) (spec : Spec) : Prop :=
  match lastSlice slices spec.pid with
  | none => spec.arrival ≤ now
  | some a => a.outcome = .ioYield → a.stop + config.ioDuration ≤ now

theorem Eligible.readyTime_le {config : Config} {slices : List Slice} {spec : Spec}
    (h : Eligible config slices now spec) (hstop : ∀ a ∈ slices, a.stop ≤ now) :
    readyTime config slices spec ≤ now := by
  unfold Eligible at h
  cases hlast : lastSlice slices spec.pid with
  | none =>
    rw [hlast] at h
    rw [readyTime_of_none hlast]
    exact h
  | some a =>
    rw [hlast] at h
    rw [readyTime_of_some hlast]
    split
    · exact h ‹_›
    · exact hstop a (List.mem_of_mem_filter (List.mem_of_getLast? hlast))

namespace Scheduler

/-- When a step dispatches, whoever is ready by the slices so far stands in a queue. -/
theorem Conserving.ready_prepared {w : Workload} {s : Scheduler w.size}
    {policy : SlicePolicy w.size} {i : Fin w.size} (hs : s.AtRest policy) (h : s.Conserving w)
    (hlive : hasCompleted s.timeline.toList (w.spec i) = false)
    (hready : readyTime s.config s.timeline.toList (w.spec i) ≤ s.clock) :
    (s.prepared.process i).phase = .ready := by
  have hagrees := h.agrees_prepared i
  have hincomplete := hagrees.live_iff.mpr hlive
  by_contra hphase
  -- Whoever is in no queue and holds no CPU waits for a time that has not come.
  have hdue : ∃ time, (s.prepared.process i).due? = some time := by
    cases hcase : (s.prepared.process i).phase with
    | new => exact ⟨_, Proc.due?_eq_some.mpr (.inl ⟨hcase, rfl⟩)⟩
    | ready => exact absurd hcase hphase
    | running => exact absurd hcase (hs.free_prepared i)
    | waiting time => exact ⟨time, Proc.due?_eq_some.mpr (.inr hcase)⟩
    | terminated time => simp [Proc.completion, hcase] at hincomplete
  obtain ⟨time, htime⟩ := hdue
  rw [hagrees.pending htime] at hready
  rw [due?_prepared] at htime
  split at htime
  · simp at htime
  · exact ‹¬ _› (Proc.dueBy_iff.mpr ⟨time, htime, hready⟩)

/-- The round dispatches a process and runs it for the slice, while everybody else who may
run waits in a queue of the same priority or a lower one. -/
theorem Round.slice_highest {w : Workload} {s t : Scheduler w.size} {policy : SlicePolicy w.size}
    (hs : s.AtRest policy) (h : s.Conserving w) (hcharted : s.Charted) (hround : Round policy s t)
    (hrecorded : ∀ i rest, s.prepared.bank.dequeue = some (i, rest) →
      (s.prepared.dispatchEntry i).message.isWritable)
    (hconcat : t.timeline.toList = s.timeline.toList ++ [b]) :
    s.clock = b.start ∧ ∃ i v, (w.spec i).pid = b.pid ∧ (s.prepared.process i).level = b.level ∧
      EStateM.run Sim.dispatch s.prepared = .ok (some i) v ∧
      EStateM.run (Sim.execute policy i) v = .ok b t ∧
      ∀ q, hasCompleted s.timeline.toList (w.spec q) = false →
        Eligible s.config s.timeline.toList b.start (w.spec q) →
          s.prepared.bank.contains q ∧
            q ∈ s.prepared.bank.queueAt (s.prepared.process q).level ∧
            b.level ≤ (s.prepared.process q).level := by
  cases hround with
  | idle _ _ =>
    rw [show (Scheduler.idled _ _).timeline = _ from timeline_prepared] at hconcat
    simp at hconcat
  | @slice i rest d hdequeue hd hpos hle =>
    rw [timeline_ran_prepared, List.append_cancel_left_eq, List.singleton_inj] at hconcat
    subst hconcat
    have hsound := hs.sound.prepared.dispatched hdequeue
    have hrunning := running_dispatched hdequeue
    have hlevel : (s.prepared.process i).level =
        ((s.prepared.dispatched i rest).slice i d).level :=
      (apply_dispatched Proc.level hdequeue fun _ _ => rfl).symm
    have hentry := hrecorded i rest hdequeue
    refine ⟨start_slice_prepared.symm, i, s.prepared.dispatched i rest, ?_, hlevel,
      Sim.run_dispatch hs.sound.prepared hdequeue hentry, ?_, ?_⟩
    · rw [pid_slice_prepared hdequeue, Proc.pid, (h.agrees i).job]
    · exact Sim.run_execute hsound hrunning hd (Int.le_of_lt hpos)
        (remaining_dispatched hdequeue ▸ hle) (isWritable_pid_dispatched hdequeue hentry)
    · intro q hlive heligible
      rw [start_slice_prepared] at heligible
      have hready := h.ready_prepared hs hlive
        (heligible.readyTime_le fun a ha => (hcharted.within a ha).2.2)
      have hbank := hs.sound.prepared.bank
      have hqueued := hbank.mem_queued.mpr hready
      refine ⟨?_, (hbank.located q _).mpr ⟨hready, rfl⟩, ?_⟩
      · simpa [Bank.contains] using hbank.mem_members.mpr hqueued
      · rw [← hlevel]
        exact hbank.level_head_le hdequeue hready

end Scheduler

namespace Workload

open Scheduler

variable {w : Workload} {config : Config} {policy : SlicePolicy w.size}

/-- After some steps that have run the slices before it, the next one runs a slice. -/
structure NextRuns (w : Workload) (config : Config) (policy : SlicePolicy w.size)
    (before : List Slice) (b : Slice) (j : Nat) : Prop where
  before_eq : ((w.start config).afterSteps policy j).timeline.toList = before
  concat_eq : ((w.start config).afterSteps policy (j + 1)).timeline.toList = before ++ [b]
  not_stopped : ¬ (w.start config).Stopped policy (j + 1)
  round : Round policy ((w.start config).afterSteps policy j)
    ((w.start config).afterSteps policy (j + 1))

theorem exists_nextRuns (hpolicy : policy.Steady) (k : Nat) : ∀ before b after,
    ((w.start config).afterSteps policy k).timeline.toList = before ++ b :: after →
      ∃ j < k, w.NextRuns config policy before b j := by
  induction k with
  | zero =>
    intro before b after heq
    simp [start, Scheduler.start] at heq
  | succ k ih =>
    have hearlier : ∀ before b after,
        ((w.start config).afterSteps policy k).timeline.toList = before ++ b :: after →
          ∃ j < k + 1, w.NextRuns config policy before b j := by
      intro before b after heq
      obtain ⟨j, hj, hnext⟩ := ih before b after heq
      exact ⟨j, Nat.lt_succ_of_lt hj, hnext⟩
    rcases atRest_start.afterSteps_cases hpolicy k with
      hsame | ⟨-, ⟨hnot, hround⟩ | hhalt⟩
    · rw [hsame]
      exact hearlier
    · rcases hround.timeline_eq with hsame | ⟨b, hconcat, -⟩
      · rw [hsame]
        exact hearlier
      · rw [hconcat]
        exact forall_split_concat hearlier ⟨k, Nat.lt_succ_self k, rfl, hconcat, hnot, hround⟩
    · rw [hhalt.timeline_eq]
      exact hearlier

theorem NextRuns.atRest (h : w.NextRuns config policy before b j) (hpolicy : policy.Steady) :
    ((w.start config).afterSteps policy j).AtRest policy :=
  atRest_start.afterSteps hpolicy (not_stopped_of_le h.not_stopped (Nat.le_succ j))

/-- A step that runs a slice has recorded what led to it. -/
theorem NextRuns.recorded (h : w.NextRuns config policy before b j) (hpolicy : policy.Steady) :
    (∀ i, ((w.start config).afterSteps policy j).due i →
        ((w.start config).afterSteps policy j).admissible i) ∧
      ∀ i rest, ((w.start config).afterSteps policy j).prepared.bank.dequeue = some (i, rest) →
        (((w.start config).afterSteps policy j).prepared.dispatchEntry i).message.isWritable := by
  have hs := h.atRest hpolicy
  have hstep := atRest_start.run_step_afterSteps hpolicy h.not_stopped
  refine recorded_of_ok hs.sound ?_ hstep
  -- A scheduler that is done runs no more slices.
  by_contra hdone
  rw [run_step_of_done policy (by simpa using hdone), EStateM.Result.ok.injEq] at hstep
  have hconcat := h.concat_eq
  rw [← hstep.2, h.before_eq] at hconcat
  simp at hconcat

/-- When a slice starts, its process has just been dispatched from a bank in which every
other process that has not completed and may run stands too, with the same priority or a
lower one. -/
theorem highest_priority_first (w : Workload) (config : Config) (k : Nat)
    (before after : List Slice) (b : Slice)
    (heq : ((w.start config).afterSteps .standard k).timeline.toList = before ++ b :: after) :
    ∃ j < k,
      let s := (w.start config).afterSteps .standard j
      let u := s.drive .standard [.arrivals, .boost]
      s.timeline.toList = before ∧ u.clock = b.start ∧
      ∃ i v, (w.spec i).pid = b.pid ∧ (u.process i).level = b.level ∧
        EStateM.run Sim.dispatch u = .ok (some i) v ∧
        EStateM.run (Sim.execute .standard i) v =
          .ok b ((w.start config).afterSteps .standard (j + 1)) ∧
        ∀ q, hasCompleted before (w.spec q) = false →
          Eligible config before b.start (w.spec q) →
            u.bank.contains q ∧ q ∈ u.bank.queueAt (u.process q).level ∧
              b.level ≤ (u.process q).level := by
  obtain ⟨j, hj, hnext⟩ := exists_nextRuns .standard k before b after heq
  have hs := hnext.atRest .standard
  obtain ⟨hadmissible, hdispatch⟩ := hnext.recorded .standard
  have hconserving : ((w.start config).afterSteps .standard j).Conserving w :=
    conserving_afterSteps .standard (not_stopped_of_le hnext.not_stopped (Nat.le_succ j))
  obtain ⟨rfl, hconcat, -, hround⟩ := hnext
  have hslice := hround.slice_highest hs hconserving (charted_afterSteps .standard j) hdispatch
    hconcat
  have hprepared := drive_arrivals_boost .standard hs.sound hadmissible
  have hconfig : ((w.start config).afterSteps .standard j).config = config := config_afterSteps j
  rw [← hprepared, hconfig] at hslice
  refine ⟨j, hj, rfl, ?_, hslice.2⟩
  rw [hprepared, clock_prepared]
  exact hslice.1

/-- The first job was demoted at time 10, and stands in a queue again when the second one
starts there. -/
theorem highest_priority_first_reference :
    ((reference.start .standard).afterSteps .standard 2).timeline.toList =
        [⟨1, 0, 10, 0, 10, .demoted⟩] ++ ⟨2, 10, 2, 0, 10, .ioYield⟩ :: [] ∧
      Eligible .standard [⟨1, 0, 10, 0, 10, .demoted⟩] 10 (reference.spec ⟨0, by decide⟩) ∧
      ∃ j < 2, ∃ u, u = ((reference.start .standard).afterSteps .standard j).drive .standard
        [.arrivals, .boost] ∧ u.clock = 10 ∧ u.bank.contains ⟨0, by decide⟩ := by
  have heq : ((reference.start .standard).afterSteps .standard 2).timeline.toList =
      [⟨1, 0, 10, 0, 10, .demoted⟩] ++ ⟨2, 10, 2, 0, 10, .ioYield⟩ :: [] := by decide +kernel
  have heligible : Eligible .standard [⟨1, 0, 10, 0, 10, .demoted⟩] 10
      (reference.spec ⟨0, by decide⟩) :=
    fun ho : Outcome.demoted = .ioYield => absurd ho (by decide)
  obtain ⟨j, hj, -, hclock, -, -, -, -, -, -, hqueued⟩ :=
    highest_priority_first reference .standard 2 _ _ _ heq
  exact ⟨heq, heligible, j, hj, _, rfl, hclock,
    (hqueued ⟨0, by decide⟩ (by decide) heligible).1⟩

end Workload

end FeedbackQueue
