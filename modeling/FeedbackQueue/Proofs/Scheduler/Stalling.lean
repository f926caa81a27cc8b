import FeedbackQueue.Proofs.Scheduler.Records
import FeedbackQueue.Proofs.Scheduler.Termination

/-!
# Stranded processes

Whoever is dispatched without being run keeps the CPU for good: steps run whom they dispatch
themselves. Yet such a process is in nobody's way. A step that can be recorded fails in one
situation only, when nobody but stranded processes is left.
-/

namespace FeedbackQueue

open Finset
open Relation (ReflTransGen)

namespace Scheduler

variable {s t : Scheduler n} {policy : SlicePolicy n}

/-- How many processes hold the CPU. -/
def running (s : Scheduler n) : Nat := #{i | (s.process i).phase = .running}

theorem running_eq_zero : s.running = 0 ↔ ∀ i, (s.process i).phase ≠ .running := by
  simp [running, Finset.filter_eq_empty_iff]

-- ---------------------------------------------------------------------------
-- A step that fails
-- ---------------------------------------------------------------------------

namespace Stranded

/-- Who has not completed is stranded. -/
theorem running_eq (hs : s.Sound) (h : s.Stranded) : (s.running : Int) = n - s.completed := by
  have hcompleted : s.completed = #{i | ¬ (s.process i).phase = .running} := by
    rw [hs.completed, ← card_filter_process]
    refine congrArg Finset.card (Finset.filter_congr fun i _ => ?_)
    rcases h.rest i with hphase | ⟨time, hphase⟩ <;> simp [Proc.completion, hphase]
  have hsplit := Finset.card_filter_add_card_filter_not (s := (Finset.univ : Finset (Fin n)))
    fun i => (s.process i).phase = .running
  rw [Finset.card_univ, Fintype.card_fin] at hsplit
  rw [hcompleted, Scheduler.running]
  omega

theorem arrived_eq (h : s.Stranded) : s.arrived = s :=
  arrived_of_not_due h.not_due

theorem queued_eq_nil (hs : s.Sound) (h : s.Stranded) : s.bank.queued = [] := by
  refine List.eq_nil_iff_forall_not_mem.mpr fun i hi => ?_
  have hready : (s.process i).phase = .ready := hs.bank.mem_queued.mp hi
  rcases h.rest i with hphase | ⟨time, hphase⟩ <;> simp [hphase] at hready

/-- A boost that is due has nobody to move. -/
theorem prepared_eq (hs : s.Sound) (h : s.Stranded) :
    s.prepared = { s with
      booster := if s.booster.due s.clock then s.booster.fire s.clock else s.booster
      log := if s.booster.due s.clock then s.log.push (.boost s.clock 0) else s.log } := by
  have hqueued := h.queued_eq_nil hs
  rw [prepared, h.arrived_eq]
  split
  · rw [boosted, Bank.raiseAll_of_queued hqueued, Bank.belowTop_of_queued hqueued]
    rfl
  · rfl

theorem run_step (hs : s.Sound) (h : s.Stranded) :
    EStateM.run (Sim.step policy) s =
      match s.prepared.stalled.report with
      | .ok r => .error (.stalled s.running s.clock r) s.prepared.stalled
      | .error e => .error (.report e) s.prepared.stalled := by
  have hdone := h.not_done hs
  obtain ⟨hqueued, hnext⟩ := (stranded_iff hs hdone).mp h
  have hcompleted : s.prepared.completed = s.completed := by rw [h.prepared_eq hs]
  have hnobody (i : Fin n) (hi : s.due i) : s.admissible i := by
    rw [h.not_due i] at hi
    cases hi
  rw [Scheduler.run_step policy hs hdone hnobody, Bank.dequeue_eq_none.mpr hqueued]
  simp only [Sim.run_fastForward_none hnext, hcompleted, clock_prepared, ← h.running_eq hs]
  cases s.prepared.stalled.report <;> rfl

theorem after_step (hs : s.Sound) (h : s.Stranded) :
    (Sim.step policy).after s = s.prepared.stalled := by
  rw [Sim.after, h.run_step hs]
  cases s.prepared.stalled.report <;> rfl

/-- All that a failing step does is to record a boost if one is due, and the failure. -/
theorem after_step_eq (hs : s.Sound) (h : s.Stranded) :
    (Sim.step policy).after s = { s with
      booster := if s.booster.due s.clock then s.booster.fire s.clock else s.booster
      log := (if s.booster.due s.clock then s.log.push (.boost s.clock 0) else s.log).push
        (.failure s.clock (stalledMessage s.running)) } := by
  rw [h.after_step hs, h.prepared_eq hs, h.running_eq hs]
  rfl

theorem process_after_step (hs : s.Sound) (h : s.Stranded) (i : Fin n) :
    ((Sim.step policy).after s).process i = s.process i := by
  rw [h.after_step_eq hs]
  rfl

theorem exists_error (hs : s.Sound) (h : s.Stranded) :
    ∃ e, EStateM.run (Sim.step policy) s = .error e ((Sim.step policy).after s) ∧
      e ≠ .numeral .tooLong := by
  rw [h.after_step hs, h.run_step hs]
  cases s.prepared.stalled.report <;> exact ⟨_, rfl, nofun⟩

/-- The error tells how many are stranded, and when, and what has been done. -/
theorem run_step_eq (hs : s.Sound) (h : s.Stranded)
    (hr : ((Sim.step policy).after s).report = .ok r) :
    EStateM.run (Sim.step policy) s =
      .error (.stalled s.running ((Sim.step policy).after s).clock r)
        ((Sim.step policy).after s) := by
  have hclock : s.prepared.stalled.clock = s.clock := clock_prepared
  rw [h.after_step hs] at hr ⊢
  rw [h.run_step hs, hr, hclock]

end Stranded

/-- A step fails only when nobody but stranded processes is left, or when it cannot be
recorded. -/
theorem stranded_or_halts (hs : s.Sound) (hfresh : policy = .standard → s.Fresh)
    (hpolicy : policy.Steady) (herror : EStateM.run (Sim.step policy) s = .error e t) :
    s.Stranded ∨ e = .numeral .tooLong ∧ Halts policy s := by
  by_cases hstranded : s.Stranded
  · exact .inl hstranded
  · cases hdone : s.done with
    | true =>
      rw [run_step_of_done policy hdone] at herror
      cases herror
    | false =>
      rcases round_or_halt hs hfresh hpolicy hdone hstranded with ⟨u, hstep, -⟩ | ⟨u, hstep, hhalt⟩
      · rw [hstep] at herror
        cases herror
      · have hsame := herror.symm.trans hstep
        rw [EStateM.Result.error.injEq] at hsame
        exact .inr ⟨hsame.1, u, hstep, hhalt⟩

theorem step_error_iff (hs : s.Sound) (hfresh : policy = .standard → s.Fresh)
    (hpolicy : policy.Steady) :
    (∃ e, EStateM.run (Sim.step policy) s = .error e ((Sim.step policy).after s) ∧
      e ≠ .numeral .tooLong) ↔ s.Stranded := by
  refine ⟨?_, Stranded.exists_error hs⟩
  rintro ⟨e, herror, hne⟩
  rcases stranded_or_halts hs hfresh hpolicy herror with hstranded | ⟨he, -⟩
  · exact hstranded
  · exact absurd he hne

/-- Where everything can be recorded, there is no other reason to fail. -/
theorem step_error_iff_of_not_halts (hs : s.Sound) (hfresh : policy = .standard → s.Fresh)
    (hpolicy : policy.Steady) (hrecorded : ¬ Halts policy s) :
    (∃ e, EStateM.run (Sim.step policy) s = .error e ((Sim.step policy).after s)) ↔
      s.Stranded := by
  constructor
  · rintro ⟨e, herror⟩
    exact (stranded_or_halts hs hfresh hpolicy herror).resolve_right fun h => hrecorded h.2
  · intro hstranded
    obtain ⟨e, herror, -⟩ := hstranded.exists_error hs
    exact ⟨e, herror⟩

-- ---------------------------------------------------------------------------
-- Rounds around those who hold the CPU
-- ---------------------------------------------------------------------------

theorem process_prepared_of_running (hs : s.Sound) (hi : (s.process i).phase = .running) :
    s.prepared.process i = s.process i := by
  have hdue : s.due i = false := by simp [due, Proc.dueBy, Proc.due?, hi]
  have harrived : s.arrived.process i = s.process i := by simp [process_arrived, hdue]
  unfold prepared
  split
  · rw [process_boosted, if_neg, harrived]
    intro hbelow
    have hready : (s.arrived.process i).phase = .ready := (hs.arrived.bank.mem_belowTop.mp hbelow).1
    simp [harrived, hi] at hready
  · exact harrived

theorem Round.process_of_running (hs : s.Sound) (h : Round policy s t)
    (hi : (s.process i).phase = .running) : t.process i = s.process i := by
  cases h with
  | idle _ _ => exact process_prepared_of_running hs hi
  | @slice j rest d hdequeue _ _ _ =>
    have hne : i ≠ j := by
      rintro rfl
      have hready := hs.prepared.head_ready hdequeue
      simp [process_prepared_of_running hs hi, hi] at hready
    rw [process_ran_prepared_of_ne hdequeue hne, process_prepared_of_running hs hi]

theorem Round.running_iff (hs : s.Sound) (h : Round policy s t) :
    (t.process i).phase = .running ↔ (s.process i).phase = .running := by
  refine ⟨fun hi => ?_, fun hi => (h.process_of_running hs hi).symm ▸ hi⟩
  have hprepared : (s.prepared.process i).phase = .running → (s.process i).phase = .running := by
    rw [phase_prepared]
    split
    · simp
    · exact id
  cases h with
  | idle _ _ => exact hprepared hi
  | @slice j rest d hdequeue _ _ _ =>
    by_cases hij : i = j
    · rw [process_ran, if_pos hij] at hi
      exact absurd hi Proc.phase_settled
    · rw [process_ran_prepared_of_ne hdequeue hij] at hi
      exact hprepared hi

theorem sound_of_rounds (hs : s.Sound) (h : ReflTransGen (Round policy) s t) : t.Sound := by
  induction h with
  | refl => exact hs
  | tail _ hround ih => exact sound_of_moves hround.moves ih

theorem process_of_rounds (hs : s.Sound) (h : ReflTransGen (Round policy) s t)
    (hi : (s.process i).phase = .running) : t.process i = s.process i := by
  induction h with
  | refl => rfl
  | tail hrounds hround ih =>
    rw [hround.process_of_running (sound_of_rounds hs hrounds) (ih.symm ▸ hi), ih]

theorem running_iff_of_rounds (hs : s.Sound) (h : ReflTransGen (Round policy) s t) :
    (t.process i).phase = .running ↔ (s.process i).phase = .running := by
  induction h with
  | refl => exact Iff.rfl
  | tail hrounds hround ih =>
    exact (hround.running_iff (sound_of_rounds hs hrounds)).trans ih

theorem running_of_rounds (hs : s.Sound) (h : ReflTransGen (Round policy) s t) :
    t.running = s.running :=
  congrArg Finset.card (Finset.filter_congr fun _ _ => running_iff_of_rounds hs h)

-- ---------------------------------------------------------------------------
-- Runs from anywhere
-- ---------------------------------------------------------------------------

/-- How the last step of a run ends that starts with `s` and comes to `u` before it: it leaves
everybody completed, or it fails because those who have not completed are stranded or because it
cannot be recorded. -/
inductive LastStep (policy : SlicePolicy n) (s u : Scheduler n) : Prop
  | done {v : Scheduler n} : EStateM.run (Sim.step policy) u = .ok false v → v.done →
      ReflTransGen (Round policy) s v → LastStep policy s u
  | stranded : u.Stranded → ReflTransGen (Round policy) s u → LastStep policy s u
  | refused : Halts policy u → ReflTransGen (Round policy) s u → LastStep policy s u

/-- The steps of a run: `m` steps that leave something to do, and the last one. -/
structure Course (policy : SlicePolicy n) (s : Scheduler n) (m : Nat) : Prop where
  lt_stepBound : m < s.stepBound
  more : ∀ j < m, EStateM.run (Sim.step policy) (s.afterSteps policy j) =
    .ok true (s.afterSteps policy (j + 1))
  last : LastStep policy s (s.afterSteps policy m)

theorem exists_course (hs : s.Sound) (hfresh : policy = .standard → s.Fresh)
    (hpolicy : policy.Steady) : ∃ m, Course policy s m := by
  have howed := hs.owed_nonneg
  have hbound := s.owed_le_stepBound
  have hrounds : s.roundsLeft ≤ ((2 * s.owed).toNat : Int) := by
    unfold roundsLeft
    split <;> omega
  obtain ⟨k, hle, hmoves, hend, hsteps⟩ := exists_end hs hfresh hpolicy hrounds
  -- What is not the last round says that something remains.
  have hmore (j : Nat) (hj : j < k) (hnot : (s.afterSteps policy (j + 1)).done = false) :
      EStateM.run (Sim.step policy) (s.afterSteps policy j) =
        .ok true (s.afterSteps policy (j + 1)) := by
    rw [(hsteps j hj).2, hnot]
    rfl
  have hbefore (hlast : (s.afterSteps policy k).done = false) (j : Nat) (hj : j < k) :
      EStateM.run (Sim.step policy) (s.afterSteps policy j) =
        .ok true (s.afterSteps policy (j + 1)) := by
    refine hmore j hj ?_
    by_cases hnext : j + 1 < k
    · exact (hsteps (j + 1) hnext).1
    · obtain rfl : j + 1 = k := by omega
      exact hlast
  rcases hend with hdone | hstranded | ⟨-, hhalts⟩
  · cases k with
    | zero =>
      exact ⟨0, by omega, fun j hj => absurd hj j.not_lt_zero,
        .done (run_step_of_done policy hdone) hdone .refl⟩
    | succ m =>
      have hstep := (hsteps m (Nat.lt_succ_self m)).2
      rw [hdone] at hstep
      exact ⟨m, by omega, fun j hj => hmore j (by omega) (hsteps (j + 1) (by omega)).1,
        .done hstep hdone hmoves⟩
  · have hnot := hstranded.not_done (sound_of_rounds hs hmoves)
    exact ⟨k, by omega, hbefore hnot, .stranded hstranded hmoves⟩
  · have hnot : (s.afterSteps policy k).done = false := by
      obtain ⟨t, hstep, -⟩ := hhalts
      by_contra hdone
      rw [run_step_of_done policy (by simpa using hdone)] at hstep
      cases hstep
    exact ⟨k, by omega, hbefore hnot, .refused hhalts hmoves⟩

/-- How a run ends depends on whether somebody held the CPU when it began. It completes exactly
those who did not, and nothing happens to those who did. -/
structure Settles (policy : SlicePolicy n) (s u : Scheduler n) : Prop where
  terminated_iff : ∀ i, (∃ time, (u.process i).phase = .terminated time) ↔
    (s.process i).phase ≠ .running
  process : ∀ i, (s.process i).phase = .running → u.process i = s.process i
  run : ∀ r, u.report = .ok r → EStateM.run (Sim.run policy) s =
    if s.running = 0 then .ok r u else .error (.stalled s.running u.clock r) u

namespace Course

theorem run_steps (h : Course policy s m) :
    ∃ bound, EStateM.run (Sim.steps policy s.stepBound) s =
      EStateM.run (Sim.steps policy (bound + 1)) (s.afterSteps policy m) := by
  obtain ⟨bound, hbound⟩ := Nat.exists_eq_add_of_lt h.lt_stepBound
  refine ⟨bound, ?_⟩
  rw [hbound, Nat.add_assoc, run_steps_add _ h.more]

theorem run_of_done (h : Course policy s m)
    (hlast : EStateM.run (Sim.step policy) (s.afterSteps policy m) = .ok false t) :
    EStateM.run (Sim.run policy) s = EStateM.run Sim.report t := by
  obtain ⟨bound, hrun⟩ := h.run_steps
  simp only [Sim.run, EStateM.run_bind, EStateM.run_get, hrun, run_steps_succ, hlast]

theorem run_of_error (h : Course policy s m)
    (hlast : EStateM.run (Sim.step policy) (s.afterSteps policy m) = .error e t) :
    EStateM.run (Sim.run policy) s = .error e t := by
  obtain ⟨bound, hrun⟩ := h.run_steps
  simp only [Sim.run, EStateM.run_bind, EStateM.run_get, hrun, run_steps_succ, hlast]

/-- The steps of a run end with one that leaves nothing to do, or that fails. -/
theorem run_last (hs : s.Sound) (h : Course policy s m) :
    EStateM.run (Sim.step policy) (s.afterSteps policy m) = .ok false ((Sim.run policy).after s) ∨
      ∃ e, EStateM.run (Sim.step policy) (s.afterSteps policy m) =
        .error e ((Sim.run policy).after s) := by
  have herror {e : SchedulerError} {t : Scheduler n}
      (hstep : EStateM.run (Sim.step policy) (s.afterSteps policy m) = .error e t) :
      EStateM.run (Sim.step policy) (s.afterSteps policy m) =
        .error e ((Sim.run policy).after s) := by
    rw [Sim.after_of_error (h.run_of_error hstep), hstep]
  cases h.last with
  | @done t hstep _ _ =>
    have hafter : (Sim.run policy).after s = t := by
      rw [Sim.after, h.run_of_done hstep, Sim.run_report]
      cases t.report <;> rfl
    exact .inl (hafter ▸ hstep)
  | stranded hstranded hrounds =>
    obtain ⟨e, hstep, -⟩ := hstranded.exists_error (sound_of_rounds hs hrounds)
    exact .inr ⟨e, herror hstep⟩
  | refused hhalts _ =>
    obtain ⟨t, hstep, -⟩ := hhalts
    exact .inr ⟨_, herror hstep⟩

theorem settles_of_done (hs : s.Sound) (h : Course policy s m)
    (hstep : EStateM.run (Sim.step policy) (s.afterSteps policy m) = .ok false t) (hdone : t.done)
    (hrounds : ReflTransGen (Round policy) s t) : Settles policy s ((Sim.run policy).after s) := by
  have hall := (sound_of_rounds hs hrounds).done_iff.mp hdone
  have hfree (i : Fin n) : (s.process i).phase ≠ .running := by
    obtain ⟨time, htime⟩ := hall i
    rw [ne_eq, ← running_iff_of_rounds hs hrounds, htime]
    nofun
  have hafter : (Sim.run policy).after s = t := by
    rw [Sim.after, h.run_of_done hstep, Sim.run_report]
    cases t.report <;> rfl
  rw [hafter]
  refine ⟨fun i => iff_of_true (hall i) (hfree i), fun i hi => absurd hi (hfree i), fun r hr => ?_⟩
  rw [if_pos (running_eq_zero.mpr hfree), h.run_of_done hstep, Sim.run_report, hr]

theorem settles_of_stranded (hs : s.Sound) (h : Course policy s m)
    (hstranded : (s.afterSteps policy m).Stranded)
    (hrounds : ReflTransGen (Round policy) s (s.afterSteps policy m)) :
    Settles policy s ((Sim.run policy).after s) := by
  have hsound := sound_of_rounds hs hrounds
  obtain ⟨e, herror, -⟩ := hstranded.exists_error hsound
  have hafter : (Sim.run policy).after s = (Sim.step policy).after (s.afterSteps policy m) :=
    Sim.after_of_error (h.run_of_error herror)
  rw [hafter]
  refine ⟨fun i => ?_, fun i hi => ?_, fun r hr => ?_⟩
  · rw [hstranded.process_after_step hsound, ne_eq, ← running_iff_of_rounds hs hrounds]
    rcases hstranded.rest i with hrunning | ⟨time, htime⟩
    · simp [hrunning]
    · simp [htime]
  · rw [hstranded.process_after_step hsound]
    exact process_of_rounds hs hrounds hi
  · have hsome : s.running ≠ 0 := by
      obtain ⟨i, hi⟩ := hstranded.running
      rw [← running_of_rounds hs hrounds, ne_eq, running_eq_zero]
      exact fun hfree => hfree i hi
    have hstep := hstranded.run_step_eq hsound hr
    rw [running_of_rounds hs hrounds] at hstep
    rw [if_neg hsome, h.run_of_error hstep]

/-- A run settles everything, or it stops in a step that cannot be recorded. -/
theorem settles (hs : s.Sound) (h : Course policy s m) :
    Settles policy s ((Sim.run policy).after s) ∨
      EStateM.run (Sim.run policy) s = .error (.numeral .tooLong) ((Sim.run policy).after s) ∧
        Halts policy (s.afterSteps policy m) := by
  cases h.last with
  | done hstep hdone hrounds => exact .inl (h.settles_of_done hs hstep hdone hrounds)
  | stranded hstranded hrounds => exact .inl (h.settles_of_stranded hs hstranded hrounds)
  | refused hhalts _ =>
    obtain ⟨t, hstep, hhalt⟩ := hhalts
    have hrun := h.run_of_error hstep
    exact .inr ⟨Sim.after_of_error hrun ▸ hrun, t, hstep, hhalt⟩

end Course

end Scheduler

namespace Workload

open Scheduler

variable {w : Workload} {config : Config}

/-- Where everything can be recorded, steps do not stop for that reason. -/
theorem not_halts (hw : w.Recordable config) (calls : List (Scheduler.Call w.size)) (k : Nat) :
    ¬ Halts .standard (((w.start config).drive .standard calls).afterSteps .standard k) := by
  obtain ⟨more, hmore⟩ := ((w.start config).drive .standard calls).exists_drive .standard k
  rw [hmore, ← drive_append]
  rintro ⟨t, -, hhalt⟩
  exact (legible_drive hw.toLegible _).not_halt (bounded_drive .standard hw.horizon _)
    (sound_drive _) (fun _ => fresh_drive _) .standard hhalt

/-- However a workload is driven, a step that can be recorded fails exactly when nobody but
stranded processes is left, and then all it has done is to record that, after a boost if one was
due. A run from there ends. If all of it can be recorded it fails exactly if somebody held the CPU
when it began; those alone have not completed by then, and nothing has happened to them. -/
theorem fatal_idle_exact (w : Workload) (config : Config) (calls : List (Scheduler.Call w.size)) :
    let s := (w.start config).drive .standard calls
    let t := (Sim.step .standard).after s
    let u := (Sim.run .standard).after s
    ((∃ e, EStateM.run (Sim.step .standard) s = .error e t ∧ e ≠ .numeral .tooLong) ↔
      s.Stranded) ∧
    (s.Stranded →
      t = { s with
        booster := if s.booster.due s.clock then s.booster.fire s.clock else s.booster
        log := (if s.booster.due s.clock then s.log.push (.boost s.clock 0) else s.log).push
          (.failure s.clock (stalledMessage s.running)) } ∧
      ∀ r, t.report = .ok r →
        EStateM.run (Sim.step .standard) s = .error (.stalled s.running t.clock r) t) ∧
    (∃ m, (∀ j < m, EStateM.run (Sim.step .standard) (s.afterSteps .standard j) =
        .ok true (s.afterSteps .standard (j + 1))) ∧
      (EStateM.run (Sim.step .standard) (s.afterSteps .standard m) = .ok false u ∨
        ∃ e, EStateM.run (Sim.step .standard) (s.afterSteps .standard m) = .error e u)) ∧
    (Settles .standard s u ∨ EStateM.run (Sim.run .standard) s = .error (.numeral .tooLong) u) ∧
    (w.Recordable config →
      ((∃ e, EStateM.run (Sim.step .standard) s = .error e t) ↔ s.Stranded) ∧
        Settles .standard s u) := by
  intro s t u
  have hs : s.Sound := sound_drive calls
  have hfresh : s.Fresh := fresh_drive calls
  obtain ⟨m, hcourse⟩ := exists_course hs (fun _ => hfresh) .standard
  have hsettles := hcourse.settles hs
  refine ⟨step_error_iff hs (fun _ => hfresh) .standard,
    fun h => ⟨h.after_step_eq hs, fun r hr => h.run_step_eq hs hr⟩,
    ⟨m, hcourse.more, hcourse.run_last hs⟩, hsettles.imp_right And.left, fun hw => ⟨?_, ?_⟩⟩
  · exact step_error_iff_of_not_halts hs (fun _ => hfresh) .standard (not_halts hw calls 0)
  · exact hsettles.resolve_right fun h => not_halts hw calls m h.2

/-- Dispatching everybody and running nobody strands everybody. -/
example :
    let s := (reference.start .standard).drive .standard
      [.arrivals, .dispatch, .dispatch, .dispatch, .fastForward, .arrivals, .dispatch,
        .fastForward, .arrivals, .dispatch]
    (match EStateM.run (Sim.step .standard) s with
      | .ok _ _ => none
      | .error e t => some (e.message, t.clock)) =
        some ("No process to run but 5 process(es) not completed", 20) := by
  decide +kernel

/-- The run of the late job fails with nobody on the CPU, since it has to wait for a time that is
too long to be written. -/
theorem late_job_fails :
    let s := lateJob.start .standard
    s.running = 0 ∧
      (EStateM.run (Sim.run .standard) s matches .error (.numeral .tooLong) _) ∧
      ∀ i, (((Sim.run .standard).after s).process i).phase matches .waiting _ := by
  decide +kernel

end Workload

end FeedbackQueue
