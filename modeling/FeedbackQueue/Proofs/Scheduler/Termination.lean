import FeedbackQueue.Proofs.Scheduler.Legible

/-!
# Every run ends

A slice delivers at least one unit of CPU time and an idle jump delivers none, but
after a jump somebody waits, so the next round is a slice. Twice the CPU time owed,
less one when somebody waits, is therefore a bound on the rounds that are left. A run
ends before that only in a step that cannot be recorded.
-/

namespace FeedbackQueue

open Relation (ReflTransGen)

namespace Scheduler

variable {s t : Scheduler n} {policy : SlicePolicy n}

/-- The CPU time that all processes together still need. -/
def owed (s : Scheduler n) : Int := ∑ i, (s.process i).remaining

/-- At most this many rounds are left. -/
def roundsLeft (s : Scheduler n) : Int :=
  2 * s.owed - if s.prepared.bank.queued = [] then 0 else 1

theorem Sound.owed_nonneg (hs : s.Sound) : 0 ≤ s.owed :=
  Finset.sum_nonneg fun i _ => (hs.process i).remaining_nonneg

theorem Sound.owed_pos (hs : s.Sound) (hdone : s.done = false) : 0 < s.owed := by
  have hlive : ∃ i, (s.process i).completion = none := by
    by_contra hall
    simp only [not_exists, ← ne_eq, ← Option.isSome_iff_ne_none, Proc.isSome_completion] at hall
    rw [hs.done_iff.mpr hall] at hdone
    simp at hdone
  obtain ⟨i, hi⟩ := hlive
  calc 0 < (s.process i).remaining := hs.remaining_pos hi
    _ ≤ s.owed := Finset.single_le_sum
      (fun j _ => (hs.process j).remaining_nonneg) (Finset.mem_univ i)

theorem Sound.roundsLeft_pos (hs : s.Sound) (hdone : s.done = false) : 0 < s.roundsLeft := by
  have howed := hs.owed_pos hdone
  unfold roundsLeft
  split <;> omega

theorem owed_slice (hdequeue : s.prepared.bank.dequeue = some (i, rest)) (hd : 0 < d) :
    ((s.prepared.dispatched i rest).ran i d).owed < s.owed := by
  have hremaining (j) : (((s.prepared.dispatched i rest).ran i d).process j).remaining =
      if j = i then (s.process i).remaining - d else (s.process j).remaining := by
    rw [process_ran]
    split
    · rw [processAfter, Proc.remaining_settled, Proc.remaining_ran, remaining_dispatched hdequeue]
    · exact remaining_dispatched hdequeue
  apply Finset.sum_lt_sum
  · intro j _
    rw [hremaining]
    split
    · subst j; omega
    · exact Int.le_refl _
  · refine ⟨i, Finset.mem_univ i, ?_⟩
    rw [hremaining, if_pos rfl]
    omega

/-- After a jump to the next event somebody waits for the CPU. -/
theorem Sound.queued_idled (hs : s.Sound) (hnext : s.prepared.nextEvent = some target) :
    (s.prepared.idled target).prepared.bank.queued ≠ [] := by
  obtain ⟨⟨i, hi⟩, -⟩ := nextEvent_eq_some.mp hnext
  have hdue : (s.prepared.idled target).due i := by
    rw [due, Proc.dueBy_iff]
    exact ⟨target, hi, Int.le_max_left target s.prepared.clock⟩
  have hready : ((s.prepared.idled target).prepared.process i).phase = .ready := by
    rw [phase_prepared, if_pos hdue]
  have hsound : (s.prepared.idled target).prepared.Sound := hs.prepared.idled.prepared
  exact List.ne_nil_of_mem (hsound.bank.mem_queued.mpr hready)

theorem Round.roundsLeft_lt (hs : s.Sound) (h : Round policy s t) :
    t.roundsLeft < s.roundsLeft := by
  cases h with
  | @idle target hqueued hnext =>
    have howed : (s.prepared.idled target).owed = s.owed :=
      Finset.sum_congr rfl fun _ _ => remaining_prepared
    rw [roundsLeft, roundsLeft, howed, if_pos hqueued, if_neg (hs.queued_idled hnext)]
    omega
  | slice hdequeue hd hpos hle =>
    have howed := owed_slice hdequeue hpos
    unfold roundsLeft
    split <;> split <;> omega

/-- The next step of the scheduler cannot be recorded. -/
def Halts (policy : SlicePolicy n) (s : Scheduler n) : Prop :=
  ∃ t, EStateM.run (Sim.step policy) s = .error (.numeral .tooLong) t ∧ s.Halt t

/-- Within the rounds that are left every step succeeds, until everybody has completed, those
who have not are stranded, or there is a step that cannot be recorded. -/
theorem exists_end (hs : s.Sound) (hfresh : policy = .standard → s.Fresh)
    (hpolicy : policy.Steady) (hbound : s.roundsLeft ≤ (bound : Nat)) :
    ∃ k ≤ bound, ReflTransGen (Round policy) s (s.afterSteps policy k) ∧
      ((s.afterSteps policy k).done ∨ (s.afterSteps policy k).Stranded ∨
        k < bound ∧ Halts policy (s.afterSteps policy k)) ∧
      ∀ j < k, (s.afterSteps policy j).done = false ∧
        EStateM.run (Sim.step policy) (s.afterSteps policy j) =
          .ok (!(s.afterSteps policy (j + 1)).done) (s.afterSteps policy (j + 1)) := by
  -- A round takes at least one off `roundsLeft`, so what follows it fits a smaller bound.
  induction bound generalizing s with
  | zero =>
    have hdone : s.done := by
      by_contra hdone
      have hpos := hs.roundsLeft_pos (by simpa using hdone)
      omega
    exact ⟨0, Nat.le_refl 0, .refl, .inl hdone, nofun⟩
  | succ bound ih =>
    cases hdone : s.done with
    | true => exact ⟨0, Nat.zero_le _, .refl, .inl hdone, nofun⟩
    | false =>
      by_cases hstranded : s.Stranded
      · exact ⟨0, Nat.zero_le _, .refl, .inr (.inl hstranded), nofun⟩
      rcases round_or_halt hs hfresh hpolicy hdone hstranded with ⟨t, hstep, hround⟩ | hhalts
      · have hlt := hround.roundsLeft_lt hs
        have hadvances := advances_of_moves hround.moves
        have hfresh' : policy = .standard → t.Fresh := by
          rintro rfl
          exact fresh_of_advances hadvances hs (hfresh rfl)
        obtain ⟨k, hle, hrounds, hend, hsteps⟩ :=
          ih (sound_of_advances hadvances hs) hfresh' (by omega)
        refine ⟨k + 1, Nat.succ_le_succ hle, ?_, ?_, ?_⟩
        · rw [afterSteps_of_ok policy hstep]
          exact .head hround hrounds
        · rw [afterSteps_of_ok policy hstep]
          exact hend.imp_right (Or.imp_right fun h => ⟨Nat.succ_lt_succ h.1, h.2⟩)
        · intro j hj
          cases j with
          | zero =>
            rw [afterSteps_of_ok policy hstep]
            exact ⟨hdone, hstep⟩
          | succ j =>
            rw [afterSteps_of_ok policy hstep, afterSteps_of_ok policy hstep]
            exact hsteps j (Nat.lt_of_succ_lt_succ hj)
      · exact ⟨0, Nat.zero_le _, .refl, .inr (.inr ⟨Nat.succ_pos bound, hhalts⟩), nofun⟩

theorem AtRest.of_rounds (hs : s.AtRest policy) (h : ReflTransGen (Round policy) s t) :
    t.AtRest policy := by
  induction h with
  | refl => exact hs
  | tail _ hround ih => exact ih.of_round hround

/-- A number of steps that all succeed, of which only the last one answers that nothing
remains, and by which everything is done. -/
structure Ends (policy : SlicePolicy n) (s : Scheduler n) (k : Nat) : Prop where
  pos : 0 < k
  steps : ∀ j < k, EStateM.run (Sim.step policy) (s.afterSteps policy j) =
    .ok (decide (j + 1 < k)) (s.afterSteps policy (j + 1))
  done : (s.afterSteps policy k).done

/-- A number of steps that all succeed and leave something to be done, and the step after them
fails because it cannot be recorded. -/
structure Breaks (policy : SlicePolicy n) (s : Scheduler n) (k : Nat) : Prop where
  steps : ∀ j < k, EStateM.run (Sim.step policy) (s.afterSteps policy j) =
    .ok true (s.afterSteps policy (j + 1))
  refused : Halts policy (s.afterSteps policy k)

/-- Between rounds nobody is stranded, so everybody completes if all can be recorded. -/
theorem AtRest.ends (hpolicy : policy.Steady) (hs : s.AtRest policy) (hdone : s.done = false)
    (hbound : s.roundsLeft ≤ (bound : Nat)) :
    (∃ k ≤ bound, Ends policy s k) ∨ ∃ k < bound, Breaks policy s k := by
  obtain ⟨k, hle, hrounds, hend, hsteps⟩ := exists_end hs.sound hs.fresh hpolicy hbound
  rcases hend with hfinal | hstranded | ⟨hlt, hhalts⟩
  · refine .inl ⟨k, hle, Nat.pos_of_ne_zero ?_, fun j hj => ?_, hfinal⟩
    · rintro rfl
      rw [afterSteps_zero, hdone] at hfinal
      cases hfinal
    · rw [(hsteps j hj).2]
      by_cases hlast : j + 1 < k
      · simp [hlast, (hsteps (j + 1) hlast).1]
      · obtain rfl : j + 1 = k := by omega
        simp [hfinal]
  · exact absurd hstranded (hs.of_rounds hrounds).not_stranded
  · refine .inr ⟨k, hlt, fun j hj => ?_, hhalts⟩
    have hmore : (s.afterSteps policy (j + 1)).done = false := by
      by_cases hlast : j + 1 < k
      · exact (hsteps (j + 1) hlast).1
      · obtain rfl : j + 1 = k := by omega
        obtain ⟨t, hstep, -⟩ := hhalts
        by_contra hfinal
        rw [run_step_of_done policy (by simpa using hfinal)] at hstep
        cases hstep
    rw [(hsteps j hj).2, hmore]
    rfl

/-- As long as steps say that something remains, a run goes on from where they lead. -/
theorem run_steps_add (bound : Nat)
    (hsteps : ∀ j < k, EStateM.run (Sim.step policy) (s.afterSteps policy j) =
      .ok true (s.afterSteps policy (j + 1))) :
    EStateM.run (Sim.steps policy (k + bound)) s =
      EStateM.run (Sim.steps policy bound) (s.afterSteps policy k) := by
  induction k generalizing s with
  | zero => rw [Nat.zero_add, afterSteps_zero]
  | succ k ih =>
    obtain ⟨t, hstep⟩ : ∃ t, EStateM.run (Sim.step policy) s = .ok true t :=
      ⟨_, hsteps 0 (Nat.succ_pos k)⟩
    rw [Nat.succ_add, run_steps_succ, hstep, afterSteps_of_more hstep]
    refine ih fun j hj => ?_
    have hnext := hsteps (j + 1) (Nat.succ_lt_succ hj)
    rwa [afterSteps_of_more hstep, afterSteps_of_more hstep] at hnext

theorem owed_le_stepBound (s : Scheduler n) : 2 * s.owed + 2 ≤ s.stepBound := by
  have hsum (l : List Proc) : (l.map Proc.remaining).sum ≤
      ((l.foldr (fun p sum => p.remaining.toNat + sum) 0 : Nat) : Int) := by
    induction l with
    | nil => simp
    | cons p rest ih =>
      have hself := Int.self_le_toNat p.remaining
      simp at ih ⊢
      omega
  have howed : s.owed = (s.bank.processes.toList.map Proc.remaining).sum := by
    rw [owed, Fin.sum_univ_def, toList_processes, List.map_map]
    rfl
  have h := hsum s.bank.processes.toList
  rw [howed, stepBound]
  omega

/-- A bound on the steps of a run that is not too small makes no difference. -/
theorem Ends.run_steps (h : Ends policy s k) (hle : k ≤ bound) :
    EStateM.run (Sim.steps policy bound) s = .ok () (s.afterSteps policy k) := by
  obtain ⟨k, rfl⟩ := Nat.exists_eq_succ_of_ne_zero h.pos.ne'
  obtain ⟨rest, rfl⟩ := Nat.exists_eq_add_of_le hle
  have hbefore (j : Nat) (hj : j < k) : EStateM.run (Sim.step policy) (s.afterSteps policy j) =
      .ok true (s.afterSteps policy (j + 1)) := by
    simpa [hj] using h.steps j (Nat.lt_succ_of_lt hj)
  have hlast := h.steps k (Nat.lt_succ_self k)
  rw [decide_eq_false (Nat.lt_irrefl _)] at hlast
  rw [Nat.succ_add, ← Nat.add_succ, run_steps_add _ hbefore, run_steps_succ, hlast]

theorem Breaks.run_steps (h : Breaks policy s k) (hlt : k < bound) :
    ∃ t, EStateM.run (Sim.steps policy bound) s = .error (.numeral .tooLong) t := by
  obtain ⟨rest, rfl⟩ := Nat.exists_eq_add_of_le hlt
  obtain ⟨t, hstep, -⟩ := h.refused
  rw [Nat.succ_add, ← Nat.add_succ, run_steps_add _ h.steps, run_steps_succ, hstep]
  exact ⟨t, rfl⟩

theorem Breaks.stopped (h : Breaks policy s k) : s.Stopped policy (k + 1) :=
  h.run_steps (Nat.lt_succ_self k)

end Scheduler

namespace Workload

variable {w : Workload} {config : Config} {policy : SlicePolicy w.size}

theorem done_start : (w.start config).done = false := by
  have hsize : w.size ≠ 0 := fun h => w.nonempty (List.length_eq_zero_iff.mp h)
  simpa [Scheduler.done, start, Scheduler.start] using hsize.symm

theorem owed_start : (w.start config).owed = (w.specs.map Spec.burst).sum := by
  simp only [Scheduler.owed, process_start]
  exact Fin.sum_univ_fun_getElem w.specs Spec.burst

theorem roundsLeft_start_le :
    (w.start config).roundsLeft ≤ 2 * (w.specs.map Spec.burst).sum := by
  rw [Scheduler.roundsLeft, owed_start]
  split <;> omega

/-- The run of a workload, step by step. -/
theorem ends_or_breaks (w : Workload) (config : Config) {policy : SlicePolicy w.size}
    (hpolicy : policy.Steady) :
    (∃ k : Nat, k ≤ 2 * (w.specs.map Spec.burst).sum ∧ (w.start config).Ends policy k) ∨
      ∃ k : Nat, k < 2 * (w.specs.map Spec.burst).sum ∧ (w.start config).Breaks policy k := by
  have howed : 0 ≤ (w.start config).owed := sound_start.owed_nonneg
  have hrounds : (w.start config).roundsLeft ≤ 2 * (w.specs.map Spec.burst).sum :=
    roundsLeft_start_le
  rw [owed_start] at howed
  obtain ⟨bound, hbound⟩ := Int.eq_ofNat_of_zero_le (a := 2 * (w.specs.map Spec.burst).sum)
    (by omega)
  rcases atRest_start.ends hpolicy done_start (hbound ▸ hrounds) with
    ⟨k, hle, hends⟩ | ⟨k, hlt, hbreaks⟩
  · exact .inl ⟨k, by omega, hends⟩
  · exact .inr ⟨k, by omega, hbreaks⟩

/-- Steps go on until everything is done, or one of them stops as not all can be recorded. -/
theorem done_or_stopped (w : Workload) (config : Config) {policy : SlicePolicy w.size}
    (hpolicy : policy.Steady) :
    (∃ k, ((w.start config).afterSteps policy k).done) ∨
      ¬ w.Recordable config ∧ ∃ k, (w.start config).Stopped policy k := by
  rcases w.ends_or_breaks config hpolicy with ⟨k, -, hends⟩ | ⟨k, -, hbreaks⟩
  · exact .inl ⟨k, hends.done⟩
  · exact .inr ⟨fun h => not_stopped h hpolicy (k + 1) hbreaks.stopped, k + 1, hbreaks.stopped⟩

theorem exists_done (h : w.Recordable config) (hpolicy : policy.Steady) :
    ∃ k, ((w.start config).afterSteps policy k).done :=
  (w.done_or_stopped config hpolicy).resolve_right fun hstopped => hstopped.1 h

theorem burst_le_stepBound :
    2 * (w.specs.map Spec.burst).sum ≤ ((w.start config).stepBound : Int) := by
  have hbound : 2 * (w.start config).owed + 2 ≤ (w.start config).stepBound :=
    Scheduler.owed_le_stepBound _
  rw [owed_start] at hbound
  omega

/-- A run of a workload is never given up. It ends with everything completed, and then fails only
if the report on that cannot be made, or it stops because it cannot be recorded. -/
theorem run_start (w : Workload) (config : Config) {policy : SlicePolicy w.size}
    (hpolicy : policy.Steady) :
    (∃ k, ((w.start config).afterSteps policy k).done ∧
      EStateM.run (Sim.run policy) (w.start config) =
        EStateM.run Sim.report ((w.start config).afterSteps policy k)) ∨
    ∃ k t, (w.start config).Stopped policy k ∧
      EStateM.run (Sim.run policy) (w.start config) = .error (.numeral .tooLong) t := by
  have hbound : 2 * (w.specs.map Spec.burst).sum ≤ ((w.start config).stepBound : Int) :=
    burst_le_stepBound
  rcases w.ends_or_breaks config hpolicy with ⟨k, hle, hends⟩ | ⟨k, hlt, hbreaks⟩
  · have hbounded : k ≤ (w.start config).stepBound := by omega
    have hrun := hends.run_steps hbounded
    refine .inl ⟨k, hends.done, ?_⟩
    simp only [Sim.run, EStateM.run_bind, EStateM.run_get, hrun]
  · have hbounded : k < (w.start config).stepBound := by omega
    obtain ⟨t, hrun⟩ := hbreaks.run_steps hbounded
    refine .inr ⟨k + 1, t, hbreaks.stopped, ?_⟩
    simp only [Sim.run, EStateM.run_bind, EStateM.run_get, hrun]

/-- The run of the workload in steps, none of which fails. -/
structure Completes (w : Workload) (config : Config) (policy : SlicePolicy w.size) (k : Nat) :
    Prop where
  pos : 0 < k
  le : k ≤ 2 * (w.specs.map Spec.burst).sum
  /-- The last step alone answers that nothing remains. -/
  steps : ∀ j < k, EStateM.run (Sim.step policy) ((w.start config).afterSteps policy j) =
    .ok (decide (j + 1 < k)) ((w.start config).afterSteps policy (j + 1))
  terminated : ∀ i,
    (∃ time, (((w.start config).afterSteps policy k).process i).phase = .terminated time) ∧
      (((w.start config).afterSteps policy k).process i).remaining = 0

theorem completes_of_ends (hends : (w.start config).Ends policy k)
    (hle : k ≤ 2 * (w.specs.map Spec.burst).sum) : w.Completes config policy k := by
  refine ⟨hends.pos, hle, hends.steps, fun i => ?_⟩
  have hsound : ((w.start config).afterSteps policy k).Sound := sound_afterSteps k
  have hterminated := hsound.done_iff.mp hends.done i
  exact ⟨hterminated, (hsound.process i).done_iff.mpr (Proc.isSome_completion.mpr hterminated)⟩

/-- Stepping a workload under a policy that makes progress ends, after no more steps
than twice the CPU time that the workload asks for. Where all can be recorded no step
fails, the last one alone answers that nothing remains, and by then every process has
completed. Otherwise that is so, or one of the steps fails because it has to quote a
number that is too long. -/
theorem steps_terminate (w : Workload) (config : Config) {policy : SlicePolicy w.size}
    (hpolicy : policy.Steady) :
    (w.Recordable config → ∃ k, w.Completes config policy k) ∧
    ((∃ k, w.Completes config policy k) ∨
      ∃ k : Nat, k < 2 * (w.specs.map Spec.burst).sum ∧
        (∀ j < k, EStateM.run (Sim.step policy) ((w.start config).afterSteps policy j) =
          .ok true ((w.start config).afterSteps policy (j + 1))) ∧
        ∃ t, EStateM.run (Sim.step policy) ((w.start config).afterSteps policy k) =
          .error (.numeral .tooLong) t) := by
  rcases w.ends_or_breaks config hpolicy with ⟨k, hle, hends⟩ | ⟨k, hlt, hbreaks⟩
  · have hcompletes := completes_of_ends hends hle
    exact ⟨fun _ => ⟨k, hcompletes⟩, .inl ⟨k, hcompletes⟩⟩
  · obtain ⟨t, hstep, -⟩ := hbreaks.refused
    exact ⟨fun h => absurd hbreaks.stopped (not_stopped h hpolicy (k + 1)),
      .inr ⟨k, hlt, hbreaks.steps, t, hstep⟩⟩

/-- Slices of at most three units, and I/O that takes no time. -/
theorem steps_terminate_reference :
    (SlicePolicy.capped 3 : SlicePolicy reference.size).Steady ∧
      ∃ k : Nat, k ≤ (410 : Int) ∧ ∀ i, (((reference.start
        { Config.standard with ioDuration := 0, ioDuration_nonneg := by decide }).afterSteps
          (.capped 3) k).process i).remaining = 0 := by
  have hpolicy : (SlicePolicy.capped 3 : SlicePolicy reference.size).Steady := .capped (by decide)
  have hrecordable : reference.Recordable
      { Config.standard with ioDuration := 0, ioDuration_nonneg := by decide } := by
    refine ⟨⟨?_, ?_, ?_⟩, ?_⟩ <;> decide +kernel
  obtain ⟨k, hk⟩ := (steps_terminate reference
    { Config.standard with ioDuration := 0, ioDuration_nonneg := by decide } hpolicy).1 hrecordable
  exact ⟨hpolicy, k, hk.le, fun i => (hk.terminated i).2⟩

/-- The third step has to wait for a time that is too long to be written. -/
theorem late_job_stops : (lateJob.start .standard).Stopped .standard 3 := by
  decide +kernel

end Workload

end FeedbackQueue
