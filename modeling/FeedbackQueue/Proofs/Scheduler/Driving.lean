import FeedbackQueue.Proofs.Scheduler.Stages
import FeedbackQueue.Workload.Basic

/-!
# Driving a scheduler

A scheduler may be driven by calling its stages in any order, by steps or by whole
runs. A call that fails leaves behind what it had changed. Whatever is called, a
sound scheduler moves on by moves, some of which may be cut short, so what holds at
the start of a workload and is kept by every move, cut short or not, holds of every
scheduler that the workload can be driven to.
-/

namespace FeedbackQueue

open Relation (ReflTransGen)

/-- What a computation leaves behind, whether or not it fails. -/
def Sim.after (m : Sim n α) (s : Scheduler n) : Scheduler n :=
  match EStateM.run m s with
  | .ok _ t => t
  | .error _ t => t

theorem Sim.after_of_ok {m : Sim n α} (h : EStateM.run m s = .ok a t) : m.after s = t := by
  rw [after, h]

theorem Sim.after_of_error {m : Sim n α} (h : EStateM.run m s = .error e t) :
    m.after s = t := by
  rw [after, h]

namespace Scheduler

/-- A call on a scheduler and its own processes. -/
inductive Call (n : Nat) where
  | arrivals
  | boost
  | dispatch
  | execute (i : Fin n)
  | fastForward
  | step
  | run
deriving DecidableEq, Repr

variable {policy : SlicePolicy n} {s t : Scheduler n} {l : List (Fin n)}

def call (policy : SlicePolicy n) (s : Scheduler n) : Call n → Scheduler n
  | .arrivals => Sim.admitArrivals.after s
  | .boost => Sim.applyBoost.after s
  | .dispatch => Sim.dispatch.after s
  | .execute i => (Sim.execute policy i).after s
  | .fastForward => Sim.fastForward.after s
  | .step => (Sim.step policy).after s
  | .run => (Sim.run policy).after s

def drive (policy : SlicePolicy n) (s : Scheduler n) (calls : List (Call n)) : Scheduler n :=
  calls.foldl (call policy) s

/-- What a number of steps leave behind, which stop at the first one that fails. -/
def afterSteps (policy : SlicePolicy n) (s : Scheduler n) (k : Nat) : Scheduler n :=
  (Sim.steps policy k).after s

/-- Among a number of steps there is one that cannot be recorded. -/
def Stopped (policy : SlicePolicy n) (s : Scheduler n) (k : Nat) : Prop :=
  ∃ t, EStateM.run (Sim.steps policy k) s = .error (.numeral .tooLong) t

instance : Decidable (s.Stopped policy k) :=
  decidable_of_iff
    ((match EStateM.run (Sim.steps policy k) s with
      | .error (.numeral .tooLong) _ => true
      | _ => false) = true) <| by
    unfold Stopped
    split <;> simp_all

@[simp] theorem afterSteps_zero : s.afterSteps policy 0 = s := rfl

theorem not_stopped_zero : ¬ s.Stopped policy 0 := by
  rintro ⟨t, ht⟩
  cases ht

/-- Steps go on only after one that succeeds and leaves something to be done. -/
theorem run_steps_succ : EStateM.run (Sim.steps policy (k + 1)) s =
    match EStateM.run (Sim.step policy) s with
    | .ok true t => EStateM.run (Sim.steps policy k) t
    | .ok false t => .ok () t
    | .error e t => .error e t := by
  rw [Sim.steps, EStateM.run_bind]
  cases h : EStateM.run (Sim.step policy) s with
  | error e t => rfl
  | ok more t => cases more <;> rfl

theorem afterSteps_of_more (h : EStateM.run (Sim.step policy) s = .ok true t) :
    s.afterSteps policy (k + 1) = t.afterSteps policy k := by
  simp only [afterSteps, Sim.after, run_steps_succ, h]

theorem afterSteps_of_last (h : EStateM.run (Sim.step policy) s = .ok false t) :
    s.afterSteps policy (k + 1) = t := by
  simp only [afterSteps, Sim.after, run_steps_succ, h]

theorem afterSteps_of_error (h : EStateM.run (Sim.step policy) s = .error e t) :
    s.afterSteps policy (k + 1) = t := by
  simp only [afterSteps, Sim.after, run_steps_succ, h]

theorem stopped_succ_of_more (h : EStateM.run (Sim.step policy) s = .ok true t) :
    s.Stopped policy (k + 1) ↔ t.Stopped policy k := by
  simp only [Stopped, run_steps_succ, h]

theorem not_stopped_of_last (h : EStateM.run (Sim.step policy) s = .ok false t) :
    ¬ s.Stopped policy (k + 1) := by
  simp [Stopped, run_steps_succ, h]

theorem stopped_succ_of_error (h : EStateM.run (Sim.step policy) s = .error e t) :
    s.Stopped policy (k + 1) ↔ e = .numeral .tooLong := by
  simp [Stopped, run_steps_succ, h]

/-- No step follows the one that cannot be recorded. -/
theorem run_steps_of_stopped
    (h : EStateM.run (Sim.steps policy j) s = .error (.numeral .tooLong) t) (hjk : j ≤ k) :
    EStateM.run (Sim.steps policy k) s = .error (.numeral .tooLong) t := by
  induction j generalizing s k with
  | zero => cases h
  | succ j ih =>
    obtain ⟨k, rfl⟩ : ∃ m, k = m + 1 := ⟨k - 1, by omega⟩
    rw [run_steps_succ] at h ⊢
    cases hstep : EStateM.run (Sim.step policy) s with
    | error e u =>
      rw [hstep] at h
      exact h
    | ok more u =>
      rw [hstep] at h
      cases more with
      | false => cases h
      | true => exact ih h (by omega)

theorem Stopped.mono (h : s.Stopped policy j) (hjk : j ≤ k) : s.Stopped policy k := by
  obtain ⟨t, ht⟩ := h
  exact ⟨t, run_steps_of_stopped ht hjk⟩

theorem Stopped.afterSteps_eq (h : s.Stopped policy j) (hjk : j ≤ k) :
    s.afterSteps policy k = s.afterSteps policy j := by
  obtain ⟨t, ht⟩ := h
  simp only [afterSteps, Sim.after, ht, run_steps_of_stopped ht hjk]

/-! ## Calls are sequences of moves -/

theorem sound_of_moves (h : ReflTransGen (Move policy) s t) (hs : s.Sound) : t.Sound := by
  induction h with
  | refl => exact hs
  | tail _ hmove ih => exact hmove.sound ih

theorem advances_of_moves (h : ReflTransGen (Move policy) s t) :
    ReflTransGen (Advance policy) s t :=
  ReflTransGen.mono (fun _ _ => Advance.move) _ _ h

theorem sound_of_advances (h : ReflTransGen (Advance policy) s t) (hs : s.Sound) : t.Sound := by
  induction h with
  | refl => exact hs
  | tail _ hadvance ih => exact hadvance.sound ih

theorem config_of_advances (h : ReflTransGen (Advance policy) s t) : t.config = s.config := by
  induction h with
  | refl => rfl
  | tail _ hadvance ih => exact hadvance.config_eq.trans ih

theorem spec_of_advances (h : ReflTransGen (Advance policy) s t) (i : Fin n) :
    (t.process i).spec = (s.process i).spec := by
  induction h with
  | refl => rfl
  | tail _ hadvance ih => exact (hadvance.spec_eq i).trans ih

theorem pid_of_advances (h : ReflTransGen (Advance policy) s t) (i : Fin n) :
    t.bank.pid i = s.bank.pid i :=
  congrArg Spec.pid (spec_of_advances h i)

variable (policy)

/-- What a step finds when it dispatches: everything that was due has been admitted,
and a boost that was due has fired. -/
def prepared (s : Scheduler n) : Scheduler n :=
  if s.arrived.booster.due s.arrived.clock then s.arrived.boosted else s.arrived

theorem process_foldl_admitted (hl : l.Nodup) :
    (l.foldl admitted s).process i = if i ∈ l then (s.process i).admitted else s.process i := by
  induction l generalizing s with
  | nil => simp
  | cons j rest ih =>
    obtain ⟨hj, hrest⟩ := List.nodup_cons.mp hl
    rw [List.foldl_cons, ih hrest]
    by_cases hi : i = j
    · subst hi; simp [hj]
    · simp [hi]

theorem arrived_of_not_due (h : ∀ i, s.due i = false) : s.arrived = s := by
  have hnone : s.dueSlots = [] := List.filter_eq_nil_iff.mpr fun i _ => by simp [h i]
  rw [arrived, hnone]
  rfl

theorem process_arrived :
    s.arrived.process i = if s.due i then (s.process i).admitted else s.process i := by
  simp [arrived, process_foldl_admitted nodup_dueSlots, mem_dueSlots]

theorem moves_foldl_admitted (hl : l.Nodup) (hdue : ∀ i ∈ l, s.due i) :
    ReflTransGen (Move policy) s (l.foldl admitted s) := by
  induction l generalizing s with
  | nil => exact .refl
  | cons i rest ih =>
    obtain ⟨hi, hrest⟩ := List.nodup_cons.mp hl
    obtain ⟨t, ht, hle⟩ := Proc.dueBy_iff.mp (hdue i (by simp))
    refine .head (.enter ht hle) (ih hrest fun j hj => ?_)
    rw [Sim.due_admitted_of_ne (by rintro rfl; exact hi hj)]
    exact hdue j (by simp [hj])

theorem moves_arrived : ReflTransGen (Move policy) s s.arrived :=
  moves_foldl_admitted policy nodup_dueSlots fun _ => mem_dueSlots.mp

theorem moves_prepared : ReflTransGen (Move policy) s s.prepared := by
  unfold prepared
  split
  · exact (moves_arrived policy).tail (.boost ‹_›)
  · exact moves_arrived policy

theorem Sound.arrived (hs : s.Sound) : s.arrived.Sound :=
  sound_of_moves (moves_arrived .standard) hs

theorem Sound.prepared (hs : s.Sound) : s.prepared.Sound :=
  sound_of_moves (moves_prepared .standard) hs

theorem clock_foldl_admitted (l : List (Fin n)) (s : Scheduler n) :
    (l.foldl admitted s).clock = s.clock := by
  induction l generalizing s with
  | nil => rfl
  | cons i rest ih => exact ih (s.admitted i)

theorem AdmissionCut.nodup (h : s.AdmissionCut before i) : before.Nodup ∧ i ∉ before := by
  obtain ⟨after, hafter⟩ := h.due
  have hnodup := nodup_dueSlots (s := s)
  rw [hafter, List.nodup_append] at hnodup
  exact ⟨hnodup.1, fun hi => hnodup.2.2 i hi i (by simp) rfl⟩

theorem AdmissionCut.mem_due (h : s.AdmissionCut before i) (hj : j ∈ before ++ [i]) : s.due j := by
  obtain ⟨after, hafter⟩ := h.due
  refine mem_dueSlots.mp (hafter ▸ ?_)
  rw [← List.singleton_append, ← List.append_assoc]
  exact List.mem_append_left _ hj

/-- An admission that stops at a process has admitted those before it. -/
theorem moves_before (h : s.AdmissionCut before i) :
    ReflTransGen (Move policy) s (before.foldl admitted s) :=
  moves_foldl_admitted policy h.nodup.1 fun _ hj => h.mem_due (List.mem_append_left _ hj)

theorem cut_admission (h : s.AdmissionCut before i) :
    Cut policy (before.foldl admitted s) (s.admissionCut before i) := by
  have hprocess : (before.foldl admitted s).process i = s.process i := by
    rw [process_foldl_admitted h.nodup.1, if_neg h.nodup.2]
  have hi : i ∈ before ++ [i] := List.mem_append_right _ (List.mem_singleton_self i)
  obtain ⟨time, hdue, hle⟩ := Proc.dueBy_iff.mp (h.mem_due hi)
  have hrefused := h.refused
  rw [admissible, ← hprocess, ← clock_foldl_admitted before s] at hrefused
  refine .enter (hprocess ▸ hdue) ?_ hrefused
  rwa [clock_foldl_admitted]

theorem advances_admissionCut (h : s.AdmissionCut before i) :
    ReflTransGen (Advance policy) s (s.admissionCut before i) :=
  (advances_of_moves (moves_before policy h)).tail (.cut (cut_admission policy h))

theorem run_step_of_done (hdone : s.done) : EStateM.run (Sim.step policy) s = .ok false s := by
  simp [Sim.step, hdone]

theorem run_boost_arrived : EStateM.run Sim.applyBoost s.arrived =
    .ok (if s.arrived.booster.due s.arrived.clock then s.arrived.bank.belowTop else [])
      s.prepared := by
  rw [Sim.run_applyBoost, prepared]
  split <;> rfl

/-- A step goes no further than an admission that cannot be recorded. -/
theorem run_step_of_cut (hs : s.Sound) (hdone : s.done = false) (h : s.AdmissionCut before i) :
    EStateM.run (Sim.step policy) s = .error (.numeral .tooLong) (s.admissionCut before i) := by
  simp [-bind_pure_comp, Sim.step, hdone, Sim.run_admitArrivals_refused hs h]

/-- A step admits and boosts, and then dispatches and executes or idles. -/
theorem run_step (hs : s.Sound) (hdone : s.done = false) (h : ∀ i, s.due i → s.admissible i) :
    EStateM.run (Sim.step policy) s =
      match s.prepared.bank.dequeue with
      | none =>
        match EStateM.run Sim.fastForward s.prepared with
        | .ok _ t => .ok (!t.done) t
        | .error e t => .error e t
      | some (i, rest) =>
        if (s.prepared.dispatchEntry i).message.isWritable then
          match EStateM.run (Sim.execute policy i) (s.prepared.dispatched i rest) with
          | .ok _ t => .ok (!t.done) t
          | .error e t => .error e t
        else .error (.numeral .tooLong) ((s.prepared.dispatched i rest).unrecorded s.prepared) := by
  cases hdequeue : s.prepared.bank.dequeue with
  | none =>
    have hdispatch := Sim.run_dispatch_none (Bank.dequeue_eq_none.mp hdequeue)
    simp [-bind_pure_comp, Sim.step, hdone, Sim.run_admitArrivals hs h, run_boost_arrived,
      hdispatch]
    cases EStateM.run Sim.fastForward s.prepared <;> rfl
  | some head =>
    obtain ⟨i, rest⟩ := head
    cases hi : (s.prepared.dispatchEntry i).message.isWritable with
    | false =>
      have hdispatch := Sim.run_dispatch_refused hs.prepared hdequeue hi
      simp [-bind_pure_comp, Sim.step, hdone, Sim.run_admitArrivals hs h, run_boost_arrived,
        hdispatch, hi]
    | true =>
      have hdispatch := Sim.run_dispatch hs.prepared hdequeue hi
      simp [-bind_pure_comp, Sim.step, hdone, Sim.run_admitArrivals hs h, run_boost_arrived,
        hdispatch, hi]
      cases EStateM.run (Sim.execute policy i) (s.prepared.dispatched i rest) <;> rfl

/-- Running a process fails and changes nothing, or runs it for one slice, which may be cut
short. -/
theorem after_execute (hs : s.Sound) (i : Fin n) :
    (Sim.execute policy i).after s = s ∨
      ∃ d, (s.process i).phase = .running ∧ policy s i = .ok d ∧ 0 ≤ d ∧
        d ≤ (s.process i).remaining ∧ (Sim.execute policy i).after s =
          if Text.isWritable (s.process i).pid then s.ran i d else (s.ran i d).unrecorded s := by
  rw [Sim.after, Sim.run_execute_eq hs]
  by_cases hi : (s.process i).phase = .running
  · rw [if_neg (not_not_intro hi)]
    cases policy s i with
    | error e => exact .inl rfl
    | ok d =>
      by_cases hrange : d < 0 ∨ (s.process i).remaining < d
      · simp only [if_pos hrange]
        exact .inl trivial
      · refine .inr ⟨d, hi, rfl, by omega, by omega, ?_⟩
        simp only [if_neg hrange]
        cases Text.isWritable (s.process i).pid <;> rfl
  · rw [if_pos hi]
    exact .inl rfl

theorem advances_execute (hs : s.Sound) :
    ReflTransGen (Advance policy) s ((Sim.execute policy i).after s) := by
  rcases after_execute policy hs i with hsame | ⟨d, hi, hd, h0, hle, hran⟩
  · rw [hsame]
  · rw [hran]
    cases hpid : Text.isWritable (s.process i).pid with
    | true => exact .single (.move (.execute hi hd h0 hle))
    | false => exact .single (.cut (.execute hi hd h0 hle hpid))

/-- Idling moves the clock to the next event, unless there is none or that cannot be recorded. -/
theorem after_fastForward (s : Scheduler n) :
    (s.nextEvent = none ∧ Sim.fastForward.after s = s.stalled) ∨
      ∃ target, s.nextEvent = some target ∧ Sim.fastForward.after s =
        if Text.isWritable (max target s.clock) then s.idled target else s := by
  unfold Sim.after
  cases h : s.nextEvent with
  | none =>
    rw [Sim.run_fastForward_none h]
    cases s.stalled.report <;> exact .inl ⟨rfl, rfl⟩
  | some target =>
    refine .inr ⟨target, rfl, ?_⟩
    cases hwritable : Text.isWritable (max target s.clock) with
    | true => simp [Sim.run_fastForward h hwritable]
    | false => simp [Sim.run_fastForward_refused h hwritable]

theorem moves_fastForward : ReflTransGen (Move policy) s (Sim.fastForward.after s) := by
  rcases s.after_fastForward with ⟨hnone, hstalled⟩ | ⟨target, hnext, hidled⟩
  · rw [hstalled]
    exact .single (.stall hnone)
  · rw [hidled]
    split
    · exact .single (.idle hnext)
    · exact .refl

theorem call_arrivals (hs : s.Sound) (h : ∀ i, s.due i → s.admissible i) :
    s.call policy .arrivals = s.arrived := by
  rw [call, Sim.after, Sim.run_admitArrivals hs h]

theorem call_arrivals_of_cut (hs : s.Sound) (h : s.AdmissionCut before i) :
    s.call policy .arrivals = s.admissionCut before i := by
  rw [call, Sim.after, Sim.run_admitArrivals_refused hs h]

theorem call_boost : s.call policy .boost = if s.booster.due s.clock then s.boosted else s := by
  rw [call, Sim.after, Sim.run_applyBoost]
  cases s.booster.due s.clock <;> rfl

theorem call_dispatch_none (h : s.bank.dequeue = none) : s.call policy .dispatch = s := by
  rw [call, Sim.after, Sim.run_dispatch_none (Bank.dequeue_eq_none.mp h)]

theorem call_dispatch (hs : s.Sound) (h : s.bank.dequeue = some (i, rest)) :
    s.call policy .dispatch =
      if (s.dispatchEntry i).message.isWritable then s.dispatched i rest
      else (s.dispatched i rest).unrecorded s := by
  cases hi : (s.dispatchEntry i).message.isWritable with
  | true => simp [call, Sim.after, Sim.run_dispatch hs h hi]
  | false => simp [call, Sim.after, Sim.run_dispatch_refused hs h hi]

/-- The calls that are not made of others. -/
def Call.IsStage : Call n → Prop
  | .step | .run => False
  | _ => True

theorem advances_stage (hs : s.Sound) {c : Call n} (hstage : c.IsStage) :
    ReflTransGen (Advance policy) s (s.call policy c) := by
  cases c with
  | arrivals =>
    rcases Sim.admissible_or_cut s with hall | ⟨before, i, hcut⟩
    · rw [call_arrivals policy hs hall]
      exact advances_of_moves (moves_arrived policy)
    · rw [call_arrivals_of_cut policy hs hcut]
      exact advances_admissionCut policy hcut
  | boost =>
    rw [call_boost]
    split
    · exact .single (.move (.boost ‹_›))
    · exact .refl
  | dispatch =>
    cases h : s.bank.dequeue with
    | none => rw [call_dispatch_none policy h]
    | some head =>
      rw [call_dispatch policy hs h]
      cases hi : (s.dispatchEntry head.1).message.isWritable with
      | true => exact .single (.move (.dispatch h))
      | false => exact .single (.cut (.dispatch h hi))
  | execute i => exact advances_execute policy hs
  | fastForward => exact advances_of_moves (moves_fastForward policy)
  | step => exact hstage.elim
  | run => exact hstage.elim

theorem advances_stages (hs : s.Sound) {stages : List (Call n)}
    (hstages : ∀ c ∈ stages, c.IsStage) :
    ReflTransGen (Advance policy) s (s.drive policy stages) := by
  induction stages generalizing s with
  | nil => exact .refl
  | cons c rest ih =>
    have hcall := advances_stage policy hs (hstages c (by simp))
    exact hcall.trans (ih (sound_of_advances hcall hs) fun c hc => hstages c (by simp [hc]))

/-! ## Steps and runs are sequences of stages -/

theorem drive_append (calls more : List (Call n)) :
    s.drive policy (calls ++ more) = (s.drive policy calls).drive policy more :=
  List.foldl_append

/-- Steps after the end change nothing. -/
theorem afterSteps_of_done (hdone : s.done) : s.afterSteps policy k = s := by
  cases k with
  | zero => rfl
  | succ k => exact afterSteps_of_last (run_step_of_done policy hdone)

theorem not_stopped_of_done (hdone : s.done) : ¬ s.Stopped policy k := by
  cases k with
  | zero => exact not_stopped_zero
  | succ k => exact not_stopped_of_last (run_step_of_done policy hdone)

/-- A step that succeeds says whether there is something to be done, and there is no more to the
steps after it if there is not. -/
theorem afterSteps_of_ok (h : EStateM.run (Sim.step policy) s = .ok (!t.done) t) :
    s.afterSteps policy (k + 1) = t.afterSteps policy k := by
  cases hdone : t.done <;> rw [hdone] at h
  · exact afterSteps_of_more h
  · rw [afterSteps_of_last h, afterSteps_of_done policy hdone]

theorem stopped_succ_of_ok (h : EStateM.run (Sim.step policy) s = .ok (!t.done) t) :
    s.Stopped policy (k + 1) ↔ t.Stopped policy k := by
  cases hdone : t.done <;> rw [hdone] at h
  · exact stopped_succ_of_more h
  · exact iff_of_false (not_stopped_of_last h) (not_stopped_of_done policy hdone)

/-- The stages that a step calls, the last of which may fail. -/
def stagesOfStep (s : Scheduler n) : List (Call n) :=
  if s.done then []
  else .arrivals ::
    match EStateM.run Sim.admitArrivals s with
    | .error _ _ => []
    | .ok _ t => .boost :: .dispatch ::
      match EStateM.run Sim.dispatch (t.call policy .boost) with
      | .ok (some i) _ => [.execute i]
      | .ok none _ => [.fastForward]
      | .error _ _ => []

/-- The stages that steps call, until nothing remains or a step fails. -/
def stagesOfSteps : Nat → Scheduler n → List (Call n)
  | 0, _ => []
  | fuel + 1, s => s.stagesOfStep policy ++
    match EStateM.run (Sim.step policy) s with
    | .ok true t => stagesOfSteps fuel t
    | _ => []

def stagesOf (s : Scheduler n) : Call n → List (Call n)
  | .step => s.stagesOfStep policy
  | .run => stagesOfSteps policy s.stepBound s
  | c => [c]

/-- The stages that calls come down to. -/
def stages (s : Scheduler n) : List (Call n) → List (Call n)
  | [] => []
  | c :: rest => s.stagesOf policy c ++ (s.call policy c).stages rest

theorem isStage_stagesOfStep : ∀ c ∈ s.stagesOfStep policy, c.IsStage := by
  unfold stagesOfStep
  split
  · exact nofun
  · split
    · simp [Call.IsStage]
    · split <;> simp [Call.IsStage]

theorem isStage_stagesOfSteps (fuel : Nat) :
    ∀ c ∈ stagesOfSteps policy fuel s, c.IsStage := by
  induction fuel generalizing s with
  | zero => exact nofun
  | succ fuel ih =>
    intro c hc
    rcases List.mem_append.mp hc with hc | hc
    · exact isStage_stagesOfStep policy c hc
    · split at hc
      · exact ih c hc
      · simp at hc

theorem isStage_stagesOf (c : Call n) : ∀ c' ∈ s.stagesOf policy c, c'.IsStage := by
  cases c with
  | step => exact isStage_stagesOfStep policy
  | run => exact isStage_stagesOfSteps policy _
  | _ => simp [stagesOf, Call.IsStage]

theorem isStage_stages (calls : List (Call n)) : ∀ c ∈ s.stages policy calls, c.IsStage := by
  induction calls generalizing s with
  | nil => exact nofun
  | cons c rest ih =>
    intro c' hc'
    exact (List.mem_append.mp hc').elim (isStage_stagesOf policy c c') (ih c')

theorem call_boost_arrived : s.arrived.call policy .boost = s.prepared := call_boost policy

theorem drive_arrivals_boost (hs : s.Sound) (h : ∀ i, s.due i → s.admissible i) :
    s.drive policy [.arrivals, .boost] = s.prepared := by
  rw [drive, List.foldl_cons, List.foldl_cons, List.foldl_nil, call_arrivals policy hs h,
    call_boost_arrived]

theorem drive_stagesOfStep (hs : s.Sound) :
    s.drive policy (s.stagesOfStep policy) = (Sim.step policy).after s := by
  cases hdone : s.done with
  | true =>
    rw [stagesOfStep, if_pos hdone, Sim.after, run_step_of_done policy hdone]
    rfl
  | false =>
    rw [stagesOfStep, hdone, if_neg Bool.false_ne_true, Sim.after]
    rcases Sim.admissible_or_cut s with hall | ⟨before, i, hcut⟩
    · have harrivals := call_arrivals policy hs hall
      have hboost := call_boost_arrived (s := s) policy
      simp only [Sim.run_admitArrivals hs hall, hboost, run_step policy hs hdone hall]
      cases hdequeue : s.prepared.bank.dequeue with
      | none =>
        have hnone := call_dispatch_none policy hdequeue
        simp only [Sim.run_dispatch_none (Bank.dequeue_eq_none.mp hdequeue), drive, List.foldl_cons,
          List.foldl_nil, harrivals, hboost, hnone]
        simp only [call, Sim.after]
        cases EStateM.run Sim.fastForward s.prepared <;> rfl
      | some head =>
        obtain ⟨i, rest⟩ := head
        have hsome := call_dispatch policy hs.prepared hdequeue
        cases hi : (s.prepared.dispatchEntry i).message.isWritable with
        | true =>
          rw [if_pos hi] at hsome
          simp only [Sim.run_dispatch hs.prepared hdequeue hi, drive, List.foldl_cons,
            List.foldl_nil, harrivals, hboost, hsome, hi, if_true]
          simp only [call, Sim.after]
          cases EStateM.run (Sim.execute policy i) (s.prepared.dispatched i rest) <;> rfl
        | false =>
          rw [if_neg (Bool.eq_false_iff.mp hi)] at hsome
          simp only [Sim.run_dispatch_refused hs.prepared hdequeue hi, drive, List.foldl_cons,
            List.foldl_nil, harrivals, hboost, hsome, hi, Bool.false_eq_true,
            if_false]
    · simp only [Sim.run_admitArrivals_refused hs hcut, run_step_of_cut policy hs hdone hcut]
      exact call_arrivals_of_cut policy hs hcut

theorem drive_stagesOfSteps (hs : s.Sound) (fuel : Nat) :
    s.drive policy (stagesOfSteps policy fuel s) = (Sim.steps policy fuel).after s := by
  induction fuel generalizing s with
  | zero => rfl
  | succ fuel ih =>
    have hstep := drive_stagesOfStep policy hs
    have hsound :=
      sound_of_advances (advances_stages policy hs (isStage_stagesOfStep (s := s) policy)) hs
    rw [hstep] at hsound
    rw [stagesOfSteps, drive_append, hstep]
    simp only [Sim.after, Sim.steps, EStateM.run_bind] at hsound ⊢
    cases h : EStateM.run (Sim.step policy) s with
    | error e t => rfl
    | ok more t =>
      cases more with
      | false => rfl
      | true =>
        rw [h] at hsound
        exact ih hsound

/-- The report at the end of a run changes nothing. -/
theorem after_run (s : Scheduler n) :
    (Sim.run policy).after s = (Sim.steps policy s.stepBound).after s := by
  have hreport (t : Scheduler n) : Sim.report.after t = t := by
    rw [Sim.after, Sim.run_report]
    cases t.report <;> rfl
  simp only [Sim.after, Sim.run, EStateM.run_bind, EStateM.run_get] at hreport ⊢
  cases h : EStateM.run (Sim.steps policy s.stepBound) s with
  | error e t => rfl
  | ok _ t => exact hreport t

theorem drive_stagesOf (hs : s.Sound) (c : Call n) :
    s.drive policy (s.stagesOf policy c) = s.call policy c := by
  cases c with
  | step => exact drive_stagesOfStep policy hs
  | run => exact (drive_stagesOfSteps policy hs _).trans (after_run policy s).symm
  | _ => rfl

theorem advances_call (hs : s.Sound) (c : Call n) :
    ReflTransGen (Advance policy) s (s.call policy c) :=
  drive_stagesOf policy hs c ▸ advances_stages policy hs (isStage_stagesOf policy c)

theorem drive_stages (hs : s.Sound) (calls : List (Call n)) :
    s.drive policy (s.stages policy calls) = s.drive policy calls := by
  induction calls generalizing s with
  | nil => rfl
  | cons c rest ih =>
    rw [stages, drive_append, drive_stagesOf policy hs c]
    exact ih (sound_of_advances (advances_call policy hs c) hs)

theorem advances_drive (hs : s.Sound) (calls : List (Call n)) :
    ReflTransGen (Advance policy) s (s.drive policy calls) :=
  drive_stages policy hs calls ▸ advances_stages policy hs (isStage_stages policy calls)

/-- Steps are calls, up to the first one that fails. -/
theorem exists_drive (s : Scheduler n) (k : Nat) :
    ∃ calls, s.afterSteps policy k = s.drive policy calls := by
  induction k generalizing s with
  | zero => exact ⟨[], rfl⟩
  | succ k ih =>
    cases h : EStateM.run (Sim.step policy) s with
    | error e t => exact ⟨[.step], (afterSteps_of_error h).trans (Sim.after_of_error h).symm⟩
    | ok more t =>
      have hcall : s.call policy .step = t := Sim.after_of_ok h
      cases more with
      | false => exact ⟨[.step], (afterSteps_of_last h).trans hcall.symm⟩
      | true =>
        obtain ⟨calls, hcalls⟩ := ih t
        refine ⟨.step :: calls, ?_⟩
        rw [afterSteps_of_more h, hcalls, drive, drive, List.foldl_cons, hcall]

end Scheduler

/-! ## Driving a workload -/

namespace Workload

variable {w : Workload} {config : Config}

/-- The job in a slot. -/
def spec (w : Workload) (i : Fin w.size) : Spec := w.specs.get i

theorem mem_specs {x : Spec} : x ∈ w.specs ↔ ∃ i, w.spec i = x := List.mem_iff_get

theorem process_start (i : Fin w.size) : (w.start config).process i = .ofSpec (w.spec i) := by
  simp [start, Scheduler.start, Scheduler.process, Bank.process, Bank.ofSpecs, toVector]
  rfl

theorem pid_injective : Function.Injective (w.start config).bank.pid := by
  intro i j h
  have hpid (i : Fin w.size) : (w.start config).bank.pid i = (w.spec i).pid := by
    rw [Bank.pid, ← Scheduler.process, process_start]
    rfl
  rw [hpid, hpid] at h
  have hi : i.val < (w.specs.map Spec.pid).length := by simp [show w.specs.length = w.size from rfl]
  have hj : j.val < (w.specs.map Spec.pid).length := by simp [show w.specs.length = w.size from rfl]
  have hsame : (w.specs.map Spec.pid)[i.val] = (w.specs.map Spec.pid)[j.val] := by
    rw [List.getElem_map, List.getElem_map]
    exact h
  exact Fin.ext ((List.getElem_inj w.distinct).mp hsame)

theorem queueAt_start : (w.start config).bank.queueAt k = [] := by
  cases h : (List.range config.numQueues)[k]? <;>
    simp [start, Scheduler.start, Bank.queueAt, Bank.ofSpecs, Level.queueAt, Config.quanta, h]

theorem queued_start : (w.start config).bank.queued = [] := by
  rw [List.eq_nil_iff_forall_not_mem]
  intro i hi
  obtain ⟨k, hk⟩ := Bank.mem_queued.mp hi
  simp [queueAt_start] at hk

theorem sound_start : (w.start config).Sound := by
  constructor
  · constructor
    · exact pid_injective
    · rw [queued_start]; exact .refl []
    · rw [queued_start]; exact .nil
    · intro i k
      rw [queueAt_start, ← Scheduler.process, process_start]
      simp [Proc.ofSpec]
    · intro i
      rw [← Scheduler.process, process_start]
      simpa [start, Scheduler.start, Bank.ofSpecs, Config.quanta, Proc.ofSpec] using
        config.numQueues_pos
  · simp [start, Scheduler.start, Bank.ofSpecs, Function.comp_def]
  · rfl
  · intro i
    rw [process_start]
    exact Proc.sound_ofSpec _
  · simp [start, Scheduler.start, Bank.ofSpecs, Proc.ofSpec, Proc.completion, Function.comp_def]

/-- What holds at the start of a workload and is kept by every move of a sound
scheduler, cut short or not, holds however the workload is driven. -/
theorem drive_induction {policy : SlicePolicy w.size} {P : Scheduler w.size → Prop}
    (start : P (w.start config))
    (move : ∀ s t, s.Sound → P s → Move policy s t → P t)
    (cut : ∀ s t, s.Sound → P s → Cut policy s t → P t) (calls : List (Scheduler.Call w.size)) :
    P ((w.start config).drive policy calls) := by
  have hadvances :=
    Scheduler.advances_drive policy (sound_start : (w.start config).Sound) calls
  -- A move keeps the property only where it starts sound, so soundness goes along.
  suffices h : ((w.start config).drive policy calls).Sound ∧
      P ((w.start config).drive policy calls) from h.2
  generalize (w.start config).drive policy calls = t at hadvances ⊢
  induction hadvances with
  | refl => exact ⟨sound_start, start⟩
  | tail _ hadvance ih =>
    refine ⟨hadvance.sound ih.1, ?_⟩
    cases hadvance with
    | move hmove => exact move _ _ ih.1 ih.2 hmove
    | cut hcut => exact cut _ _ ih.1 ih.2 hcut

/-- What does not depend on the records is kept by a move that is cut short as by any other. -/
theorem drive_induction_of_unrecorded {policy : SlicePolicy w.size}
    {P : Scheduler w.size → Prop} (start : P (w.start config))
    (move : ∀ s t, s.Sound → P s → Move policy s t → P t)
    (unrecorded : ∀ s t, P t → P (t.unrecorded s)) (calls : List (Scheduler.Call w.size)) :
    P ((w.start config).drive policy calls) := by
  refine drive_induction start move (fun s t hs hP hcut => ?_) calls
  obtain ⟨u, hmove, rfl⟩ := hcut.exists_move
  exact unrecorded s u (move s u hs hP hmove)

/-- The jobs stay those of the workload. -/
theorem spec_drive {policy : SlicePolicy w.size} (calls : List (Scheduler.Call w.size))
    (i : Fin w.size) : (((w.start config).drive policy calls).process i).spec = w.spec i := by
  refine drive_induction_of_unrecorded (P := fun s => (s.process i).spec = w.spec i) ?_ ?_
    (fun _ _ h => h) calls
  · rw [process_start]
    rfl
  · intro s t _ hs hmove
    exact (hmove.spec_eq i).trans hs

theorem spec_afterSteps {policy : SlicePolicy w.size} (k : Nat) (i : Fin w.size) :
    (((w.start config).afterSteps policy k).process i).spec = w.spec i := by
  obtain ⟨calls, hcalls⟩ := (w.start config).exists_drive policy k
  exact hcalls ▸ spec_drive calls i

theorem sound_drive {policy : SlicePolicy w.size} (calls : List (Scheduler.Call w.size)) :
    ((w.start config).drive policy calls).Sound :=
  drive_induction_of_unrecorded sound_start (fun _ _ _ hs hmove => hmove.sound hs)
    (fun _ _ h => h.unrecorded) calls

theorem sound_afterSteps {policy : SlicePolicy w.size} (k : Nat) :
    ((w.start config).afterSteps policy k).Sound := by
  obtain ⟨calls, hcalls⟩ := (w.start config).exists_drive policy k
  exact hcalls ▸ sound_drive calls

end Workload

end FeedbackQueue
