import FeedbackQueue.Proofs.Report.Laws
import FeedbackQueue.Proofs.Scheduler.Labels

/-!
# Labels decide nothing

The order of the workload and of the queues decides what is scheduled, never a pid or a
name. Two schedulers that differ in their labels stay so whatever is called, and every
call answers, or fails, with the same under other labels.

Labels matter in one way: what tells of a job needs its pid to be written. So the labels of
both schedulers have to be alike in that.
-/

namespace FeedbackQueue

open Relation (ReflTransGen)

variable {f : Labels} {n m : Nat} {hsize : n = m}

namespace Scheduler

-- ---------------------------------------------------------------------------
-- Schedulers that differ in their labels
-- ---------------------------------------------------------------------------

/-- The second scheduler is the first one under other labels. -/
structure Relabelled (f : Labels) (hsize : n = m) (s : Scheduler n) (t : Scheduler m) : Prop where
  alike : s.Alike (f.translation hsize) t
  config : t.config = s.config
  spec : ∀ i, (t.process (i.cast hsize)).spec = (s.process i).spec.relabelled f
  writable : ∀ i, f.AsWritable (s.process i).spec
  left : s.Sound
  right : t.Sound

namespace Relabelled

variable {s s' : Scheduler n} {t t' : Scheduler m}

theorem clock (h : s.Relabelled f hsize t) : t.clock = s.clock := by
  simpa using h.alike.clock

theorem process (h : s.Relabelled f hsize t) (i : Fin n) :
    t.process (i.cast hsize) = (s.process i).relabelled f := by
  have hspec := h.spec i
  obtain ⟨-, hphase, hremaining, hlevel, hused, hfirst⟩ := h.alike.process i
  simp only [Labels.translation_slot, Labels.translation_phase, Labels.translation_time,
    Option.map_id_fun, id] at hphase hremaining hlevel hused hfirst
  generalize t.process (i.cast hsize) = q at *
  cases q
  simp only at *
  subst hspec hphase hremaining hlevel hused hfirst
  rfl

theorem processes (h : s.Relabelled f hsize t) :
    t.bank.processes.toList = s.bank.processes.toList.map (·.relabelled f) := by
  have hslots : List.finRange m = (List.finRange n).map (Fin.cast hsize) := by
    subst hsize
    simp
  rw [toList_processes, toList_processes, hslots, List.map_map, List.map_map]
  exact List.map_congr_left fun i _ => h.process i

theorem known (hsize : n = m) (j : Fin m) : j ∈ Set.range (f.translation hsize).slot :=
  (Fin.castOrderIso hsize).surjective j

theorem done (h : s.Relabelled f hsize t) : t.done = s.done := by
  rw [Scheduler.done, Scheduler.done, h.alike.completed, ← hsize]

theorem report (h : s.Relabelled f hsize t) : t.report = s.report.map (·.relabelled f) := by
  rw [Scheduler.report, h.processes, h.clock, h.alike.switches, h.alike.count]
  refine Report.collect_relabelled (fun p hp => ?_) _ _ _
  rw [toList_processes, List.mem_map] at hp
  obtain ⟨i, -, rfl⟩ := hp
  exact h.writable i

theorem stepBound (h : s.Relabelled f hsize t) : t.stepBound = s.stepBound := by
  rw [Scheduler.stepBound, Scheduler.stepBound, h.processes, List.foldr_map, ← hsize]
  rfl

theorem share (h : s.Relabelled f hsize t) (i : Fin n) : t.share (i.cast hsize) = s.share i := by
  rw [Scheduler.share, Scheduler.share, h.process, h.config]
  rfl

theorem outcome (h : s.Relabelled f hsize t) (i : Fin n) (d : Int) :
    (t.slice (i.cast hsize) d).outcome = (s.slice i d).outcome := by
  rw [Scheduler.slice, Scheduler.slice, h.process, h.config]
  rfl

theorem nextEvent_eq_none (h : s.Relabelled f hsize t) (hnone : s.nextEvent = none) :
    t.nextEvent = none := by
  rw [Scheduler.nextEvent_eq_none] at hnone ⊢
  intro j
  obtain ⟨i, rfl⟩ := known (f := f) hsize j
  rw [(h.alike.process i).due?, hnone]
  rfl

/-- What moves leave alone need not be compared again. -/
theorem of_advances (h : s.Relabelled f hsize t) {policy : SlicePolicy n}
    {policy' : SlicePolicy m} (hs : ReflTransGen (Advance policy) s s')
    (ht : ReflTransGen (Advance policy') t t') (halike : s'.Alike (f.translation hsize) t') :
    s'.Relabelled f hsize t' where
  alike := halike
  config := by rw [config_of_advances ht, config_of_advances hs, h.config]
  spec i := by rw [spec_of_advances ht, spec_of_advances hs, h.spec]
  writable i := by
    rw [spec_of_advances hs]
    exact h.writable i
  left := sound_of_advances hs h.left
  right := sound_of_advances ht h.right

theorem of_moves (h : s.Relabelled f hsize t) {policy : SlicePolicy n} {policy' : SlicePolicy m}
    (hs : ReflTransGen (Move policy) s s') (ht : ReflTransGen (Move policy') t t')
    (halike : s'.Alike (f.translation hsize) t') : s'.Relabelled f hsize t' :=
  h.of_advances (advances_of_moves hs) (advances_of_moves ht) halike

/-- Moves that are cut short leave behind all but what would be recorded. -/
theorem of_cuts (h : s.Relabelled f hsize t) {policy : SlicePolicy n} {policy' : SlicePolicy m}
    (hs : Cut policy s s') (ht : Cut policy' t t') (halike : s'.Alike (f.translation hsize) t') :
    s'.Relabelled f hsize t' :=
  h.of_advances (.single (.cut hs)) (.single (.cut ht)) halike

theorem slice (h : s.Relabelled f hsize t) (i : Fin n) (d : Int) :
    t.slice (i.cast hsize) d = (s.slice i d).relabelled f := by
  simpa [Labels.translation_slice] using
    h.alike.slice (i := i) (d := d) (by simpa using h.outcome i d)

theorem isWritable_pid (h : s.Relabelled f hsize t) (i : Fin n) :
    Text.isWritable (t.process (i.cast hsize)).pid = Text.isWritable (s.process i).pid := by
  rw [h.process]
  exact (h.writable i).pid

theorem admissible (h : s.Relabelled f hsize t) (i : Fin n) :
    t.admissible (i.cast hsize) = s.admissible i := by
  rw [Scheduler.admissible, Scheduler.admissible, Proc.isWritable_admission,
    Proc.isWritable_admission, h.isWritable_pid, h.process]
  rfl

theorem isWritable_dispatchEntry (h : s.Relabelled f hsize t) (i : Fin n) :
    (t.dispatchEntry (i.cast hsize)).message.isWritable =
      (s.dispatchEntry i).message.isWritable := by
  rw [dispatchEntry, dispatchEntry, Entry.isWritable_dispatch, Entry.isWritable_dispatch, h.config,
    h.process]
  exact congrArg (· && _) (h.writable i).pid

theorem ran_alike (h : s.Relabelled f hsize t) (i : Fin n) (d : Int) :
    (s.ran i d).Alike (f.translation hsize) (t.ran (i.cast hsize) d) := by
  simpa using h.alike.ran (i := i) (d := d) h.left (by simpa using h.outcome i d)

/-- A slice that is run under both labels is recorded under both or under neither. -/
theorem ran (h : s.Relabelled f hsize t) (hrunning : (s.process i).phase = .running)
    (h0 : 0 ≤ d) (hd : d ≤ (s.process i).remaining) :
    (Text.isWritable (s.process i).pid →
      (s.ran i d).Relabelled f hsize (t.ran (i.cast hsize) d)) ∧
    (Text.isWritable (s.process i).pid = false →
      ((s.ran i d).unrecorded s).Relabelled f hsize ((t.ran (i.cast hsize) d).unrecorded t)) := by
  have hrunning' : (t.process (i.cast hsize)).phase = .running := by
    rw [h.process, Proc.phase_relabelled, hrunning]
  have hd' : d ≤ (t.process (i.cast hsize)).remaining := by
    rw [h.process, Proc.remaining_relabelled]
    exact hd
  let policy : SlicePolicy n := fun _ _ => .ok d
  let policy' : SlicePolicy m := fun _ _ => .ok d
  constructor
  · intro _
    have hrun : Move policy s (s.ran i d) := .execute hrunning rfl h0 hd
    have hrun' : Move policy' t (t.ran (i.cast hsize) d) := .execute hrunning' rfl h0 hd'
    exact h.of_moves (.single hrun) (.single hrun') (h.ran_alike i d)
  · intro hpid
    have hcut : Cut policy s ((s.ran i d).unrecorded s) := .execute hrunning rfl h0 hd hpid
    have hcut' : Cut policy' t ((t.ran (i.cast hsize) d).unrecorded t) :=
      .execute hrunning' rfl h0 hd' ((h.isWritable_pid i).trans hpid)
    exact h.of_cuts hcut hcut' ((h.ran_alike i d).unrecorded h.alike)

end Relabelled

end Scheduler

-- ---------------------------------------------------------------------------
-- Computations that do the same under other labels
-- ---------------------------------------------------------------------------

/-- Both computations answered, or both failed, with the same under other labels. Answers are
read by a function, since some of them tell of slots. -/
inductive Sim.Agree (f : Labels) (hsize : n = m) (g : α → β) :
    EStateM.Result SchedulerError (Scheduler n) α →
      EStateM.Result SchedulerError (Scheduler m) β → Prop
  | ok {s t} (a : α) : s.Relabelled f hsize t → Agree f hsize g (.ok a s) (.ok (g a) t)
  | error {s t} (e : SchedulerError) : s.Relabelled f hsize t →
      Agree f hsize g (.error e s) (.error (e.relabelled f) t)

/-- An error of a process tells the new pid if it can be written just as the old one. -/
theorem Sim.Agree.process_error {s : Scheduler n} {t : Scheduler m} {g : α → β}
    (h : s.Relabelled f hsize t) (e : ProcError)
    (he : (e.relabelled f).phrase.isWritable = e.phrase.isWritable) :
    Agree f hsize g (.error (.process e.raised) s)
      (.error (.process (e.relabelled f).raised) t) := by
  rw [ProcError.raised_relabelled he]
  exact .error (.process e.raised) h

/-- The computations take no notice of labels. -/
def Sim.Blind (f : Labels) (hsize : n = m) (g : α → β) (x : Sim n α) (y : Sim m β) : Prop :=
  ∀ s t, s.Relabelled f hsize t → Agree f hsize g (EStateM.run x s) (EStateM.run y t)

namespace Sim.Blind

theorem pure (g : α → β) (a : α) : Blind f hsize g (pure a) (pure (g a)) :=
  fun _ _ h => .ok a h

theorem bind {x : Sim n α} {y : Sim m β} {k : α → Sim n γ} {k' : β → Sim m δ}
    (hx : Blind f hsize g x y) (hk : ∀ a, Blind f hsize g' (k a) (k' (g a))) :
    Blind f hsize g' (x >>= k) (y >>= k') := by
  intro s t h
  have hresult := hx s t h
  rw [EStateM.run_bind, EStateM.run_bind]
  generalize EStateM.run x s = left at hresult
  generalize EStateM.run y t = right at hresult
  cases hresult with
  | ok a hafter => exact hk a _ _ hafter
  | error e hafter => exact .error e hafter

theorem map {x : Sim n α} {y : Sim m β} {k : α → γ} {k' : β → δ} (hx : Blind f hsize g x y)
    (hk : ∀ a, k' (g a) = g' (k a)) : Blind f hsize g' (k <$> x) (k' <$> y) := by
  rw [map_eq_pure_bind, map_eq_pure_bind]
  refine hx.bind fun a => ?_
  rw [hk]
  exact .pure g' (k a)

theorem get_bind {k : Scheduler n → Sim n α} {k' : Scheduler m → Sim m β}
    (hk : ∀ s t, s.Relabelled f hsize t → Blind f hsize g (k s) (k' t)) :
    Blind f hsize g (get >>= k) (get >>= k') :=
  fun s t h => hk s t h s t h

end Sim.Blind

namespace Sim

open Scheduler

/-! ## Stages -/

theorem blind_admitArrivals :
    Blind f hsize (List.map (Fin.cast hsize)) admitArrivals admitArrivals := by
  intro s t h
  have hdue : t.dueSlots = s.dueSlots.map (Fin.cast hsize) :=
    h.alike.dueSlots fun j _ => Relabelled.known hsize j
  have harrived := h.alike.arrived h.left fun j _ => Relabelled.known hsize j
  rcases admissible_or_cut s with hadmissible | ⟨before, i, hcut⟩
  · have hadmissible' (j : Fin m) (hj : t.due j) : t.admissible j := by
      obtain ⟨i, rfl⟩ := Relabelled.known (f := f) hsize j
      exact (h.admissible i).trans (hadmissible i (h.alike.due ▸ hj))
    rw [run_admitArrivals h.left hadmissible, run_admitArrivals h.right hadmissible', hdue]
    exact .ok _ (h.of_moves (moves_arrived .standard) (moves_arrived .standard) harrived)
  · obtain ⟨hcut', halike⟩ :=
      h.alike.admissionCut (Relabelled.known hsize) h.admissible h.left hcut
    rw [run_admitArrivals_refused h.left hcut, run_admitArrivals_refused h.right hcut']
    exact .error _ (h.of_advances (advances_admissionCut .standard hcut)
      (advances_admissionCut .standard hcut') halike)

theorem blind_applyBoost :
    Blind f hsize (List.map (Fin.cast hsize)) applyBoost applyBoost := by
  intro s t h
  have hdue := h.alike.boost_due h.left h.right
  have hbelow : t.bank.belowTop = s.bank.belowTop.map (Fin.cast hsize) := h.alike.queues.belowTop
  rw [run_applyBoost, run_applyBoost, hdue, hbelow]
  split
  · have hboost : Move .standard s s.boosted := .boost ‹_›
    have hboost' : Move .standard t t.boosted := .boost (hdue.trans ‹_›)
    exact .ok _ (h.of_moves (.single hboost) (.single hboost') (h.alike.boosted h.left h.right))
  · exact .ok [] h

theorem blind_dispatch : Blind f hsize (Option.map (Fin.cast hsize)) dispatch dispatch := by
  intro s t h
  cases hdequeue : s.bank.dequeue with
  | none =>
    have hdequeue' := h.alike.queues.dequeue_eq_none hdequeue
    rw [run_dispatch_none (Bank.dequeue_eq_none.mp hdequeue),
      run_dispatch_none (Bank.dequeue_eq_none.mp hdequeue')]
    exact .ok none h
  | some head =>
    obtain ⟨i, rest⟩ := head
    obtain ⟨rest', hdequeue', hrest⟩ := h.alike.queues.dequeue_eq_some hdequeue
    have halike := h.alike.dispatched hdequeue hdequeue' hrest
    cases hi : (s.dispatchEntry i).message.isWritable with
    | true =>
      have hi' := (h.isWritable_dispatchEntry i).trans hi
      have hdispatch : Move .standard s (s.dispatched i rest) := .dispatch hdequeue
      have hdispatch' : Move .standard t (t.dispatched (i.cast hsize) rest') := .dispatch hdequeue'
      rw [run_dispatch h.left hdequeue hi, run_dispatch h.right hdequeue' hi']
      exact .ok (some i) (h.of_moves (.single hdispatch) (.single hdispatch') halike)
    | false =>
      have hi' := (h.isWritable_dispatchEntry i).trans hi
      have hcut : Cut .standard s _ := .dispatch hdequeue hi
      have hcut' : Cut .standard t _ := .dispatch hdequeue' hi'
      rw [run_dispatch_refused h.left hdequeue hi, run_dispatch_refused h.right hdequeue' hi']
      exact .error _ (h.of_cuts hcut hcut' (halike.unrecorded h.alike))

theorem blind_execute (i : Fin n) : Blind f hsize (·.relabelled f) (execute .standard i)
    (execute .standard (i.cast hsize)) := by
  intro s t h
  have hpid : Text.isWritable (f.pid (s.process i).pid) = Text.isWritable (s.process i).pid :=
    (h.writable i).pid
  rw [run_execute_eq h.left, run_execute_eq h.right, standard_eq h.left, standard_eq h.right,
    h.share, h.isWritable_pid, h.process]
  by_cases hrunning : (s.process i).phase = .running
  · simp only [Proc.phase_relabelled, Proc.remaining_relabelled, ne_eq, hrunning,
      not_true_eq_false, if_false, h.slice]
    split
    · exact .process_error h
        (.sliceOutside (s.process i).pid (s.share i) (s.process i).remaining)
        (by simp [ProcError.relabelled, ProcError.phrase, hpid])
    · obtain ⟨hran, hcut⟩ := h.ran hrunning (d := s.share i) (by omega) (by omega)
      cases hwritable : Text.isWritable (s.process i).pid with
      | true => exact .ok _ (hran hwritable)
      | false => exact .error _ (hcut hwritable)
  · simp only [Proc.phase_relabelled, ne_eq, hrunning, not_false_eq_true, if_true]
    exact .process_error h (.wrongPhase .execute (s.process i).pid (s.process i).phase)
      (by simp [ProcError.relabelled, ProcError.phrase, hpid])

theorem blind_report : Blind f hsize (·.relabelled f) report report := by
  intro s t h
  rw [run_report, run_report, h.report]
  cases s.report with
  | ok r => exact .ok r h
  | error e => exact .error _ h

theorem blind_fastForward : Blind f hsize id fastForward fastForward := by
  intro s t h
  cases hnext : s.nextEvent with
  | none =>
    have hnext' := h.nextEvent_eq_none hnext
    have hstall : Move .standard s s.stalled := .stall hnext
    have hstall' : Move .standard t t.stalled := .stall hnext'
    have hstalled := h.of_moves (.single hstall) (.single hstall') h.alike.stalled
    have hpending : (m : Int) - t.completed = n - s.completed := by rw [h.alike.completed, ← hsize]
    rw [run_fastForward_none hnext, run_fastForward_none hnext', hstalled.report, hpending, h.clock]
    cases s.stalled.report with
    | ok r => exact .error _ hstalled
    | error e => exact .error _ hstalled
  | some target =>
    have hnext' : t.nextEvent = some target := by
      simpa using h.alike.nextEvent hnext fun j hj => absurd (Relabelled.known hsize j) hj
    have hidle : Move .standard s (s.idled target) := .idle hnext
    have hidle' : Move .standard t (t.idled target) := .idle hnext'
    have hidled : (s.idled target).Alike (f.translation hsize) (t.idled _) := h.alike.idled
    rw [Labels.translation_time, id] at hidled
    cases hwritable : Text.isWritable (max target s.clock) with
    | true =>
      rw [run_fastForward hnext hwritable, run_fastForward hnext' (h.clock ▸ hwritable), h.clock]
      exact .ok _ (h.of_moves (.single hidle) (.single hidle') hidled)
    | false =>
      rw [run_fastForward_refused hnext hwritable,
        run_fastForward_refused hnext' (h.clock ▸ hwritable)]
      exact .error _ h

/-! ## Steps and runs -/

theorem blind_step : Blind f hsize id (step .standard) (step .standard) := by
  have hend : Blind f hsize id (do return !(← get).done) (do return !(← get).done) := by
    refine .get_bind fun s t h => ?_
    rw [h.done]
    exact .pure id _
  refine .get_bind fun s t h => ?_
  rw [h.done]
  split
  · exact .pure id false
  · refine blind_admitArrivals.bind fun _ => blind_applyBoost.bind fun _ =>
      blind_dispatch.bind fun head => ?_
    cases head with
    | none => exact blind_fastForward.bind fun _ => hend
    | some i => exact (blind_execute i).bind fun _ => hend

theorem blind_steps (fuel : Nat) :
    Blind f hsize id (steps .standard fuel) (steps .standard fuel) := by
  induction fuel with
  | zero => exact fun s t h => .error .endless h
  | succ fuel ih =>
    refine blind_step.bind fun more => ?_
    cases more with
    | false => exact .pure id ()
    | true => exact ih

theorem blind_run : Blind f hsize (·.relabelled f) (run .standard) (run .standard) := by
  refine .get_bind fun s t h => ?_
  rw [h.stepBound]
  exact (blind_steps _).bind fun _ => blind_report

end Sim

-- ---------------------------------------------------------------------------
-- Calls and what they answer
-- ---------------------------------------------------------------------------

/-- What a computation answers, or why it fails. -/
def Sim.answer (x : Sim n α) (s : Scheduler n) : Except SchedulerError α :=
  match EStateM.run x s with
  | .ok a _ => .ok a
  | .error e _ => .error e

theorem Sim.after_map (k : α → β) (x : Sim n α) (s : Scheduler n) :
    (k <$> x).after s = x.after s := by
  rw [Sim.after, Sim.after, EStateM.run_map]
  cases EStateM.run x s <;> rfl

namespace Sim.Blind

variable {x : Sim n α} {y : Sim m β} {g : α → β} {s : Scheduler n} {t : Scheduler m}

theorem after (hx : Blind f hsize g x y) (h : s.Relabelled f hsize t) :
    (x.after s).Relabelled f hsize (y.after t) := by
  have hresult := hx s t h
  unfold Sim.after
  generalize EStateM.run x s = left at hresult
  generalize EStateM.run y t = right at hresult
  cases hresult <;> assumption

theorem answer (hx : Blind f hsize g x y) (h : s.Relabelled f hsize t) :
    y.answer t = ((x.answer s).map g).mapError (·.relabelled f) := by
  have hresult := hx s t h
  unfold Sim.answer
  generalize EStateM.run x s = left at hresult
  generalize EStateM.run y t = right at hresult
  cases hresult <;> rfl

end Sim.Blind

namespace Scheduler

/-- The answer of a call. -/
inductive Answer (n : Nat) where
  | admitted (slots : List (Fin n))
  | moved (slots : List (Fin n))
  | head (slot : Option (Fin n))
  | slice (b : Slice)
  | time (now : Int)
  | more (remains : Bool)
  | report (r : Report)
deriving DecidableEq, Repr

/-- The computation behind a call. -/
def Call.sim (policy : SlicePolicy n) : Call n → Sim n (Answer n)
  | .arrivals => .admitted <$> Sim.admitArrivals
  | .boost => .moved <$> Sim.applyBoost
  | .dispatch => .head <$> Sim.dispatch
  | .execute i => .slice <$> Sim.execute policy i
  | .fastForward => .time <$> Sim.fastForward
  | .step => .more <$> Sim.step policy
  | .run => .report <$> Sim.run policy

theorem call_eq_after (policy : SlicePolicy n) (s : Scheduler n) (c : Call n) :
    s.call policy c = (c.sim policy).after s := by
  cases c <;> exact (Sim.after_map _ _ s).symm

def answer (policy : SlicePolicy n) (s : Scheduler n) (c : Call n) :
    Except SchedulerError (Answer n) :=
  (c.sim policy).answer s

/-- The call on the corresponding process. -/
def Call.cast (hsize : n = m) : Call n → Call m
  | .arrivals => .arrivals
  | .boost => .boost
  | .dispatch => .dispatch
  | .execute i => .execute (i.cast hsize)
  | .fastForward => .fastForward
  | .step => .step
  | .run => .run

def Answer.relabelled (f : Labels) (hsize : n = m) : Answer n → Answer m
  | .admitted slots => .admitted (slots.map (Fin.cast hsize))
  | .moved slots => .moved (slots.map (Fin.cast hsize))
  | .head slot => .head (slot.map (Fin.cast hsize))
  | .slice b => .slice (b.relabelled f)
  | .time now => .time now
  | .more remains => .more remains
  | .report r => .report (r.relabelled f)

theorem blind_sim (c : Call n) : Sim.Blind f hsize (Answer.relabelled f hsize) (c.sim .standard)
    ((c.cast hsize).sim .standard) := by
  cases c with
  | arrivals => exact Sim.blind_admitArrivals.map fun _ => rfl
  | boost => exact Sim.blind_applyBoost.map fun _ => rfl
  | dispatch => exact Sim.blind_dispatch.map fun _ => rfl
  | execute i => exact (Sim.blind_execute i).map fun _ => rfl
  | fastForward => exact Sim.blind_fastForward.map fun _ => rfl
  | step => exact Sim.blind_step.map fun _ => rfl
  | run => exact Sim.blind_run.map fun _ => rfl

namespace Relabelled

variable {s : Scheduler n} {t : Scheduler m}

theorem call (h : s.Relabelled f hsize t) (c : Call n) :
    (s.call .standard c).Relabelled f hsize (t.call .standard (c.cast hsize)) := by
  rw [call_eq_after, call_eq_after]
  exact (blind_sim c).after h

theorem answer (h : s.Relabelled f hsize t) (c : Call n) :
    t.answer .standard (c.cast hsize) =
      ((s.answer .standard c).map (·.relabelled f hsize)).mapError (·.relabelled f) :=
  (blind_sim c).answer h

theorem drive (h : s.Relabelled f hsize t) (calls : List (Call n)) :
    (s.drive .standard calls).Relabelled f hsize
      (t.drive .standard (calls.map (Call.cast hsize))) := by
  induction calls generalizing s t with
  | nil => exact h
  | cons c rest ih => exact ih (h.call c)

theorem pid (h : s.Relabelled f hsize t) (i : Fin n) :
    t.bank.pid (i.cast hsize) = f.pid (s.bank.pid i) :=
  congrArg Proc.pid (h.process i)

theorem pids (h : s.Relabelled f hsize t) (l : List (Fin n)) :
    t.bank.pids (l.map (Fin.cast hsize)) = (s.bank.pids l).map fun pid => (f.pid pid : Int) :=
  h.alike.pids l

end Relabelled

end Scheduler

namespace Workload

open Scheduler

variable {w : Workload} {config : Config} {g : w.Relabelling}

theorem relabelled_start (hwritable : ∀ i, g.AsWritable (w.spec i)) :
    (w.start config).Relabelled g.toLabels size_relabelled ((w.relabelled g).start config) where
  alike := alike_start Config.alike_relabelled fun i =>
    (spec_relabelled (f := g) i).symm ▸ Spec.alike_relabelled
  config := rfl
  spec i := by
    rw [process_start, process_start]
    exact spec_relabelled i
  writable i := by
    rw [process_start]
    exact hwritable i
  left := sound_start
  right := sound_start

/-- With other pids, as long as they differ and can be written where the old ones can, and with
any names, the same jobs are scheduled alike under the same calls. Nothing but labels differs in
the processes, the queues, the slices, the events and the report, and every call answers or fails
with the same under other labels. -/
theorem labels_irrelevant (w : Workload) (config : Config) (f : w.Relabelling)
    (hwritable : ∀ i, f.AsWritable (w.spec i)) (calls : List (Call w.size)) :
    let s := (w.start config).drive .standard calls
    let t := ((w.relabelled f).start config).drive .standard
      (calls.map (Call.cast size_relabelled))
    let relabelled (pid : Int) : Int := f.pid pid
    t.clock = s.clock ∧
    t.bank.processes.toList = s.bank.processes.toList.map (·.relabelled f.toLabels) ∧
    (∀ l, t.bank.pids (t.bank.queueAt l) = (s.bank.pids (s.bank.queueAt l)).map relabelled) ∧
    t.bank.members.Perm (s.bank.members.map relabelled) ∧
    t.bank.levels.map Level.quantum = s.bank.levels.map Level.quantum ∧
    t.booster.last = s.booster.last ∧ t.booster.count = s.booster.count ∧
    t.completed = s.completed ∧ t.switches = s.switches ∧ t.done = s.done ∧
    t.timeline.toList = s.timeline.toList.map (·.relabelled f.toLabels) ∧
    t.log.toList.map Entry.mark = (s.log.toList.map Entry.mark).map (·.relabelled f.toLabels) ∧
    t.report = s.report.map (·.relabelled f.toLabels) ∧
    (∀ i, s.processWithPid (w.spec i).pid = .ok i ∧
      t.processWithPid (relabelled (w.spec i).pid) = .ok (i.cast size_relabelled) ∧
      ∀ r row, s.report = .ok r → r.byPid (w.spec i).pid = .ok row →
        (r.relabelled f.toLabels).byPid (relabelled (w.spec i).pid) =
          .ok (row.relabelled f.toLabels)) ∧
    ∀ c, t.answer .standard (c.cast size_relabelled) =
      ((s.answer .standard c).map (·.relabelled f.toLabels size_relabelled)).mapError
        (·.relabelled f.toLabels) := by
  intro s t relabelled
  have h : s.Relabelled f.toLabels size_relabelled t :=
    (relabelled_start hwritable).drive calls
  refine ⟨h.clock, h.processes, fun l => ?_, ?_, ?_, ?_, h.alike.count, h.alike.completed,
    h.alike.switches, h.done, ?_, ?_, h.report, fun i => ?_, h.answer⟩
  · rw [h.alike.queues.queueAt]
    exact h.pids _
  · have hqueued : t.bank.pids t.bank.queued = (s.bank.pids s.bank.queued).map relabelled := by
      rw [h.alike.queues.queued]
      exact h.pids _
    exact h.right.bank.members.trans (hqueued ▸ (h.left.bank.members.map relabelled).symm)
  · rw [h.right.quanta, h.left.quanta, h.config]
  · simpa using h.alike.last
  · rw [h.alike.timeline, Labels.translation_slice]
  · rw [h.alike.marks, Labels.translation_mark]
  · have hpid (j) : s.bank.pid j = (w.spec j).pid := congrArg Spec.pid (spec_drive calls j)
    refine ⟨hpid i ▸ h.left.processWithPid i, ?_, fun r row hr hrow => ?_⟩
    · have hpid' : t.bank.pid (i.cast size_relabelled) = relabelled (w.spec i).pid :=
        hpid i ▸ h.pid i
      exact hpid' ▸ h.right.processWithPid _
    · refine Report.byPid_relabelled (fun row hrow hsame => ?_) hrow
      rw [(Report.sums_of_collect hr).rows, toList_processes, List.map_map, List.mem_map] at hrow
      obtain ⟨j, -, rfl⟩ := hrow
      rw [show ((Row.ofProc ∘ s.process) j).pid = (w.spec j).pid from hpid j] at hsame ⊢
      exact f.injective _ (mem_specs.mpr ⟨j, rfl⟩) _ (mem_specs.mpr ⟨i, rfl⟩) hsame

/-- The jobs are renumbered from ten on and lose their names. -/
theorem labels_irrelevant_reference :
    let f : reference.Relabelling := ⟨⟨fun pid => pid.toNat + 10, fun _ => none⟩, by decide⟩
    let s := (reference.start .standard).drive .standard [.step, .run]
    let t := ((reference.relabelled f).start .standard).drive .standard [.step, .run]
    t.timeline.toList = s.timeline.toList.map (·.relabelled f.toLabels) := by
  intro f s t
  have hwritable : ∀ i, f.AsWritable (reference.spec i) := by
    intro i
    constructor <;> revert i <;> decide +kernel
  obtain ⟨-, -, -, -, -, -, -, -, -, -, htimeline, -⟩ :=
    labels_irrelevant reference .standard f hwritable [.step, .run]
  exact htimeline

/-- The first job is admitted and told of under its own pid, but not under a long one. -/
theorem long_label_not_admitted :
    let f := longLabels reference
    ((reference.start .standard).answer .standard .arrivals matches .ok _) ∧
    ((reference.relabelled f).start .standard).answer .standard .arrivals matches
      .error (.numeral .tooLong) := by
  decide +kernel

end Workload

end FeedbackQueue
