import FeedbackQueue.Proofs.Scheduler.History
import FeedbackQueue.Proofs.Scheduler.Legible

/-!
# No overtaking

The queues of all levels, one after the other, are one line. A process that joins a
queue stands somewhere in this line but changes the order of nobody else, a boost leaves
the line as it is, and the CPU goes to the head. So of two processes in the line the first
is served first, whatever happens meanwhile. The top queue even is a line that nobody can
cut into, and after a boost everybody stands there.

A dispatch gives the CPU away before it is recorded. Who is served is therefore told by
who comes to run, and the log tells the same wherever it can be written.
-/

namespace FeedbackQueue

/-- The pids whose dispatch was recorded, in this order. -/
def dispatches (entries : List Entry) : List Int :=
  (entries.filter (·.kind = .dispatch)).filterMap (·.pid)

theorem dispatches_append (l l' : List Entry) :
    dispatches (l ++ l') = dispatches l ++ dispatches l' := by
  simp [dispatches]

theorem dispatches_concat_of_ne {e : Entry} (h : e.kind ≠ .dispatch) (l : List Entry) :
    dispatches (l ++ [e]) = dispatches l := by
  simp [dispatches, h]

/-- `b` is not served without `a` having been served before. -/
def ServedFirst (served : List α) (a b : α) : Prop :=
  ∀ before after, served = before ++ b :: after → a ∈ before

theorem servedFirst_nil : ServedFirst [] a b := by
  rintro before after h
  simp at h

theorem ServedFirst.cons {served : List α} (h : ServedFirst served a b) (hne : x ≠ b) :
    ServedFirst (x :: served) a b := by
  intro before after heq
  rcases List.cons_eq_append_iff.mp heq with ⟨rfl, hb⟩ | ⟨before, rfl, hsplit⟩
  · exact absurd (List.cons.inj hb).1.symm hne
  · exact List.mem_cons_of_mem _ (h before after hsplit)

theorem servedFirst_cons_self (served : List α) (hne : a ≠ b) :
    ServedFirst (a :: served) a b := by
  intro before after heq
  rcases List.cons_eq_append_iff.mp heq with ⟨rfl, hb⟩ | ⟨before, rfl, -⟩
  · exact absurd (List.cons.inj hb).1.symm hne
  · exact List.mem_cons_self

/-- What is served is what waits, in its order, until all of it has been served. -/
def ServedInOrder (served waiting : List α) : Prop := served <+: waiting ∨ waiting <+: served

theorem ServedInOrder.cons {served waiting : List α} (h : ServedInOrder served waiting) (x : α) :
    ServedInOrder (x :: served) (x :: waiting) :=
  h.imp (fun h => List.cons_prefix_cons.mpr ⟨rfl, h⟩) fun h => List.cons_prefix_cons.mpr ⟨rfl, h⟩

namespace Scheduler

variable {s t u : Scheduler n} {policy : SlicePolicy n}

/-- The processes that run in the second scheduler and did not run in the first. -/
def served (s t : Scheduler n) : List (Fin n) :=
  (List.finRange n).filter fun i => (s.process i).phase ≠ .running ∧ (t.process i).phase = .running

theorem mem_served :
    i ∈ s.served t ↔ (s.process i).phase ≠ .running ∧ (t.process i).phase = .running := by
  simp [served]

/-- Who comes to run in a sequence of stages, in this order. -/
def servedByStages (policy : SlicePolicy n) (s : Scheduler n) : List (Call n) → List (Fin n)
  | [] => []
  | c :: rest => s.served (s.call policy c) ++ servedByStages policy (s.call policy c) rest

/-- Who comes to run as a scheduler is driven, in this order, steps and runs included. -/
def servedBy (policy : SlicePolicy n) (s : Scheduler n) (calls : List (Call n)) : List (Fin n) :=
  servedByStages policy s (s.stages policy calls)

-- ---------------------------------------------------------------------------
-- One stage
-- ---------------------------------------------------------------------------

/-- Others join the line, and nobody is served. -/
structure Joins (s t : Scheduler n) : Prop where
  running : ∀ i, (t.process i).phase = .running → (s.process i).phase = .running
  queued : s.bank.queued.Sublist t.bank.queued
  top : s.bank.queueAt 0 <+: t.bank.queueAt 0
  log : dispatches t.log.toList = dispatches s.log.toList

/-- The head of the line is served. -/
structure Serves (s t : Scheduler n) (i : Fin n) : Prop where
  served : ∀ j, ((s.process j).phase ≠ .running ∧ (t.process j).phase = .running) ↔ j = i
  queued : s.bank.queued = i :: t.bank.queued
  top : s.bank.queueAt 0 = [] ∨ s.bank.queueAt 0 = i :: t.bank.queueAt 0
  log : dispatches t.log.toList = dispatches s.log.toList ++ [s.bank.pid i] ∨
    dispatches t.log.toList = dispatches s.log.toList ∧
      (s.dispatchEntry i).message.isWritable = false

theorem Joins.refl (s : Scheduler n) : s.Joins s :=
  ⟨fun _ h => h, .refl _, List.prefix_refl _, rfl⟩

theorem Joins.trans (h : s.Joins t) (h' : t.Joins u) : s.Joins u :=
  ⟨fun i hi => h.running i (h'.running i hi), h.queued.trans h'.queued, h.top.trans h'.top,
    h'.log.trans h.log⟩

theorem Joins.unrecorded {s t : Scheduler n} (h : s.Joins t) : s.Joins (t.unrecorded s) :=
  ⟨h.running, h.queued, h.top, rfl⟩

theorem Joins.served_eq (h : s.Joins t) : s.served t = [] :=
  List.eq_nil_iff_forall_not_mem.mpr fun i hi =>
    (mem_served.mp hi).1 (h.running i (mem_served.mp hi).2)

theorem Serves.served_eq (h : s.Serves t i) : s.served t = [i] := by
  have hperm : (s.served t).Perm [i] :=
    (List.perm_ext_iff_of_nodup ((List.nodup_finRange n).filter _) (List.nodup_singleton i)).mpr
      fun j => mem_served.trans ((h.served j).trans List.mem_singleton.symm)
  exact List.perm_singleton.mp hperm

theorem dispatches_push (s : Scheduler n) (h : e.kind ≠ .dispatch) :
    dispatches (s.log.push e).toList = dispatches s.log.toList := by
  rw [Array.toList_push, dispatches_concat_of_ne h]

theorem dispatches_dispatched : dispatches (s.dispatched i rest).log.toList =
    dispatches s.log.toList ++ [s.bank.pid i] := by
  rw [dispatched, Array.toList_push, dispatches_append]
  rfl

theorem joins_admitted (s : Scheduler n) (i : Fin n) : s.Joins (s.admitted i) := by
  refine ⟨fun j hj => ?_, Bank.queued_sublist_put, Bank.queueAt_zero_prefix_put,
    dispatches_push s (kind_admission_ne_dispatch _ _)⟩
  rw [process_admitted] at hj
  split at hj
  · simp at hj
  · exact hj

theorem joins_foldl_admitted (l : List (Fin n)) (s : Scheduler n) :
    s.Joins (l.foldl admitted s) := by
  induction l generalizing s with
  | nil => exact .refl s
  | cons i rest ih => exact (joins_admitted s i).trans (ih (s.admitted i))

theorem joins_admissionCut (s : Scheduler n) (before : List (Fin n)) (i : Fin n) :
    s.Joins (s.admissionCut before i) :=
  (joins_foldl_admitted before s).trans (joins_admitted _ i).unrecorded

theorem joins_boosted (s : Scheduler n) : s.Joins s.boosted := by
  refine ⟨fun i hi => ?_, Bank.queued_raiseAll (b := s.bank) ▸ .refl s.bank.queued,
    Bank.queueAt_zero_prefix_raiseAll, dispatches_push s nofun⟩
  rw [process_boosted] at hi
  split at hi <;> exact hi

theorem joins_ran (s : Scheduler n) (i : Fin n) (d : Int) : s.Joins (s.ran i d) := by
  refine ⟨fun j hj => ?_, queued_sublist_ran, queueAt_zero_prefix_ran,
    dispatches_push s (kind_settlement_ne_dispatch _)⟩
  rw [process_ran] at hj
  split at hj
  · exact absurd hj Proc.phase_settled
  · exact hj

/-- A log to which something else is added tells of no other dispatch. -/
theorem joins_push (s : Scheduler n) (h : e.kind ≠ .dispatch) (now : Int) :
    s.Joins { s with clock := now, log := s.log.push e } :=
  ⟨fun _ h => h, .refl _, List.prefix_refl _, dispatches_push s h⟩

variable (policy) in
theorem joins_call (hs : s.Sound) {c : Call n} (hstage : c.IsStage) (hc : c ≠ .dispatch) :
    s.Joins (s.call policy c) := by
  cases c with
  | arrivals =>
    rcases Sim.admissible_or_cut s with hall | ⟨before, i, hcut⟩
    · rw [call_arrivals policy hs hall]
      exact joins_foldl_admitted _ s
    · rw [call_arrivals_of_cut policy hs hcut]
      exact joins_admissionCut s before i
  | boost =>
    rw [call_boost]
    split
    · exact joins_boosted s
    · exact .refl s
  | dispatch => exact absurd rfl hc
  | execute i =>
    rcases after_execute policy hs i with hsame | ⟨d, -, -, -, -, hran⟩
    · rw [call, hsame]
      exact .refl s
    · rw [call, hran]
      split
      · exact joins_ran s i d
      · exact (joins_ran s i d).unrecorded
  | fastForward =>
    rcases s.after_fastForward with ⟨-, hstalled⟩ | ⟨target, -, hidled⟩
    · rw [call, hstalled]
      exact joins_push s (fun h => by cases h) _
    · rw [call, hidled]
      split
      · exact joins_push s (fun h => by cases h) _
      · exact .refl s
  | step => exact hstage.elim
  | run => exact hstage.elim

theorem serves_dispatched (hs : s.Sound) (h : s.bank.dequeue = some (i, rest)) :
    s.Serves (s.dispatched i rest) i := by
  have htop := Bank.queueAt_zero_of_dequeue h
  refine ⟨fun j => ?_, (Bank.dequeue_eq_some h).2.2.1, htop, .inl dispatches_dispatched⟩
  rw [process_dispatched h]
  by_cases hj : j = i
  · subst hj
    simp [hs.head_ready h, Proc.dispatched]
  · simp [hj]

variable (policy) in
/-- A dispatch serves the head of the line, whether or not it can be recorded. -/
theorem serves_call_dispatch (hs : s.Sound) (h : s.bank.dequeue = some (i, rest)) :
    s.Serves (s.call policy .dispatch) i := by
  have hserves := serves_dispatched hs h
  rw [call_dispatch policy hs h]
  split
  · exact hserves
  · exact ⟨hserves.served, hserves.queued, hserves.top, .inr ⟨rfl, Bool.eq_false_iff.mpr ‹_›⟩⟩

variable (policy) in
theorem joins_or_serves (hs : s.Sound) {c : Call n} (hstage : c.IsStage) :
    s.Joins (s.call policy c) ∨ ∃ i, s.Serves (s.call policy c) i := by
  by_cases hc : c = .dispatch
  · subst hc
    cases hdequeue : s.bank.dequeue with
    | none => exact .inl ((call_dispatch_none policy hdequeue).symm ▸ .refl s)
    | some head => exact .inr ⟨head.1, serves_call_dispatch policy hs hdequeue⟩
  · exact .inl (joins_call policy hs hstage hc)

-- ---------------------------------------------------------------------------
-- Many stages
-- ---------------------------------------------------------------------------

theorem sound_call (hs : s.Sound) (c : Call n) : (s.call policy c).Sound :=
  sound_of_advances (advances_call policy hs c) hs

/-- Of two processes in the line the first is served first. Until then they stay in the line in
this order. -/
theorem servedFirst_of_queued {stages : List (Call n)} (hs : s.Sound)
    (hstages : ∀ c ∈ stages, c.IsStage) (hij : [i, j].Sublist s.bank.queued) :
    ServedFirst (s.servedByStages policy stages) i j := by
  induction stages generalizing s with
  | nil => exact servedFirst_nil
  | cons c rest ih =>
    obtain ⟨hstage, hrest⟩ := List.forall_mem_cons.mp hstages
    have ht : (s.call policy c).Sound := sound_call hs c
    rw [servedByStages]
    rcases joins_or_serves policy hs hstage with hjoins | ⟨k, hserves⟩
    · rw [hjoins.served_eq]
      exact ih ht hrest (hij.trans hjoins.queued)
    · rw [hserves.served_eq]
      have hnodup := hserves.queued ▸ hs.bank.nodup
      rw [hserves.queued] at hij
      -- The head is not behind anybody, and nobody is in the line twice.
      have hk {m : Fin n} (hm : m ∈ (s.call policy c).bank.queued) : k ≠ m := by
        rintro rfl
        exact (List.nodup_cons.mp hnodup).1 hm
      rcases List.cons_sublist_cons'.mp hij with hij | ⟨rfl, hj⟩
      · exact (ih ht hrest hij).cons (hk (hij.subset (by simp)))
      · exact servedFirst_cons_self _ (hk (hj.subset (by simp)))

/-- The top queue is served from its head, and others only after all of it. -/
theorem servedInOrder_of_prefix {stages : List (Call n)} (hs : s.Sound)
    (hstages : ∀ c ∈ stages, c.IsStage) (htop : waiting <+: s.bank.queueAt 0) :
    ServedInOrder (s.servedByStages policy stages) waiting := by
  induction stages generalizing s waiting with
  | nil => exact .inl List.nil_prefix
  | cons c rest ih =>
    obtain ⟨hstage, hrest⟩ := List.forall_mem_cons.mp hstages
    have ht : (s.call policy c).Sound := sound_call hs c
    rw [servedByStages]
    rcases joins_or_serves policy hs hstage with hjoins | ⟨k, hserves⟩
    · rw [hjoins.served_eq]
      exact ih ht hrest (htop.trans hjoins.top)
    · rw [hserves.served_eq]
      cases waiting with
      | nil => exact .inr List.nil_prefix
      | cons head waiting =>
        rcases hserves.top with hnone | hhead
        · simp [hnone] at htop
        · obtain ⟨rfl, htop⟩ := List.cons_prefix_cons.mp (hhead ▸ htop)
          exact (ih ht hrest htop).cons head

/-- What the log tells of who is served: all whose dispatch could be recorded. -/
theorem exists_recorded {stages : List (Call n)} (hs : s.Sound)
    (hstages : ∀ c ∈ stages, c.IsStage) :
    ∃ recorded,
      dispatches (s.drive policy stages).log.toList = dispatches s.log.toList ++ recorded ∧
        recorded.Sublist (s.bank.pids (s.servedByStages policy stages)) ∧
          (s.Legible → recorded = s.bank.pids (s.servedByStages policy stages)) := by
  induction stages generalizing s with
  | nil => exact ⟨[], (List.append_nil _).symm, .slnil, fun _ => rfl⟩
  | cons c rest ih =>
    obtain ⟨hstage, hrest⟩ := List.forall_mem_cons.mp hstages
    have hadvances := advances_call policy hs c
    have hpids (l : List (Fin n)) : (s.call policy c).bank.pids l = s.bank.pids l :=
      List.map_congr_left fun i _ => pid_of_advances hadvances i
    obtain ⟨recorded, hlog, hsub, hall⟩ := ih (sound_of_advances hadvances hs) hrest
    have hlegible (h : s.Legible) := hall (h.of_advances hadvances)
    rw [hpids] at hsub hlegible
    rw [servedByStages,
      show s.drive policy (c :: rest) = (s.call policy c).drive policy rest from rfl]
    rcases joins_or_serves policy hs hstage with hjoins | ⟨k, hserves⟩
    · rw [hjoins.served_eq]
      exact ⟨recorded, hjoins.log ▸ hlog, hsub, hlegible⟩
    · rw [hserves.served_eq]
      rcases hserves.log with hlog' | ⟨hlog', hrefused⟩
      · refine ⟨s.bank.pid k :: recorded, ?_, hsub.cons_cons _, fun h => ?_⟩
        · rw [hlog, hlog', List.append_assoc]
          rfl
        · rw [hlegible h]
          rfl
      · refine ⟨recorded, hlog' ▸ hlog, hsub.cons _, fun h => ?_⟩
        have hwritable := isWritable_dispatchEntry hs (h k)
        rw [hrefused] at hwritable
        cases hwritable

-- ---------------------------------------------------------------------------
-- Boosts inside steps and runs
-- ---------------------------------------------------------------------------

/-- No other stage records a boost. -/
theorem ofKind_boost_call (hs : s.Sound) {c : Call n} (hstage : c.IsStage) (hc : c ≠ .boost) :
    (s.call policy c).log.ofKind .boost = s.log.ofKind .boost := by
  cases c with
  | arrivals =>
    rcases Sim.admissible_or_cut s with hall | ⟨before, i, hcut⟩
    · rw [call_arrivals policy hs hall]
      exact ofKind_arrived (.inl rfl)
    · rw [call_arrivals_of_cut policy hs hcut]
      exact hcut.admits.ofKind_eq (by decide) (by decide)
  | boost => exact absurd rfl hc
  | dispatch =>
    cases h : s.bank.dequeue with
    | none => rw [call_dispatch_none policy h]
    | some head =>
      rw [call_dispatch policy hs h]
      split
      · exact ofKind_dispatched (.inl rfl)
      · rfl
  | execute i =>
    rcases after_execute policy hs i with hsame | ⟨d, -, -, -, -, hran⟩
    · rw [call, hsame]
    · rw [call, hran]
      split
      · exact ofKind_ran (.inl rfl)
      · rfl
  | fastForward =>
    rcases s.after_fastForward with ⟨-, hstalled⟩ | ⟨target, -, hidled⟩
    · rw [call, hstalled]
      exact ofKind_push
    · rw [call, hidled]
      split
      · exact boosts_idled
      · rfl
  | step => exact hstage.elim
  | run => exact hstage.elim

variable (policy) in
/-- What a stage adds to the log. -/
theorem exists_log_call (hs : s.Sound) {c : Call n} (hstage : c.IsStage) :
    (c = .boost ∧ s.booster.due s.clock) ∨
      ∃ new, (s.call policy c).log.toList = s.log.toList ++ new ∧ ∀ e ∈ new, e.kind ≠ .boost := by
  by_cases hc : c = .boost ∧ s.booster.due s.clock
  · exact .inl hc
  · have hkind : (s.call policy c).log.ofKind .boost = s.log.ofKind .boost := by
      by_cases hboost : c = .boost
      · rw [hboost, call_boost, if_neg fun hdue => hc ⟨hboost, hdue⟩]
      · exact ofKind_boost_call hs hstage hboost
    obtain ⟨new, hnew⟩ := log_prefix_of_advances (advances_call policy hs c)
    exact .inr ⟨new, hnew.symm, ofKind_eq_nil_of_append hnew.symm hkind⟩

/-- What stages recorded of a boost was recorded by a call for it, when it was due. -/
theorem exists_boost_of_log {stages : List (Call n)} (hs : s.Sound) (hlog : s.log = #[])
    (hstages : ∀ c ∈ stages, c.IsStage)
    (heq : (s.drive policy stages).log.toList = before ++ e :: after) (he : e.kind = .boost) :
    ∃ first more, stages = first ++ .boost :: more ∧
      (s.drive policy first).booster.due (s.drive policy first).clock ∧
        ((s.drive policy first).call policy .boost).log.toList = before ++ [e] := by
  induction stages using List.reverseRecOn generalizing after with
  | nil => simp [drive, hlog] at heq
  | append_singleton stages c ih =>
    have hearlier (tail) (h : (s.drive policy stages).log.toList = before ++ e :: tail) :
        ∃ first more, stages ++ [c] = first ++ .boost :: more ∧
          (s.drive policy first).booster.due (s.drive policy first).clock ∧
            ((s.drive policy first).call policy .boost).log.toList = before ++ [e] := by
      obtain ⟨first, more, rfl, hboost⟩ := ih (fun c hc => hstages c (by simp [hc])) h
      exact ⟨first, more ++ [c], by simp, hboost⟩
    have hstage : c.IsStage := hstages c (by simp)
    have hsound := sound_of_advances (advances_drive policy hs stages) hs
    rw [drive_append, show drive policy _ [c] = call policy _ c from rfl] at heq
    rcases exists_log_call policy hsound hstage with ⟨rfl, hdue⟩ | ⟨new, hnew, hkind⟩
    · have hboost : Move policy (s.drive policy stages) (s.drive policy stages).boosted :=
        .boost hdue
      obtain ⟨x, hx⟩ := log_of_move hboost
      have hnew : ((s.drive policy stages).call policy .boost).log.toList =
          (s.drive policy stages).log.toList ++ [x] := by
        rw [call_boost, if_pos hdue, hx, Array.toList_push]
      rcases append_eq_append_cons (hnew.symm.trans heq) with ⟨tail, htail⟩ | ⟨ahead, hahead, hlast⟩
      · exact hearlier tail htail
      · cases ahead with
        | nil =>
          obtain ⟨rfl, -⟩ := List.cons_eq_cons.mp hlast
          rw [hahead, List.append_nil]
          exact ⟨stages, [], rfl, hdue, hnew⟩
        | cons _ _ => simp at hlast
    · rcases append_eq_append_cons (hnew.symm.trans heq) with ⟨tail, htail⟩ | ⟨ahead, -, rfl⟩
      · exact hearlier tail htail
      · exact absurd he (hkind e (by simp))

/-- After a boost the whole line is the top queue. -/
theorem queueAt_zero_call_boost (hdue : s.booster.due s.clock) :
    (s.call policy .boost).bank.queueAt 0 = (s.call policy .boost).bank.queued := by
  rw [call_boost, if_pos hdue, queueAt_zero_boosted]

theorem servedInOrder_of_boost (hs : s.Sound) (hdue : s.booster.due s.clock)
    {stages : List (Call n)} (hstages : ∀ c ∈ stages, c.IsStage) :
    ServedInOrder ((s.call policy .boost).servedByStages policy stages)
      (s.call policy .boost).bank.queued :=
  servedInOrder_of_prefix (sound_call hs .boost) hstages
    (queueAt_zero_call_boost hdue ▸ List.prefix_refl _)

end Scheduler

namespace Workload

open Scheduler

/-- Of two processes in the line, the one that stands first is served first, whatever
calls follow; and the log tells of those who are served in their order, leaving out at most
those whose dispatch cannot be recorded. After a boost the line as a whole is served next and
in its order, also if the boost happens within a step or a run. -/
theorem no_overtaking (w : Workload) (config : Config) (policy : SlicePolicy w.size) :
    (∀ calls more,
      let s := (w.start config).drive policy calls
      (∀ i j, [i, j].Sublist s.bank.queued → ServedFirst (s.servedBy policy more) i j) ∧
        ∃ recorded,
          dispatches (s.drive policy more).log.toList = dispatches s.log.toList ++ recorded ∧
            recorded.Sublist (s.bank.pids (s.servedBy policy more)) ∧
              (w.Legible config → recorded = s.bank.pids (s.servedBy policy more))) ∧
    (∀ calls more,
      let s := (w.start config).drive policy calls
      let boosted := s.call policy .boost
      s.booster.due s.clock → ServedInOrder (boosted.servedBy policy more) boosted.bank.queued) ∧
    ∀ calls before (e : Entry) after,
      ((w.start config).drive policy calls).log.toList = before ++ e :: after → e.kind = .boost →
        ∃ first more,
          let s := (w.start config).drive policy first
          let boosted := s.call policy .boost
          (w.start config).stages policy calls = first ++ .boost :: more ∧
            s.booster.due s.clock ∧ boosted.log.toList = before ++ [e] ∧
              boosted.drive policy more = (w.start config).drive policy calls ∧
                ServedInOrder (boosted.servedByStages policy more) boosted.bank.queued := by
  refine ⟨?_, ?_, ?_⟩
  · intro calls more s
    have hs : s.Sound := sound_drive calls
    have hstages : ∀ c ∈ s.stages policy more, c.IsStage := isStage_stages policy more
    obtain ⟨recorded, hlog, hsub, hall⟩ : ∃ recorded, _ := exists_recorded hs hstages
    rw [drive_stages policy hs more] at hlog
    exact ⟨fun i j hij => servedFirst_of_queued hs hstages hij, recorded, hlog, hsub,
      fun h => hall (legible_drive h calls)⟩
  · intro calls more s boosted hdue
    exact servedInOrder_of_boost (sound_drive calls) hdue (isStage_stages policy more)
  · intro calls before e after hlog he
    have hstart : (w.start config).Sound := sound_start
    have hstages := isStage_stages (s := w.start config) policy calls
    rw [← drive_stages policy hstart calls] at hlog ⊢
    obtain ⟨first, more, heq, hdue, hbefore⟩ := exists_boost_of_log hstart rfl hstages hlog he
    refine ⟨first, more, heq, hdue, hbefore, ?_, ?_⟩
    · rw [heq, drive_append]
      rfl
    · exact servedInOrder_of_boost (sound_drive first) hdue fun c hc =>
        hstages c (heq ▸ by simp [hc])

end Workload

end FeedbackQueue
