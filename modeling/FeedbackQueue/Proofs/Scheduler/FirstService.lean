import FeedbackQueue.Proofs.Scheduler.Precedence

/-!
# First come, first served

Jobs are served for the first time in the order in which they were admitted, however long
they wait. The top queue is served from its head, whoever has never run waits there, and a
boost puts nobody in front of those who wait.
-/

namespace FeedbackQueue

open Relation (ReflTransGen)

/-- The pids that arrived, in this order. -/
def arrivals (entries : List Entry) : List Int :=
  (entries.filter (·.kind = .arrival)).filterMap (·.pid)

/-- The pids that have run, in the order of their first slices. -/
def firstServed (slices : List Slice) : List Int := (slices.map Slice.pid).eraseDups

theorem eraseDups_concat_of_mem {l : List Int} (h : pid ∈ l) :
    (l ++ [pid]).eraseDups = l.eraseDups := by
  rw [List.eraseDups_append]
  simp [List.removeAll, h]

theorem eraseDups_concat {l : List Int} (h : pid ∉ l) :
    (l ++ [pid]).eraseDups = l.eraseDups ++ [pid] := by
  rw [List.eraseDups_append]
  simp [List.removeAll, h]
  rfl

namespace Scheduler

variable {s t : Scheduler n} {policy : SlicePolicy n}

theorem arrivals_push (s : Scheduler n) (h : e.kind ≠ .arrival) :
    arrivals (s.log.push e).toList = arrivals s.log.toList := by
  simp [arrivals, h]

theorem arrivals_admitted : arrivals (s.admitted i).log.toList =
    arrivals s.log.toList ++ if (s.process i).phase = .new then [s.bank.pid i] else [] := by
  rw [admitted, Array.toList_push]
  cases hphase : (s.process i).phase with
  | new =>
    simp [arrivals, Proc.admission, hphase, Entry.arrival]
    rfl
  | _ => simp [arrivals, Proc.admission, hphase, Entry.ioReturn]

theorem pid_admitted : (s.admitted i).bank.pid = s.bank.pid :=
  Bank.pid_eq_of_process (fun _ => process_admitted) (congrArg Spec.pid Proc.spec_admitted)

/-- Those in the top queue who have never run. -/
def unserved (s : Scheduler n) : List (Fin n) :=
  (s.bank.queueAt 0).filter fun i => (s.process i).firstRun.isNone

/-- Those who join the top queue make it longer by those of them who have never run. -/
theorem unserved_append (hqueue : t.bank.queueAt 0 = s.bank.queueAt 0 ++ new)
    (hsame : ∀ i ∈ s.bank.queueAt 0, (t.process i).firstRun = (s.process i).firstRun) :
    t.unserved = s.unserved ++ new.filter fun i => (t.process i).firstRun.isNone := by
  rw [unserved, hqueue, List.filter_append, unserved]
  congr 1
  exact List.filter_congr fun i hi => by rw [hsame i hi]

/-- Whoever has never run is new or waits in the top queue, and the arrivals so far are those
who were dispatched, in the order of their first dispatch, and then those who wait for it. -/
structure FirstCome (s : Scheduler n) : Prop where
  new : ∀ i, (s.process i).phase = .new → (s.process i).firstRun = none
  waits : ∀ i, (s.process i).firstRun = none →
    (s.process i).phase = .new ∨ (s.process i).phase = .ready ∧ (s.process i).level = 0
  served : ∀ i, (s.process i).firstRun = none ↔ s.bank.pid i ∉ dispatches s.log.toList
  line : arrivals s.log.toList =
    (dispatches s.log.toList).eraseDups ++ s.bank.pids s.unserved

namespace FirstCome

theorem has_run (h : s.FirstCome) (hnew : (s.process i).phase ≠ .new)
    (hready : (s.process i).phase = .ready → (s.process i).level ≠ 0) :
    (s.process i).firstRun ≠ none := by
  intro hnone
  rcases h.waits i hnone with hphase | ⟨hphase, hlevel⟩
  · exact hnew hphase
  · exact hready hphase hlevel

/-- A change that neither runs nor admits anybody for the first time. -/
theorem congr (h : s.FirstCome) (hpid : t.bank.pid = s.bank.pid)
    (hdispatches : dispatches t.log.toList = dispatches s.log.toList)
    (harrivals : arrivals t.log.toList = arrivals s.log.toList)
    (hfirst : ∀ i, (t.process i).firstRun = (s.process i).firstRun)
    (hnew : ∀ i, (t.process i).phase = .new → (s.process i).phase = .new)
    (hwaits : ∀ i, (s.process i).firstRun = none →
      (t.process i).phase = (s.process i).phase ∧ (t.process i).level = (s.process i).level)
    (hqueue : t.bank.queueAt 0 = s.bank.queueAt 0 ++ joined)
    (hjoined : ∀ i ∈ joined, (s.process i).firstRun ≠ none) : t.FirstCome := by
  have hunserved : t.unserved = s.unserved := by
    rw [unserved_append hqueue fun i _ => hfirst i, List.filter_eq_nil_iff.mpr, List.append_nil]
    intro i hi
    simpa [hfirst, Option.isNone_iff_eq_none] using hjoined i hi
  constructor
  · intro i hi
    rw [hfirst]
    exact h.new i (hnew i hi)
  · intro i hi
    rw [hfirst] at hi
    rw [(hwaits i hi).1, (hwaits i hi).2]
    exact h.waits i hi
  · intro i
    rw [hfirst, hpid, hdispatches]
    exact h.served i
  · rw [harrivals, hdispatches, hunserved, Bank.pids, hpid]
    exact h.line

theorem admitted (hs : s.Sound) (h : s.FirstCome) (hdue : (s.process i).due? = some time) :
    (s.admitted i).FirstCome := by
  have hfirst (j) : ((s.admitted i).process j).firstRun = (s.process j).firstRun := by
    rw [process_admitted]
    split
    · subst j
      exact Proc.firstRun_admitted
    · rfl
  have hnew (j) (hj : ((s.admitted i).process j).phase = .new) : (s.process j).phase = .new := by
    rw [process_admitted] at hj
    split at hj
    · simp at hj
    · exact hj
  have hdispatches : dispatches (s.admitted i).log.toList = dispatches s.log.toList :=
    dispatches_push s (kind_admission_ne_dispatch _ _)
  rcases Proc.due?_eq_some.mp hdue with ⟨hphase, -⟩ | hphase
  · have hlevel : (s.process i).admitted.level = 0 := by simp [Proc.admitted, hphase]
    have hqueue : (s.admitted i).bank.queueAt 0 = s.bank.queueAt 0 ++ [i] := by
      have hpush := Level.queueAt_push (i := i) (j := 0) (hs.level_admitted_lt i)
      rwa [if_pos hlevel.symm] at hpush
    have hunserved : (s.admitted i).unserved = s.unserved ++ [i] := by
      rw [unserved_append hqueue fun j _ => hfirst j]
      simp [h.new i hphase]
    have harrivals : arrivals (s.admitted i).log.toList =
        arrivals s.log.toList ++ [s.bank.pid i] := by
      rw [arrivals_admitted, if_pos hphase]
    constructor
    · intro j hj
      rw [hfirst]
      exact h.new j (hnew j hj)
    · intro j hj
      rw [hfirst] at hj
      rw [process_admitted]
      split
      · exact .inr ⟨Proc.phase_admitted, hlevel⟩
      · exact h.waits j hj
    · intro j
      rw [hfirst, pid_admitted, hdispatches]
      exact h.served j
    · rw [harrivals, hdispatches, hunserved, h.line]
      simp [Bank.pids, pid_admitted]
  · -- Whoever returns from I/O has run before.
    have hrun : (s.process i).firstRun ≠ none := h.has_run (by simp [hphase]) (by simp [hphase])
    obtain ⟨joined, hqueue, hjoined⟩ := s.bank.queueAt_zero_put i (s.process i).admitted
    refine h.congr pid_admitted hdispatches ?_ hfirst hnew ?_ hqueue ?_
    · rw [arrivals_admitted, if_neg (by simp [hphase]), List.append_nil]
    · intro j hj
      rw [process_admitted, if_neg]
      · exact ⟨rfl, rfl⟩
      · rintro rfl
        exact hrun hj
    · intro j hj
      exact hjoined j hj ▸ hrun

theorem boosted (hs : s.Sound) (h : s.FirstCome) (hpid : s.boosted.bank.pid = s.bank.pid) :
    s.boosted.FirstCome := by
  have hraised (i) (hi : i ∈ s.bank.belowTop) : (s.process i).firstRun ≠ none := by
    obtain ⟨hready, hlevel⟩ := hs.bank.mem_belowTop.mp hi
    exact h.has_run (by simp [show (s.process i).phase = .ready from hready]) fun _ => hlevel
  have hqueue : s.boosted.bank.queueAt 0 = s.bank.queueAt 0 ++ s.bank.belowTop := by
    rw [queueAt_zero_boosted, ← Bank.queued_eq_append]
    exact Bank.queued_raiseAll
  refine h.congr hpid (dispatches_push s nofun) ?_ ?_ ?_ ?_ hqueue hraised
  · exact arrivals_push s nofun
  · intro i
    rw [process_boosted]
    split <;> rfl
  · intro i hi
    rw [process_boosted] at hi
    split at hi <;> exact hi
  · intro i hi
    rw [process_boosted, if_neg fun hbelow => hraised i hbelow hi]
    exact ⟨rfl, rfl⟩

/-- Whoever has never run and gets the CPU was the first of those who had never run. -/
theorem unserved_dispatched (hs : s.Sound) (h : s.FirstCome)
    (hdequeue : s.bank.dequeue = some (i, rest)) :
    s.unserved = if (s.process i).firstRun = none then i :: (s.dispatched i rest).unserved
      else (s.dispatched i rest).unserved := by
  obtain ⟨-, -, hqueued, -, k, hk, hbefore, hother⟩ := Bank.dequeue_eq_some hdequeue
  have hrest : i ∉ rest.queueAt 0 := fun hi =>
    (List.nodup_cons.mp (hqueued ▸ hs.bank.nodup)).1 (Bank.mem_queued.mpr ⟨0, hi⟩)
  have hunserved : (s.dispatched i rest).unserved =
      (rest.queueAt 0).filter fun j => (s.process j).firstRun.isNone := by
    refine List.filter_congr fun j hj => ?_
    rw [process_dispatched hdequeue, if_neg]
    rintro rfl
    exact hrest hj
  rw [hunserved, unserved]
  cases k with
  | zero => by_cases hnone : (s.process i).firstRun = none <;> simp [hk, hnone]
  | succ k =>
    have hempty : s.bank.queueAt 0 = [] := hbefore 0 (Nat.succ_pos k)
    have hrun : (s.process i).firstRun ≠ none := by
      have hlevel : (s.process i).level = k + 1 :=
        ((hs.bank.located i (k + 1)).mp (by simp [hk])).2
      refine h.has_run ?_ fun _ => by omega
      simp [hs.head_ready hdequeue]
    rw [if_neg hrun, hother 0 (Nat.succ_ne_zero k).symm, hempty]

theorem dispatched (hs : s.Sound) (h : s.FirstCome) (hdequeue : s.bank.dequeue = some (i, rest))
    (hpid : (s.dispatched i rest).bank.pid = s.bank.pid) : (s.dispatched i rest).FirstCome := by
  have hready := hs.head_ready hdequeue
  have hfirst (j) : ((s.dispatched i rest).process j).firstRun = none ↔
      (s.process j).firstRun = none ∧ j ≠ i := by
    rw [process_dispatched hdequeue]
    split
    · subst j
      simp [Proc.dispatched]
    · simp [*]
  have hkept (j) (hj : j ≠ i) : (s.dispatched i rest).process j = s.process j := by
    rw [process_dispatched hdequeue, if_neg hj]
  have harrivals : arrivals (s.dispatched i rest).log.toList = arrivals s.log.toList :=
    arrivals_push s (by simp [Entry.dispatch])
  constructor
  · intro j hj
    have hne : j ≠ i := by
      rintro rfl
      rw [running_dispatched hdequeue] at hj
      cases hj
    rw [hkept j hne] at hj ⊢
    exact h.new j hj
  · intro j hj
    obtain ⟨hnone, hne⟩ := (hfirst j).mp hj
    rw [hkept j hne]
    exact h.waits j hnone
  · intro j
    rw [hfirst, hpid, dispatches_dispatched, List.mem_append, not_or, ← h.served j]
    simp [hs.bank.distinct.eq_iff]
  · have hunserved := h.unserved_dispatched hs hdequeue
    rw [harrivals, h.line, dispatches_dispatched, hunserved, Bank.pids, Bank.pids, hpid]
    by_cases hnone : (s.process i).firstRun = none
    · rw [if_pos hnone, eraseDups_concat ((h.served i).mp hnone), List.map_cons,
        List.append_cons]
    · have hmem : s.bank.pid i ∈ dispatches s.log.toList :=
        not_not.mp (mt (h.served i).mpr hnone)
      rw [if_neg hnone, eraseDups_concat_of_mem hmem]

theorem ran (h : s.FirstCome) (hrunning : (s.process i).phase = .running)
    (hpid : (s.ran i d).bank.pid = s.bank.pid) : (s.ran i d).FirstCome := by
  have hrun : (s.process i).firstRun ≠ none := h.has_run (by simp [hrunning]) (by simp [hrunning])
  have hqueue : ∃ joined, (s.ran i d).bank.queueAt 0 = s.bank.queueAt 0 ++ joined ∧
      ∀ j ∈ joined, j = i := by
    simp only [Scheduler.ran]
    split
    · exact s.bank.queueAt_zero_put i _
    · exact ⟨[], (List.append_nil _).symm, by simp⟩
  obtain ⟨joined, hqueue, hjoined⟩ := hqueue
  refine h.congr hpid (dispatches_push s (kind_settlement_ne_dispatch _)) ?_ ?_ ?_ ?_ hqueue
    fun j hj => hjoined j hj ▸ hrun
  · exact arrivals_push s (kind_settlement_ne_arrival _)
  · intro j
    rw [process_ran]
    split
    · subst j
      exact Proc.firstRun_settled
    · rfl
  · intro j hj
    rw [process_ran] at hj
    split at hj
    · exact absurd hj Proc.phase_settled_ne_new
    · exact hj
  · intro j hj
    rw [process_ran, if_neg]
    · exact ⟨rfl, rfl⟩
    · rintro rfl
      exact hrun hj

theorem of_move (hs : s.Sound) (h : s.FirstCome) (hmove : Move policy s t) : t.FirstCome := by
  have hpid : t.bank.pid = s.bank.pid := funext hmove.pid_eq
  cases hmove with
  | enter hdue _ => exact h.admitted hs hdue
  | boost _ => exact h.boosted hs hpid
  | dispatch hdequeue => exact h.dispatched hs hdequeue hpid
  | execute hrunning _ _ _ => exact h.ran hrunning hpid
  | idle _ =>
    exact h.congr hpid (dispatches_push s nofun) (arrivals_push s nofun) (fun _ => rfl)
      (fun _ => id) (fun _ _ => ⟨rfl, rfl⟩) (List.append_nil _).symm nofun
  | stall _ =>
    exact h.congr hpid (dispatches_push s nofun) (arrivals_push s nofun) (fun _ => rfl)
      (fun _ => id) (fun _ _ => ⟨rfl, rfl⟩) (List.append_nil _).symm nofun

theorem of_moves (hs : s.Sound) (h : s.FirstCome) (hmoves : ReflTransGen (Move policy) s t) :
    t.FirstCome := by
  induction hmoves with
  | refl => exact h
  | tail hbefore hmove ih => exact ih.of_move (sound_of_moves hbefore hs) hmove

end FirstCome

-- ---------------------------------------------------------------------------
-- Dispatches and slices
-- ---------------------------------------------------------------------------

theorem dispatches_prepared : dispatches s.prepared.log.toList = dispatches s.log.toList := by
  have harrived : s.Joins s.arrived := joins_foldl_admitted s.dueSlots s
  unfold prepared
  split
  · exact (harrived.trans (joins_boosted s.arrived)).log
  · exact harrived.log

/-- A round runs whom it dispatches. -/
theorem Round.dispatches_eq (h : Round policy s t)
    (hsame : dispatches s.log.toList = s.timeline.toList.map Slice.pid) :
    dispatches t.log.toList = t.timeline.toList.map Slice.pid := by
  cases h with
  | @idle target _ _ =>
    have hidled : dispatches (s.prepared.idled target).log.toList =
        dispatches s.prepared.log.toList := dispatches_push s.prepared nofun
    have htimeline : (s.prepared.idled target).timeline = s.timeline := timeline_prepared
    rw [hidled, dispatches_prepared, hsame, htimeline]
  | @slice i rest d hdequeue _ _ _ =>
    have hpid : s.prepared.bank.pid i = ((s.prepared.dispatched i rest).slice i d).pid :=
      (apply_dispatched Proc.pid hdequeue fun _ _ => rfl).symm
    rw [timeline_ran_prepared, List.map_append, ← hsame, ran,
      dispatches_push _ (kind_settlement_ne_dispatch _), dispatches_dispatched,
      dispatches_prepared, hpid]
    rfl

/-- When everybody has completed, nobody is left who has never run. -/
theorem FirstCome.firstServed_eq (hs : s.Sound) (h : s.FirstCome) (hdone : s.done)
    (hsame : dispatches s.log.toList = s.timeline.toList.map Slice.pid) :
    firstServed s.timeline.toList = arrivals s.log.toList := by
  have hunserved : s.unserved = [] := by
    rw [unserved, hs.queueAt_of_done hdone]
    rfl
  rw [h.line, hunserved, hsame, firstServed]
  exact (List.append_nil _).symm

end Scheduler

namespace Workload

variable {w : Workload} {config : Config} {policy : SlicePolicy w.size}

theorem firstCome_start : (w.start config).FirstCome := by
  have hnew (i : Fin w.size) : ((w.start config).process i).phase = .new := by
    rw [process_start]
    rfl
  have hfirst (i : Fin w.size) : ((w.start config).process i).firstRun = none := by
    rw [process_start]
    rfl
  constructor
  · exact fun i _ => hfirst i
  · exact fun i _ => .inl (hnew i)
  · exact fun i => ⟨fun _ => List.not_mem_nil, fun _ => hfirst i⟩
  · rw [Scheduler.unserved, queueAt_start]
    rfl

theorem firstCome_afterSteps (hpolicy : policy.Steady) (hk : ¬ (w.start config).Stopped policy k) :
    ((w.start config).afterSteps policy k).FirstCome :=
  rounds_induction hpolicy firstCome_start
    (fun _ _ hs h hround => h.of_moves hs.sound hround.moves) hk

theorem dispatches_afterSteps (hpolicy : policy.Steady)
    (hk : ¬ (w.start config).Stopped policy k) :
    dispatches ((w.start config).afterSteps policy k).log.toList =
      ((w.start config).afterSteps policy k).timeline.toList.map Slice.pid :=
  rounds_induction
    (P := fun s => dispatches s.log.toList = s.timeline.toList.map Slice.pid) hpolicy rfl
    (fun _ _ _ h hround => hround.dispatches_eq h) hk

/-- In a finished run jobs were served for the first time in the order of their arrivals in
the log. -/
theorem firstServed_afterSteps (config : Config) (hpolicy : policy.Steady) (k : Nat)
    (hdone : ((w.start config).afterSteps policy k).done) :
    firstServed ((w.start config).afterSteps policy k).timeline.toList =
      arrivals ((w.start config).afterSteps policy k).log.toList := by
  have hk := not_stopped_of_done hpolicy hdone
  exact (firstCome_afterSteps hpolicy hk).firstServed_eq (sound_afterSteps k) hdone
    (dispatches_afterSteps hpolicy hk)

end Workload

end FeedbackQueue
