import FeedbackQueue.Proofs.Scheduler.Conservation
import FeedbackQueue.Proofs.Scheduler.Legible

/-!
# Admissions

One scan admits the processes that are due, and every admission changes what the rest of the scan
looks at. It leaves the other processes alone, though, so the scan comes down to what it found at
first. Whoever is admitted changes its phase only: an arrival is as new, and a return from I/O has
kept the level of the slice that it yielded in.

A process joins its queue before its admission is recorded. If that cannot be written the scan
fails there: the process is queued with no entry, and those behind it are left out.
-/

namespace FeedbackQueue

-- ---------------------------------------------------------------------------
-- Processes that are not in the queues yet
-- ---------------------------------------------------------------------------

namespace Proc

/-- The level whose queue a process joins: the top one on arrival, its own after I/O. -/
def entryLevel (p : Proc) : Nat :=
  match p.phase with
  | .new => 0
  | _ => p.level

/-- What holds of a process before its arrival, and what its last slice tells while it waits if its
slices are listed. -/
structure Parked (config : Config) (slices : List Slice) (p : Proc) : Prop where
  new : p.phase = .new → p = .ofSpec p.spec
  waiting : Text.isWritable p.pid → ∀ time, p.phase = .waiting time →
    ∃ b, lastSlice slices p.pid = some b ∧ b.outcome = .ioYield ∧ b.level = p.level ∧
      b.stop + config.ioDuration = time

variable {p : Proc} {config : Config} {slices : List Slice}

theorem level_admitted : p.admitted.level = p.entryLevel := by
  cases h : p.phase <;> simp [admitted, entryLevel, h]

namespace Parked

theorem of_not_due (h : p.due? = none) : p.Parked config slices := by
  obtain ⟨hnew, hwaiting⟩ := due?_eq_none.mp h
  exact ⟨fun hphase => absurd hphase hnew, fun _ time hphase => absurd hphase (hwaiting time)⟩

/-- A process that has run and whose slices are not listed. -/
theorem settled_unlisted (hpid : Text.isWritable p.pid = false) :
    (p.settled config now o).Parked config slices := by
  refine ⟨fun hphase => absurd hphase phase_settled_ne_new, fun hwritable => ?_⟩
  rw [pid, spec_settled, ← pid, hpid] at hwritable
  cases hwritable

theorem concat_of_ne (h : p.Parked config slices) (hpid : b.pid ≠ p.pid) :
    p.Parked config (slices ++ [b]) := by
  refine ⟨h.new, ?_⟩
  rw [lastSlice_concat_of_ne hpid]
  exact h.waiting

/-- A process that has run a slice waits only if it yielded, and keeps its level then. -/
theorem settled (hpid : b.pid = p.pid) (hlevel : b.level = p.level) :
    (p.settled config b.stop b.outcome).Parked config (slices ++ [b]) := by
  refine ⟨fun hphase => absurd hphase phase_settled_ne_new, fun _ time hphase => ?_⟩
  have hlast : lastSlice (slices ++ [b]) p.pid = some b := lastSlice_concat hpid
  rw [pid, spec_settled, ← pid, hlast]
  cases ho : b.outcome with
  | ioYield =>
    simp only [ho, Proc.settled, Phase.waiting.injEq] at hphase
    exact ⟨b, rfl, ho, hlevel, hphase⟩
  | _ => simp [ho, Proc.settled] at hphase

/-- An admission changes nothing but the phase. -/
theorem admitted_eq (h : p.Parked config slices) : p.admitted = { p with phase := .ready } := by
  unfold admitted
  split
  · have hfresh := h.new ‹_›
    have hlevel : p.level = 0 := by rw [hfresh]; rfl
    have hused : p.used = 0 := by rw [hfresh]; rfl
    rw [← hlevel, ← hused]
  · rfl

end Parked

end Proc

namespace Scheduler

variable {s t : Scheduler n} {policy : SlicePolicy n} {l : List (Fin n)}

def Parked (s : Scheduler n) : Prop :=
  ∀ i, (s.process i).Parked s.config s.timeline.toList

theorem Parked.of_move (hs : s.Sound) (h : s.Parked) (hmove : Move policy s t) : t.Parked := by
  cases hmove with
  | enter hdue _ =>
    intro j
    rw [process_admitted]
    split
    · exact .of_not_due (by simp [Proc.due?])
    · exact h j
  | boost _ =>
    intro i
    rw [process_boosted]
    split
    · have hready : (s.process i).phase = .ready := (hs.bank.mem_belowTop.mp ‹_›).1
      exact .of_not_due (by simp [Proc.due?, Proc.raise, hready])
    · exact h i
  | dispatch hdequeue =>
    intro j
    rw [process_dispatched hdequeue]
    split
    · exact .of_not_due rfl
    · exact h j
  | @execute _ i d _ _ _ _ =>
    intro j
    have htimeline : (s.ran i d).timeline.toList = s.timeline.toList ++ [s.slice i d] :=
      Array.toList_push
    rw [process_ran, htimeline]
    split
    · exact .settled rfl rfl
    · have hpid : (s.slice i d).pid ≠ (s.process j).pid :=
        fun heq => ‹¬ j = i› (hs.bank.distinct heq.symm)
      exact (h j).concat_of_ne hpid
  | idle _ => exact h
  | stall _ => exact h

theorem Parked.of_cut (hs : s.Sound) (h : s.Parked) (hcut : Cut policy s t) : t.Parked := by
  cases hcut with
  | enter hdue hle _ =>
    have hadmitted := h.of_move hs (.enter hdue hle : Move policy s _)
    exact hadmitted
  | dispatch hdequeue _ =>
    have hdispatched := h.of_move hs (.dispatch hdequeue : Move policy s _)
    exact hdispatched
  | execute _ _ _ _ hpid =>
    intro j
    rw [process_unrecorded, process_ran]
    split
    · exact .settled_unlisted hpid
    · exact h j

-- ---------------------------------------------------------------------------
-- Whole scans
-- ---------------------------------------------------------------------------

/-- What every single admission extends, a scan extends in its order. -/
theorem foldl_admitted_append {f : Scheduler n → List α} {g : Scheduler n → Fin n → List α}
    (hstep : ∀ s i, s.Sound → f (s.admitted i) = f s ++ g s i)
    (hother : ∀ s i j, j ≠ i → g (s.admitted i) j = g s j)
    (hs : s.Sound) (hl : l.Nodup) (hdue : ∀ i ∈ l, s.due i) :
    f (l.foldl admitted s) = f s ++ l.flatMap (g s) := by
  induction l generalizing s with
  | nil => exact (List.append_nil _).symm
  | cons i rest ih =>
    obtain ⟨hi, hrest⟩ := List.nodup_cons.mp hl
    obtain ⟨hdue_i, hdue_rest⟩ := List.forall_mem_cons.mp hdue
    obtain ⟨time, htime, -⟩ := Proc.dueBy_iff.mp hdue_i
    have hne {j} (hj : j ∈ rest) : j ≠ i := fun heq => hi (heq ▸ hj)
    -- The others are as due as before, and will add what they would have added.
    have hsame : rest.flatMap (g (s.admitted i)) = rest.flatMap (g s) :=
      List.flatMap_congr fun j hj => hother s i j (hne hj)
    have hdue' : ∀ j ∈ rest, (s.admitted i).due j := by
      intro j hj
      rw [Sim.due_admitted_of_ne (hne hj)]
      exact hdue_rest j hj
    rw [List.foldl_cons, ih (hs.admitted htime) hrest hdue', hstep s i hs, hsame,
      List.append_assoc, List.flatMap_cons]

theorem queueAt_foldl_admitted (hs : s.Sound) (hl : l.Nodup) (hdue : ∀ i ∈ l, s.due i) (k : Nat) :
    (l.foldl admitted s).bank.queueAt k =
      s.bank.queueAt k ++ l.filter fun i => (s.process i).entryLevel = k := by
  have hcollect := foldl_admitted_append (f := fun s : Scheduler n => s.bank.queueAt k)
    (g := fun s i => [i].filter fun i => (s.process i).entryLevel = k) ?_ ?_ hs hl hdue
  · rw [← List.filter_flatMap, List.flatMap_singleton'] at hcollect
    exact hcollect
  · intro s i hs
    have hpush : (s.admitted i).bank.queueAt k = _ := Level.queueAt_push (hs.level_admitted_lt i)
    rw [hpush, Proc.level_admitted]
    by_cases hk : (s.process i).entryLevel = k
    · simp [hk]
      rfl
    · simp [hk, Ne.symm hk]
      rfl
  · intro s i j hj
    simp [List.filter_singleton, hj]

theorem toList_log_foldl_admitted (hs : s.Sound) (hl : l.Nodup) (hdue : ∀ i ∈ l, s.due i) :
    (l.foldl admitted s).log.toList =
      s.log.toList ++ l.map fun i => (s.process i).admission s.clock := by
  have hcollect := foldl_admitted_append (f := fun s : Scheduler n => s.log.toList)
    (g := fun s i => [(s.process i).admission s.clock]) ?_ ?_ hs hl hdue
  · rw [← List.map_eq_flatMap] at hcollect
    exact hcollect
  · intro s i _
    exact Array.toList_push
  · intro s i j hj
    rw [process_admitted, if_neg hj]
    rfl

theorem members_foldl_admitted (hs : s.Sound) (hl : l.Nodup) (hdue : ∀ i ∈ l, s.due i) :
    (l.foldl admitted s).bank.members.Perm (s.bank.pids l ++ s.bank.members) := by
  -- The set grows at its head, so it is read backwards.
  have hcollect := foldl_admitted_append (f := fun s : Scheduler n => s.bank.members.reverse)
    (g := fun s i => [s.bank.pid i]) ?_ ?_ hs hl hdue
  · have hmembers := congrArg List.reverse hcollect
    rw [← List.map_eq_flatMap, List.reverse_append, List.reverse_reverse, List.reverse_reverse]
      at hmembers
    exact hmembers ▸ (List.reverse_perm _).append_right _
  · intro s i _
    have hpid : (s.process i).admitted.pid = s.bank.pid i := congrArg Spec.pid Proc.spec_admitted
    exact hpid ▸ List.reverse_cons
  · intro s i j hj
    have hprocess : (s.admitted i).bank.process j = s.bank.process j := by
      rw [← process, process_admitted, if_neg hj]
      rfl
    rw [Bank.pid, hprocess]
    rfl

theorem queueAt_arrived (hs : s.Sound) (k : Nat) : s.arrived.bank.queueAt k =
    s.bank.queueAt k ++ s.dueSlots.filter fun i => (s.process i).entryLevel = k :=
  queueAt_foldl_admitted hs nodup_dueSlots (fun _ => mem_dueSlots.mp) k

/-- One scan is enough. -/
theorem due_arrived (s : Scheduler n) (i : Fin n) : s.arrived.due i = false := by
  rw [due, process_arrived, clock_arrived]
  split
  · simp [Proc.dueBy, Proc.due?]
  · exact Bool.eq_false_iff.mpr ‹_›

-- ---------------------------------------------------------------------------
-- What an admission does
-- ---------------------------------------------------------------------------

/-- The process may join the queues. -/
inductive Ripe (s : Scheduler n) (i : Fin n) : Prop where
  | arrival (h : (s.process i).phase = .new) (hle : (s.process i).spec.arrival ≤ s.clock)
  | ioReturn (h : (s.process i).phase = .waiting time) (hle : time ≤ s.clock)

theorem ripe_iff : s.Ripe i ↔ s.due i := by
  rw [due, Proc.dueBy_iff]
  constructor
  · rintro (⟨h, hle⟩ | ⟨h, hle⟩)
    · exact ⟨_, Proc.due?_eq_some.mpr (.inl ⟨h, rfl⟩), hle⟩
    · exact ⟨_, Proc.due?_eq_some.mpr (.inr h), hle⟩
  · rintro ⟨time, htime, hle⟩
    rcases Proc.due?_eq_some.mp htime with ⟨h, rfl⟩ | h
    · exact .arrival h hle
    · exact .ioReturn h hle

/-- The processes of a list join the queues in its order, and nothing else happens. What is
recorded of it is left open. -/
structure Joined (s : Scheduler n) (l : List (Fin n)) (t : Scheduler n) : Prop where
  queues : ∀ k, t.bank.queueAt k =
    s.bank.queueAt k ++ l.filter fun i => (s.process i).entryLevel = k
  quanta : t.bank.levels.map Level.quantum = s.bank.levels.map Level.quantum
  members : t.bank.members.Perm (s.bank.pids l ++ s.bank.members)
  process : ∀ i ∈ l, t.process i = { s.process i with phase := .ready }
  others : ∀ i ∉ l, t.process i = s.process i
  rest : t = { s with bank := t.bank, log := t.log }

/-- Everybody who is ripe is admitted, and nobody else. -/
structure AdmitsAll (s : Scheduler n) (l : List (Fin n)) (t : Scheduler n) : Prop
    extends s.Joined l t where
  ascending : l.Pairwise (· < ·)
  mem_iff : ∀ i, i ∈ l ↔ s.Ripe i
  exhausted : ∀ i, ¬ t.Ripe i
  log : t.log.toList = s.log.toList ++ l.map fun i => (s.process i).admission s.clock

/-- The first process whose admission cannot be recorded is queued without an entry, those before
it are admitted and those behind it are not. -/
structure AdmitsUpTo (s : Scheduler n) (before : List (Fin n)) (i : Fin n) (t : Scheduler n) :
    Prop extends s.Joined (before ++ [i]) t where
  ascending : (before ++ [i]).Pairwise (· < ·)
  mem_iff : ∀ j, j ∈ before ++ [i] ↔ s.Ripe j ∧ j ≤ i
  admissible : ∀ j ∈ before, s.admissible j
  refused : s.admissible i = false
  log : t.log.toList = s.log.toList ++ before.map fun i => (s.process i).admission s.clock

theorem joined_foldl_admitted (hs : s.Sound) (h : s.Parked) (hl : l.Nodup)
    (hdue : ∀ i ∈ l, s.due i) : s.Joined l (l.foldl admitted s) where
  queues := queueAt_foldl_admitted hs hl hdue
  quanta := by
    have hmoves := moves_foldl_admitted .standard hl hdue
    rw [(sound_of_moves hmoves hs).quanta, hs.quanta, config_of_advances (advances_of_moves hmoves)]
  members := members_foldl_admitted hs hl hdue
  process i hi := by
    rw [process_foldl_admitted hl, if_pos hi, (h i).admitted_eq]
  others i hi := by
    rw [process_foldl_admitted hl, if_neg hi]
  rest := foldl_admitted_eq l s

theorem admitsAll_arrived (hs : s.Sound) (h : s.Parked) : s.AdmitsAll s.dueSlots s.arrived where
  toJoined := joined_foldl_admitted hs h nodup_dueSlots fun _ => mem_dueSlots.mp
  ascending := (List.pairwise_lt_finRange n).filter _
  mem_iff _ := mem_dueSlots.trans ripe_iff.symm
  exhausted i hi := Bool.false_ne_true ((due_arrived s i).symm.trans (ripe_iff.mp hi))
  log := toList_log_foldl_admitted hs nodup_dueSlots fun _ => mem_dueSlots.mp

theorem admitsUpTo_admissionCut (hs : s.Sound) (h : s.Parked) (hcut : s.AdmissionCut before i) :
    s.AdmitsUpTo before i (s.admissionCut before i) := by
  obtain ⟨after, hafter⟩ := hcut.due
  have hascending : (before ++ i :: after).Pairwise (· < ·) :=
    hafter ▸ (List.pairwise_lt_finRange n).filter _
  obtain ⟨hbefore, htail, hlt⟩ := List.pairwise_append.mp hascending
  have hfirst : (before ++ [i]).Pairwise (· < ·) :=
    List.pairwise_append.mpr ⟨hbefore, List.pairwise_singleton _ _, fun j hj k hk =>
      hlt j hj k (by simpa using Or.inl (List.mem_singleton.mp hk))⟩
  have hdue : ∀ j ∈ before, s.due j := fun j hj => hcut.mem_due (List.mem_append_left _ hj)
  have hjoined := joined_foldl_admitted hs h hfirst.nodup fun j => hcut.mem_due
  rw [List.foldl_append] at hjoined
  refine ⟨⟨hjoined.queues, hjoined.quanta, hjoined.members, hjoined.process, hjoined.others, ?_⟩,
    hfirst, fun j => ?_, hcut.admissible, hcut.refused,
    toList_log_foldl_admitted hs hcut.nodup.1 hdue⟩
  · exact hcut.admits.rest
  · rw [ripe_iff, ← mem_dueSlots, hafter]
    have hlater {k} (hk : k ∈ after) : i < k := (List.pairwise_cons.mp htail).1 k hk
    constructor
    · intro hj
      rcases List.mem_append.mp hj with hj | hj
      · exact ⟨by simp [hj], Fin.le_of_lt (hlt j hj i (by simp))⟩
      · obtain rfl := List.mem_singleton.mp hj
        exact ⟨by simp, Fin.le_refl j⟩
    · rintro ⟨hj, hle⟩
      rcases List.mem_append.mp hj with hj | hj
      · exact List.mem_append_left _ hj
      · rcases List.mem_cons.mp hj with rfl | hj
        · simp
        · exact absurd (hlater hj) (Fin.not_lt.mpr hle)

end Scheduler

namespace Workload

variable {w : Workload} {config : Config} {policy : SlicePolicy w.size}

theorem parked_drive (calls : List (Scheduler.Call w.size)) :
    ((w.start config).drive policy calls).Parked := by
  refine drive_induction (fun i => ?_) (fun _ _ hs h hmove => h.of_move hs hmove)
    (fun _ _ hs h hcut => h.of_cut hs hcut) calls
  rw [process_start]
  exact ⟨fun _ => rfl, fun _ _ => nofun⟩

/-- However a workload is driven, an admission fails only over an entry that cannot be written,
and never if the pids and the burst times can. If it does not fail it admits exactly the arrivals
and the returns from I/O that are due, in the order of the workload, and leaves none of them out.
Each joins its queue at the tail, an arrival that of the top level and a return that of the level
of the slice in which it yielded, and is recorded at the current time. Nothing else changes. -/
theorem admission_exact (w : Workload) (config : Config) (policy : SlicePolicy w.size)
    (calls : List (Scheduler.Call w.size)) :
    let s := (w.start config).drive policy calls
    ((∀ i, s.Ripe i → s.admissible i) →
      ∃ admitted t, EStateM.run Sim.admitArrivals s = .ok admitted t ∧ s.AdmitsAll admitted t) ∧
    (∀ i, s.Ripe i → s.admissible i = false →
      ∃ before j t, EStateM.run Sim.admitArrivals s = .error (.numeral .tooLong) t ∧
        s.AdmitsUpTo before j t) ∧
    (∀ i, (s.process i).Parked config s.timeline.toList) ∧
    ∀ i, Text.isWritable (w.spec i).pid → Text.isWritable (w.spec i).burst → s.admissible i := by
  intro s
  have hs : s.Sound := sound_drive calls
  have hparked : s.Parked := parked_drive calls
  have hconfig : s.config = config := config_drive calls
  refine ⟨fun hall => ?_, fun i hi hrefused => ?_, hconfig ▸ hparked, fun i hpid hburst => ?_⟩
  · exact ⟨s.dueSlots, s.arrived, Sim.run_admitArrivals hs fun i hi =>
      hall i (Scheduler.ripe_iff.mpr hi), s.admitsAll_arrived hs hparked⟩
  · rcases Sim.admissible_or_cut s with hall | ⟨before, j, hcut⟩
    · rw [hall i (Scheduler.ripe_iff.mp hi)] at hrefused
      cases hrefused
    · exact ⟨before, j, _, Sim.run_admitArrivals_refused hs hcut,
        s.admitsUpTo_admissionCut hs hparked hcut⟩
  · have hspec : (s.process i).spec = w.spec i := spec_drive calls i
    exact Scheduler.admissible_of_isWritable (by rw [Proc.pid, hspec]; exact hpid) (hspec ▸ hburst)

/-- The first of two jobs that arrive at once is queued, but its entry is too long to be written,
and so the second one is left out. -/
theorem long_burst_leaves_others_out :
    let s := longBurst.start .standard
    let t := s.drive .standard [.arrivals]
    (s.process ⟨1, by decide⟩).spec.arrival ≤ s.clock ∧
      (t.process ⟨0, by decide⟩).phase = .ready ∧ (t.process ⟨1, by decide⟩).phase = .new ∧
        t.log = #[] := by
  decide +kernel

end Workload

end FeedbackQueue
