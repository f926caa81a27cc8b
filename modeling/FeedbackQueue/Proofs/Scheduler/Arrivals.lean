import FeedbackQueue.Proofs.Scheduler.FirstService
import FeedbackQueue.Proofs.Scheduler.Legible
import FeedbackQueue.Proofs.Scheduler.Termination

/-!
# The order of arrivals

Whoever arrives while a slice runs is admitted when it ends, together with everybody else
who arrived during it, and in workload order. So of two jobs the one that arrives first is
admitted first, unless it stands behind the other in the workload and one slice runs over
both arrivals.
-/

namespace FeedbackQueue

-- ---------------------------------------------------------------------------
-- Slices between two times
-- ---------------------------------------------------------------------------

/-- One slice runs from before a time until another time or longer. -/
def Spanned (slices : List Slice) (time later : Int) : Prop :=
  ∃ b ∈ slices, b.start < time ∧ later ≤ b.stop

instance : Decidable (Spanned slices time later) :=
  inferInstanceAs (Decidable (∃ b ∈ slices, b.start < time ∧ later ≤ b.stop))

/-- A time is earlier than another, and between them some slice ended or nothing ran. -/
def Separated (slices : List Slice) (time later : Int) : Prop :=
  time < later ∧ ¬ Spanned slices time later

/-- The first of two processes is admitted before the other: it arrives a separate time earlier,
or it stands in front and the other does not. -/
def AdmittedFirst (arrival : Fin n → Int) (slices : List Slice) (i j : Fin n) : Prop :=
  Separated slices (arrival i) (arrival j) ∨ i < j ∧ ¬ Separated slices (arrival j) (arrival i)

section

variable {slices new : List Slice} {arrival : Fin n → Int}

/-- Slices that do not start earlier span nothing from an early time on. -/
theorem spanned_append (hnew : ∀ b ∈ new, time ≤ b.start) :
    Spanned (slices ++ new) time later ↔ Spanned slices time later := by
  constructor
  · rintro ⟨b, hb, hstart, hstop⟩
    rcases List.mem_append.mp hb with hb | hb
    · exact ⟨b, hb, hstart, hstop⟩
    · exact absurd hstart (Int.not_lt.mpr (hnew b hb))
  · rintro ⟨b, hb, h⟩
    exact ⟨b, List.mem_append_left _ hb, h⟩

theorem separated_append (hnew : ∀ b ∈ new, time ≤ b.start) :
    Separated (slices ++ new) time later ↔ Separated slices time later := by
  rw [Separated, Separated, spanned_append hnew]

/-- A time at which no slice runs separates what is before it from what is after it. -/
theorem separated_of_boundary (hstop : ∀ b ∈ slices, b.stop ≤ now)
    (hstart : ∀ b ∈ new, now ≤ b.start) (hle : time ≤ now) (hlt : now < later) :
    Separated (slices ++ new) time later := by
  refine ⟨Int.lt_of_le_of_lt hle hlt, ?_⟩
  rw [spanned_append fun b hb => Int.le_trans hle (hstart b hb)]
  rintro ⟨b, hb, -, hlater⟩
  have hearlier := hstop b hb
  omega

theorem AdmittedFirst.append (h : AdmittedFirst arrival slices i j)
    (hi : ∀ b ∈ new, arrival i ≤ b.start) (hj : ∀ b ∈ new, arrival j ≤ b.start) :
    AdmittedFirst arrival (slices ++ new) i j := by
  rw [AdmittedFirst, separated_append hi, separated_append hj]
  exact h

theorem AdmittedFirst.asymm (h : AdmittedFirst arrival slices i j) :
    ¬ AdmittedFirst arrival slices j i := by
  rintro (hafter | ⟨hlt, hnot⟩)
  · rcases h with hbefore | ⟨-, hnot⟩
    · exact absurd hbefore.1 (Int.lt_asymm hafter.1)
    · exact hnot hafter
  · rcases h with hbefore | ⟨hlt', -⟩
    · exact hnot hbefore
    · exact absurd hlt' (Fin.lt_asymm hlt)

/-- Of two processes the first one arrives earlier, or stands in front of the other if they
arrive together. -/
def ArrivesFirst (arrival : Fin n → Int) (i j : Fin n) : Prop :=
  arrival i < arrival j ∨ arrival i = arrival j ∧ i < j

instance {arrival : Fin n → Int} : Decidable (ArrivesFirst arrival i j) :=
  inferInstanceAs (Decidable (arrival i < arrival j ∨ arrival i = arrival j ∧ i < j))

theorem ArrivesFirst.admittedFirst_iff (h : ArrivesFirst arrival i j) :
    AdmittedFirst arrival slices i j ↔ i < j ∨ ¬ Spanned slices (arrival i) (arrival j) := by
  have hnot : ¬ Separated slices (arrival j) (arrival i) := by
    rintro ⟨hlt, -⟩
    rcases h with h | ⟨h, -⟩ <;> omega
  rcases h with hlt | ⟨-, hlt⟩
  · rw [AdmittedFirst, and_iff_left hnot, Separated, and_iff_right hlt, or_comm]
  · simp [AdmittedFirst, hlt, hnot]

end

/-- In a list that is sorted, one element stands before another as the order says. -/
theorem pair_sublist_iff {R : α → α → Prop} {l : List α} (hsorted : l.Pairwise R)
    (hasymm : ∀ {a b}, R a b → ¬ R b a) (ha : a ∈ l) (hb : b ∈ l) (hne : a ≠ b) :
    [a, b].Sublist l ↔ R a b := by
  have hpair {x y} (h : [x, y].Sublist l) : R x y := List.pairwise_iff_forall_sublist.mp hsorted h
  refine ⟨hpair, fun hab => ?_⟩
  obtain ⟨before, after, rfl⟩ := List.append_of_mem ha
  rcases List.mem_append.mp hb with hb | hb
  · -- Elsewhere the other one would stand first.
    obtain ⟨before, middle, rfl⟩ := List.append_of_mem hb
    exact absurd (hpair (by simp)) (hasymm hab)
  · exact .trans (List.cons_sublist_cons.mpr (List.singleton_sublist.mpr
      ((List.mem_cons.mp hb).resolve_left hne.symm))) (List.sublist_append_right _ _)

namespace Scheduler

variable {s t : Scheduler n} {policy : SlicePolicy n}

-- ---------------------------------------------------------------------------
-- The arrivals of a round
-- ---------------------------------------------------------------------------

/-- Those who are admitted for the first time when a step begins. -/
def arriving (s : Scheduler n) : List (Fin n) :=
  s.dueSlots.filter fun i => (s.process i).phase = .new

theorem due_of_new (h : (s.process i).phase = .new) :
    s.due i = decide ((s.process i).spec.arrival ≤ s.clock) := by
  simp [due, Proc.dueBy, Proc.due?, h]

theorem mem_arriving : i ∈ s.arriving ↔
    (s.process i).phase = .new ∧ (s.process i).spec.arrival ≤ s.clock := by
  rw [arriving, List.mem_filter, mem_dueSlots, decide_eq_true_eq, and_comm]
  exact and_congr_right fun hnew => by rw [due_of_new hnew, decide_eq_true_eq]

theorem arrivals_foldl_admitted {l : List (Fin n)} (hl : l.Nodup) :
    arrivals (l.foldl admitted s).log.toList = arrivals s.log.toList ++
      s.bank.pids (l.filter fun i => (s.process i).phase = .new) := by
  induction l generalizing s with
  | nil => simp [Bank.pids]
  | cons i rest ih =>
    obtain ⟨hi, hrest⟩ := List.nodup_cons.mp hl
    have hsame : (rest.filter fun j => ((s.admitted i).process j).phase = .new) =
        rest.filter fun j => (s.process j).phase = .new := by
      refine List.filter_congr fun j hj => ?_
      rw [process_admitted, if_neg]
      rintro rfl
      exact hi hj
    rw [List.foldl_cons, ih hrest, hsame, arrivals_admitted, Bank.pids, pid_admitted,
      List.filter_cons]
    by_cases hnew : (s.process i).phase = .new <;> simp [hnew, Bank.pids]

theorem arrivals_prepared : arrivals s.prepared.log.toList =
    arrivals s.log.toList ++ s.bank.pids s.arriving := by
  have harrived : arrivals s.arrived.log.toList =
      arrivals s.log.toList ++ s.bank.pids s.arriving := arrivals_foldl_admitted nodup_dueSlots
  have hboosted : arrivals s.arrived.boosted.log.toList = arrivals s.arrived.log.toList :=
    arrivals_push s.arrived nofun
  unfold prepared
  split
  · exact hboosted.trans harrived
  · exact harrived

namespace Round

theorem arrivals_eq (h : Round policy s t) : arrivals t.log.toList =
    arrivals s.log.toList ++ s.bank.pids s.arriving := by
  cases h with
  | @idle target _ _ =>
    have hidled : arrivals (s.prepared.idled target).log.toList =
        arrivals s.prepared.log.toList := arrivals_push s.prepared nofun
    rw [hidled, arrivals_prepared]
  | @slice i rest d _ _ _ _ =>
    have hdispatched : arrivals (s.prepared.dispatched i rest).log.toList =
        arrivals s.prepared.log.toList := arrivals_push s.prepared nofun
    have hran : arrivals ((s.prepared.dispatched i rest).ran i d).log.toList =
        arrivals (s.prepared.dispatched i rest).log.toList :=
      arrivals_push (s.prepared.dispatched i rest) (kind_settlement_ne_arrival _)
    rw [hran, hdispatched, arrivals_prepared]

theorem phase_eq_new (hs : s.Sound) (h : Round policy s t) :
    (t.process i).phase = .new ↔
      (s.process i).phase = .new ∧ s.clock < (s.process i).spec.arrival := by
  have hprepared : (s.prepared.process i).phase = .new ↔
      (s.process i).phase = .new ∧ s.clock < (s.process i).spec.arrival := by
    rw [phase_prepared]
    by_cases hnew : (s.process i).phase = .new
    · simp [due_of_new hnew, hnew]
    · split <;> simp [hnew]
  cases h with
  | idle _ _ => exact hprepared
  | @slice j _ _ hdequeue _ _ _ =>
    by_cases hij : i = j
    · subst i
      have hready := hs.prepared.head_ready hdequeue
      rw [← hprepared, hready, process_ran_prepared_self]
      simp [Proc.phase_settled_ne_new]
    · rw [process_ran_prepared_of_ne hdequeue hij, hprepared]

theorem exists_new (h : Round policy s t) : ∃ new, t.timeline.toList = s.timeline.toList ++ new ∧
    ∀ b ∈ new, b.start = s.clock ∧ b.stop = t.clock := by
  rcases h.timeline_eq with hsame | ⟨b, hconcat, hb⟩
  · exact ⟨[], by rw [hsame, List.append_nil], nofun⟩
  · exact ⟨[b], hconcat, fun c hc => List.mem_singleton.mp hc ▸ hb⟩

/-- Whoever is due by the end of a round arrives right then, or during its slice. -/
theorem prompt (hs : s.Sound) (h : Round policy s t) (hi : (t.process i).phase = .new)
    (hdue : (s.process i).spec.arrival ≤ t.clock) : (s.process i).spec.arrival = t.clock ∨
      ∃ b ∈ t.timeline.toList, b.start < (s.process i).spec.arrival ∧ b.stop = t.clock := by
  have hlate := ((h.phase_eq_new hs).mp hi).2
  cases h with
  | @idle target _ hnext =>
    have hpending : (s.prepared.process i).due? = some (s.process i).spec.arrival :=
      Proc.due?_eq_some.mpr (.inl ⟨hi, by rw [spec_prepared]⟩)
    have htarget := (nextEvent_eq_some.mp hnext).2 i _ hpending
    rw [clock_idled_prepared hnext] at hdue ⊢
    exact .inl (Int.le_antisymm hdue htarget)
  | slice _ _ _ _ =>
    refine .inr ⟨_, ?_, ?_, rfl⟩
    · rw [timeline_ran_prepared]
      exact List.mem_concat_self
    · rw [start_slice_prepared]
      exact hlate

end Round

-- ---------------------------------------------------------------------------
-- The arrivals of a run
-- ---------------------------------------------------------------------------

/-- The processes that have been admitted, in the order of their arrivals in the log. Between
their arrivals and those that are still to come the CPU was given away, and whoever is due by
now has just arrived or waited for the end of a slice. -/
structure Admissions (arrival : Fin n → Int) (s : Scheduler n) (order : List (Fin n)) : Prop where
  arrives : ∀ i, (s.process i).spec.arrival = arrival i
  log : arrivals s.log.toList = s.bank.pids order
  mem : ∀ i, i ∈ order ↔ (s.process i).phase ≠ .new
  sorted : order.Pairwise (AdmittedFirst arrival s.timeline.toList)
  past : ∀ i ∈ order, arrival i ≤ s.clock
  apart : ∀ i ∈ order, ∀ j ∉ order, Separated s.timeline.toList (arrival i) (arrival j)
  prompt : ∀ j ∉ order, arrival j ≤ s.clock →
    arrival j = s.clock ∨ ∃ b ∈ s.timeline.toList, b.start < arrival j ∧ b.stop = s.clock
  stops : ∀ b ∈ s.timeline.toList, b.stop ≤ s.clock

namespace Admissions

variable {arrival : Fin n → Int} {order : List (Fin n)}

theorem phase_eq_new (h : s.Admissions arrival order) :
    (s.process i).phase = .new ↔ i ∉ order := by
  rw [h.mem, not_not]

theorem mem_arriving (h : s.Admissions arrival order) :
    i ∈ s.arriving ↔ i ∉ order ∧ arrival i ≤ s.clock := by
  rw [Scheduler.mem_arriving, h.phase_eq_new, h.arrives]

/-- Those who are admitted together are so in workload order, and no time was left to admit
any of them alone. -/
theorem pairwise_arriving (h : s.Admissions arrival order) :
    s.arriving.Pairwise (AdmittedFirst arrival s.timeline.toList) := by
  have hslots : s.arriving.Pairwise (· < ·) :=
    ((List.pairwise_lt_finRange n).filter _).filter _
  refine hslots.imp_of_mem fun {i j} hi hj hlt => .inr ⟨hlt, fun hseparated => ?_⟩
  obtain ⟨-, hi⟩ := h.mem_arriving.mp hi
  obtain ⟨hj, hdue⟩ := h.mem_arriving.mp hj
  obtain ⟨hearlier, hspanned⟩ := hseparated
  rcases h.prompt j hj hdue with hnow | ⟨b, hb, hstart, hstop⟩
  · omega
  · exact hspanned ⟨b, hb, hstart, hstop ▸ hi⟩

theorem of_round (hs : s.Sound) (h : s.Admissions arrival order) (hround : Round policy s t) :
    t.Admissions arrival (order ++ s.arriving) := by
  obtain ⟨new, htimeline, hnew⟩ := hround.exists_new
  have hclock := hround.clock_le
  have hadvances := advances_of_moves hround.moves
  have hspec (i) : (t.process i).spec = (s.process i).spec := spec_of_advances hadvances i
  have hmem (i) : i ∈ order ++ s.arriving ↔ (t.process i).phase ≠ .new := by
    rw [List.mem_append, h.mem_arriving, ne_eq, hround.phase_eq_new hs, h.phase_eq_new, h.arrives]
    by_cases hi : i ∈ order <;> simp [hi]
  have hpast (i) (hi : i ∈ order ++ s.arriving) : arrival i ≤ s.clock := by
    rcases List.mem_append.mp hi with hi | hi
    · exact h.past i hi
    · exact (h.mem_arriving.mp hi).2
  have hlate (j) (hj : j ∉ order ++ s.arriving) : s.clock < arrival j := by
    rw [hmem, not_not, hround.phase_eq_new hs, h.arrives] at hj
    exact hj.2
  have hstart (i) (hi : i ∈ order ++ s.arriving) (b) (hb : b ∈ new) : arrival i ≤ b.start :=
    (hnew b hb).1 ▸ hpast i hi
  constructor
  case arrives => exact fun i => (congrArg Spec.arrival (hspec i)).trans (h.arrives i)
  case log =>
    have hpid : t.bank.pid = s.bank.pid := funext (pid_of_advances hadvances)
    rw [hround.arrivals_eq, h.log, Bank.pids, Bank.pids, Bank.pids, hpid, List.map_append]
  case mem => exact hmem
  case sorted =>
    have hsorted : (order ++ s.arriving).Pairwise (AdmittedFirst arrival s.timeline.toList) :=
      List.pairwise_append.mpr ⟨h.sorted, h.pairwise_arriving, fun i hi j hj =>
        .inl (h.apart i hi j (h.mem_arriving.mp hj).1)⟩
    rw [htimeline]
    exact hsorted.imp_of_mem fun hi hj hfirst => hfirst.append (hstart _ hi) (hstart _ hj)
  case past => exact fun i hi => Int.le_trans (hpast i hi) hclock
  case apart =>
    rw [htimeline]
    exact fun i hi j hj => separated_of_boundary h.stops
      (fun b hb => Int.le_of_eq (hnew b hb).1.symm) (hpast i hi) (hlate j hj)
  case prompt =>
    intro j hj hdue
    have hnew := not_not.mp (mt (hmem j).mpr hj)
    rw [← h.arrives] at hdue ⊢
    exact hround.prompt hs hnew hdue
  case stops =>
    rw [htimeline]
    intro b hb
    rcases List.mem_append.mp hb with hb | hb
    · exact Int.le_trans (h.stops b hb) hclock
    · exact Int.le_of_eq (hnew b hb).2

theorem nodup (h : s.Admissions arrival order) : order.Nodup :=
  h.sorted.imp fun hfirst => by
    rintro rfl
    exact hfirst.asymm hfirst

/-- In the log, arrivals stand in the order of the admissions. -/
theorem sublist_iff (hs : s.Sound) (h : s.Admissions arrival order) (hi : i ∈ order)
    (hj : j ∈ order) (hfirst : ArrivesFirst arrival i j) :
    [s.bank.pid i, s.bank.pid j].Sublist (arrivals s.log.toList) ↔
      i < j ∨ ¬ Spanned s.timeline.toList (arrival i) (arrival j) := by
  have hne : i ≠ j := by
    rintro rfl
    rcases hfirst with hlt | ⟨-, hlt⟩
    · exact Int.lt_irrefl _ hlt
    · exact Fin.lt_irrefl _ hlt
  rw [h.log, Bank.pids, ← hfirst.admittedFirst_iff,
    ← pair_sublist_iff h.sorted AdmittedFirst.asymm hi hj hne]
  refine ⟨fun hpids => ?_, fun hslots => hslots.map s.bank.pid⟩
  obtain ⟨slots, hslots, hmap⟩ := List.sublist_map_iff.mp hpids
  obtain rfl : [i, j] = slots := List.map_injective_iff.mpr hs.bank.distinct hmap
  exact hslots

end Admissions

end Scheduler

namespace Workload

open Scheduler

variable {w : Workload} {config : Config} {policy : SlicePolicy w.size}

def arrivalOf (w : Workload) (i : Fin w.size) : Int := (w.spec i).arrival

theorem admissions_start : (w.start config).Admissions w.arrivalOf [] := by
  have hprocess (i : Fin w.size) : (w.start config).process i = .ofSpec (w.spec i) :=
    process_start i
  constructor
  case arrives => exact fun i => congrArg (·.spec.arrival) (hprocess i)
  case log => rfl
  case mem => simp [hprocess, Proc.ofSpec]
  case sorted => exact .nil
  case past => simp
  case apart => simp
  case prompt => exact fun j _ hdue => .inl (Int.le_antisymm hdue (w.spec j).arrival_nonneg)
  case stops => exact fun b hb => absurd hb List.not_mem_nil

theorem exists_admissions (hpolicy : policy.Steady) (hk : ¬ (w.start config).Stopped policy k) :
    ∃ order, ((w.start config).afterSteps policy k).Admissions w.arrivalOf order :=
  rounds_induction (P := fun s => ∃ order, s.Admissions w.arrivalOf order) hpolicy
    ⟨[], admissions_start⟩ (fun _ _ hs ⟨_, h⟩ hround => ⟨_, h.of_round hs.sound hround⟩) hk

theorem map_spec_finRange (w : Workload) : (List.finRange w.size).map w.spec = w.specs :=
  List.map_get_finRange w.specs

/-- Every run ends, unless it stops at a step that cannot be recorded; if all can be it ends. By
its end everybody has arrived, and first service is in the order of the arrivals in the log. Of
two jobs the one that arrives first, or stands in front if they arrive together, is also the first
to be admitted and served, unless it stands behind the other in the workload and one slice runs
from before its arrival until the arrival of the other or longer. Then the other is first. -/
theorem order_of_arrival (w : Workload) (config : Config) :
    ((∃ k, ((w.start config).afterSteps .standard k).done) ∨
      ¬ w.Recordable config ∧ ∃ k, (w.start config).Stopped .standard k) ∧
    ∀ k, let s := (w.start config).afterSteps .standard k
      s.done →
        (arrivals s.log.toList).Perm (w.specs.map Spec.pid) ∧
        firstServed s.timeline.toList = arrivals s.log.toList ∧
        ∀ i j, ArrivesFirst w.arrivalOf i j →
          let inOrder := i < j ∨ ¬ Spanned s.timeline.toList (w.spec i).arrival (w.spec j).arrival
          ([(w.spec i).pid, (w.spec j).pid].Sublist (arrivals s.log.toList) ↔ inOrder) ∧
          ([(w.spec i).pid, (w.spec j).pid].Sublist (firstServed s.timeline.toList) ↔ inOrder) := by
  refine ⟨w.done_or_stopped config .standard, ?_⟩
  intro k s hdone
  have hs : s.Sound := sound_afterSteps k
  obtain ⟨order, h⟩ : ∃ order, s.Admissions w.arrivalOf order :=
    exists_admissions .standard (not_stopped_of_done .standard hdone)
  have hserved : firstServed s.timeline.toList = arrivals s.log.toList :=
    firstServed_afterSteps config .standard k hdone
  have hall (i) : i ∈ order := by
    obtain ⟨time, htime⟩ := hs.done_iff.mp hdone i
    rw [h.mem, htime]
    exact nofun
  have hspec (i) : s.bank.pid i = (w.spec i).pid := congrArg Spec.pid (spec_afterSteps k i)
  refine ⟨?_, hserved, ?_⟩
  · have hperm : order.Perm (List.finRange w.size) :=
      (List.perm_ext_iff_of_nodup h.nodup (List.nodup_finRange _)).mpr fun i => by simp [hall i]
    have hpids : s.bank.pids order = (order.map w.spec).map Spec.pid := by
      rw [Bank.pids, List.map_map]
      exact List.map_congr_left fun i _ => hspec i
    rw [h.log, hpids]
    exact ((hperm.map w.spec).trans (.of_eq w.map_spec_finRange)).map Spec.pid
  · intro i j hfirst inOrder
    have hiff := h.sublist_iff hs (hall i) (hall j) hfirst
    rw [hspec, hspec] at hiff
    rw [hserved]
    exact ⟨hiff, hiff⟩

theorem order_of_arrival_reference :
    ArrivesFirst reference.arrivalOf ⟨0, by decide⟩ ⟨3, by decide⟩ ∧
      ∃ k, ((reference.start .standard).afterSteps .standard k).done ∧
        [1, 4].Sublist
          (firstServed ((reference.start .standard).afterSteps .standard k).timeline.toList) := by
  have hfirst : ArrivesFirst reference.arrivalOf ⟨0, by decide⟩ ⟨3, by decide⟩ := by decide
  obtain ⟨hend, hfinished⟩ := order_of_arrival reference .standard
  obtain ⟨k, hdone⟩ := hend.resolve_right fun hstopped => hstopped.1 recordable_reference
  exact ⟨hfirst, k, hdone, ((hfinished k hdone).2.2 _ _ hfirst).2.mpr (.inl (by decide))⟩

/-- Smaller arrival times alone do not decide: of two jobs that arrive while a third one runs,
pid 3 is the first, and it is admitted and served after pid 2. -/
theorem later_arrival_overtakes :
    let w : Workload :=
      { specs := [
          ⟨1, 0, 10, false, none, by decide, by decide, by decide⟩,
          ⟨2, 5, 1, false, none, by decide, by decide, by decide⟩,
          ⟨3, 3, 1, false, none, by decide, by decide, by decide⟩],
        nonempty := by decide, distinct := by decide }
    let s := (w.start .standard).afterSteps .standard 3
    s.done ∧ w.specs.map (fun x => (x.pid, x.arrival)) = [(1, 0), (2, 5), (3, 3)] ∧
      Spanned s.timeline.toList 3 5 ∧
      arrivals s.log.toList = [1, 2, 3] ∧ firstServed s.timeline.toList = [1, 2, 3] ∧
      ¬ [3, 2].Sublist (arrivals s.log.toList) ∧
      ¬ [3, 2].Sublist (firstServed s.timeline.toList) := by
  decide +kernel

end Workload

end FeedbackQueue
