import FeedbackQueue.Proofs.Scheduler.Conservation
import FeedbackQueue.Proofs.Scheduler.Delivery

/-!
# Bounded waiting

Under the standard policy nobody waits long. Who arrives or returns from I/O is noticed at
the end of the slice that runs meanwhile and then stands in the top queue, where everybody
ahead takes one short slice. Who was demoted stands there from the next boost on, and a
boost comes at the first end of a slice after its interval. So the waiting time is bounded
by the boost interval, the longest quantum and a short quantum for everybody else.
-/

namespace FeedbackQueue

namespace Config

variable {config : Config}

/-- The quantum of the lowest level. -/
def longest (config : Config) : Int := config.quantum config.lowestLevel

theorem longest_eq (config : Config) :
    config.longest = config.baseQuantum * 2 ^ (config.numQueues - 1) := by
  simp [longest, quantum, lowestLevel]

theorem longest_pos (config : Config) : 0 < config.longest := quantum_pos _

theorem quantum_zero (config : Config) : config.quantum 0 = config.baseQuantum := by
  simp [quantum]

theorem quantum_le_longest (hk : k ≤ config.lowestLevel) : config.quantum k ≤ config.longest :=
  quantum_mono hk

end Config

-- ---------------------------------------------------------------------------
-- Deadlines, as the timeline tells them
-- ---------------------------------------------------------------------------

/-- How late a process may be in the top queue. Only after a demotion does it have to wait
for a boost. -/
def grace (config : Config) (slices : List Slice) (spec : Spec) : Int :=
  if (lastSlice slices spec.pid).map Slice.outcome = some .demoted
  then config.boostInterval - 1 + config.longest
  else config.longest - 1

/-- When a process runs at the latest, among a number of processes. -/
def deadline (config : Config) (count : Nat) (slices : List Slice) (spec : Spec) : Int :=
  readyTime config slices spec + grace config slices spec + (count - 1) * config.baseQuantum

variable {config : Config} {slices : List Slice} {spec : Spec} {b : Slice}

theorem grace_of_none (h : lastSlice slices spec.pid = none) :
    grace config slices spec = config.longest - 1 := by
  simp [grace, h]

theorem grace_of_some (h : lastSlice slices spec.pid = some b) :
    grace config slices spec =
      if b.outcome = .demoted then config.boostInterval - 1 + config.longest
      else config.longest - 1 := by
  simp [grace, h]

theorem deadline_concat_of_ne (hpid : b.pid ≠ spec.pid) :
    deadline config count (slices ++ [b]) spec = deadline config count slices spec := by
  rw [deadline, grace, readyTime_concat_of_ne hpid, lastSlice_concat_of_ne hpid]
  rfl

theorem longest_le_grace : config.longest - 1 ≤ grace config slices spec := by
  have hinterval := config.boostInterval_pos
  unfold grace
  split <;> omega

namespace Scheduler

variable {s t : Scheduler n} {policy : SlicePolicy n}

-- ---------------------------------------------------------------------------
-- The top queue
-- ---------------------------------------------------------------------------

/-- A process stands in the top queue and runs by a time if everybody ahead of it takes one
quantum of that level. -/
def InLine (s : Scheduler n) (i : Fin n) (limit : Int) : Prop :=
  ∃ ahead behind, s.bank.queueAt 0 = ahead ++ i :: behind ∧
    s.clock + ahead.length * s.config.baseQuantum ≤ limit

namespace InLine

theorem of_mem (hs : s.Sound) (h : i ∈ s.bank.queueAt 0)
    (hlimit : s.clock + (n - 1) * s.config.baseQuantum ≤ limit) : s.InLine i limit := by
  obtain ⟨ahead, behind, hsplit⟩ := List.append_of_mem h
  have hnodup := hs.bank.nodup.sublist Bank.queueAt_zero_prefix_queued.sublist
  have hlength := hnodup.length_le_card
  rw [hsplit, List.length_append, List.length_cons, Fintype.card_fin] at hlength
  refine ⟨ahead, behind, hsplit, ?_⟩
  have hahead : (ahead.length : Int) ≤ n - 1 := by omega
  have hmul := Int.mul_le_mul_of_nonneg_right hahead (Int.le_of_lt s.config.baseQuantum_pos)
  omega

theorem clock_le (h : s.InLine i limit) : s.clock ≤ limit := by
  obtain ⟨ahead, -, -, hlimit⟩ := h
  have hbase := s.config.baseQuantum_pos
  have hahead : 0 ≤ (ahead.length : Int) * s.config.baseQuantum := by positivity
  omega

/-- Whoever joins the top queue meanwhile stands behind. -/
theorem of_prefix (h : s.InLine i limit) (hqueue : s.bank.queueAt 0 <+: t.bank.queueAt 0)
    (hclock : t.clock = s.clock) (hconfig : t.config = s.config) : t.InLine i limit := by
  obtain ⟨ahead, behind, hsplit, hlimit⟩ := h
  obtain ⟨more, hmore⟩ := hqueue
  refine ⟨ahead, behind ++ more, ?_, by rw [hclock, hconfig]; exact hlimit⟩
  rw [← hmore, hsplit, List.append_assoc, List.cons_append]

/-- As long as somebody stands in the top queue, its head is served. -/
theorem level_head (hs : s.Sound) (h : s.InLine i limit)
    (hdequeue : s.bank.dequeue = some (j, rest)) : (s.process j).level = 0 := by
  obtain ⟨ahead, behind, hsplit, -⟩ := h
  rcases Bank.queueAt_zero_of_dequeue hdequeue with hnone | hhead
  · simp [hnone] at hsplit
  · exact ((hs.bank.located j 0).mp (by simp [hhead])).2

/-- A short slice of the head brings everybody else one place forward. -/
theorem ran (h : s.InLine i limit) (hdequeue : s.bank.dequeue = some (j, rest)) (hne : i ≠ j)
    (hd : d ≤ s.config.baseQuantum) : ((s.dispatched j rest).ran j d).InLine i limit := by
  obtain ⟨ahead, behind, hsplit, hlimit⟩ := h
  obtain ⟨more, hmore⟩ : (s.dispatched j rest).bank.queueAt 0 <+: _ :=
    queueAt_zero_prefix_ran (s := s.dispatched j rest) (i := j) (d := d)
  rcases Bank.queueAt_zero_of_dequeue hdequeue with hnone | hhead
  · simp [hnone] at hsplit
  · rw [hhead] at hsplit
    cases ahead with
    | nil => exact absurd (List.cons_eq_cons.mp hsplit).1.symm hne
    | cons first ahead =>
      obtain ⟨-, hrest⟩ : j = first ∧ rest.queueAt 0 = ahead ++ i :: behind :=
        List.cons_eq_cons.mp hsplit
      refine ⟨ahead, behind ++ more, ?_, ?_⟩
      · rw [← hmore, show (s.dispatched j rest).bank.queueAt 0 = _ from hrest, List.append_assoc,
          List.cons_append]
      · have hclock : ((s.dispatched j rest).ran j d).clock = s.clock + d := rfl
        have hconfig : ((s.dispatched j rest).ran j d).config = s.config := rfl
        rw [List.length_cons, Nat.cast_succ, Int.add_mul] at hlimit
        rw [hclock, hconfig]
        omega

end InLine

theorem queueAt_zero_prefix_foldl_admitted (l : List (Fin n)) (s : Scheduler n) :
    s.bank.queueAt 0 <+: (l.foldl admitted s).bank.queueAt 0 := by
  induction l generalizing s with
  | nil => exact List.prefix_refl _
  | cons i rest ih => exact Bank.queueAt_zero_prefix_put.trans (ih (s.admitted i))

theorem queueAt_zero_prefix_prepared : s.arrived.bank.queueAt 0 <+: s.prepared.bank.queueAt 0 := by
  unfold prepared
  split
  · exact Bank.queueAt_zero_prefix_raiseAll
  · exact List.prefix_refl _

/-- Between the admissions and a dispatch no boost is overdue. -/
theorem Sound.clock_lt_prepared (hs : s.Sound) :
    s.clock < s.prepared.booster.last + s.config.boostInterval := by
  have hinterval := hs.interval
  have hpos := s.config.boostInterval_pos
  cases hdue : s.booster.due s.clock with
  | true =>
    rw [prepared_of_due hdue, show s.arrived.boosted.booster.last = s.arrived.clock from rfl,
      clock_arrived]
    omega
  | false =>
    rw [prepared_of_not_due hdue, booster_arrived]
    rw [Booster.due, decide_eq_false_iff_not] at hdue
    omega

-- ---------------------------------------------------------------------------
-- First runs
-- ---------------------------------------------------------------------------

/-- Every process remembers when its first slice started. -/
def FirstRuns (s : Scheduler n) : Prop :=
  ∀ i, (s.process i).firstRun =
    (s.timeline.toList.find? (·.pid = (s.process i).pid)).map Slice.start

theorem FirstRuns.prepared (h : s.FirstRuns) : s.prepared.FirstRuns := by
  intro i
  have hpid : (s.prepared.process i).pid = (s.process i).pid := congrArg Spec.pid spec_prepared
  rw [firstRun_prepared, hpid, timeline_prepared, ← h i]

theorem FirstRuns.lastSlice_eq_none (h : s.FirstRuns) (hi : (s.process i).firstRun = none) :
    lastSlice s.timeline.toList (s.process i).pid = none := by
  rw [h i, Option.map_eq_none_iff, List.find?_eq_none] at hi
  exact FeedbackQueue.lastSlice_eq_none fun a ha hpid => hi a ha (by simpa using hpid)

theorem FirstRuns.of_round (hs : s.Sound) (h : s.FirstRuns) (hround : Round policy s t) :
    t.FirstRuns := by
  have hpid (i) : (t.process i).pid = (s.process i).pid :=
    pid_of_advances (advances_of_moves hround.moves) i
  cases hround with
  | idle _ _ => exact h.prepared
  | @slice j rest d hdequeue _ _ _ =>
    intro i
    have hprepared := h.prepared i
    have hpid_prepared : (s.prepared.process i).pid = (s.process i).pid :=
      congrArg Spec.pid spec_prepared
    rw [timeline_prepared, hpid_prepared] at hprepared
    rw [hpid i, timeline_ran_prepared, List.find?_append, Option.map_or, ← hprepared]
    by_cases hij : i = j
    · subst i
      rw [process_ran_prepared_self, Proc.firstRun_settled, Proc.ran, process_dispatched hdequeue,
        if_pos rfl, Proc.dispatched, List.find?_singleton, pid_slice_prepared hdequeue]
      simp [start_slice_prepared]
    · have hne : (s.process j).pid ≠ (s.process i).pid := fun heq => hij (hs.bank.distinct heq.symm)
      rw [process_ran_prepared_of_ne hdequeue hij, List.find?_singleton,
        pid_slice_prepared hdequeue]
      simp [hne]

-- ---------------------------------------------------------------------------
-- Who waits for what
-- ---------------------------------------------------------------------------

/-- A process in a queue stands in the top one in time for its deadline, or was demoted
and waits for a boost, which may be overdue by a time. -/
inductive Expected (specs : Fin n → Spec) (s : Scheduler n) (overdue : Int) (i : Fin n) : Prop
  | line : s.InLine i (deadline s.config n s.timeline.toList (specs i)) → Expected specs s overdue i
  | boost : (lastSlice s.timeline.toList (specs i).pid).map Slice.outcome = some .demoted →
      s.booster.last ≤ readyTime s.config s.timeline.toList (specs i) →
      s.clock ≤ s.booster.last + (s.config.boostInterval - 1) + overdue →
      Expected specs s overdue i

theorem Expected.clock_le {specs : Fin n → Spec} (h : s.Expected specs overdue i)
    (hoverdue : overdue ≤ s.config.longest) :
    s.clock ≤ deadline s.config n s.timeline.toList (specs i) := by
  cases h with
  | line h => exact h.clock_le
  | boost hdemoted hlast hclock =>
    have hbase := s.config.baseQuantum_pos
    have hn : 0 < n := i.pos
    have hothers : 0 ≤ ((n : Int) - 1) * s.config.baseQuantum :=
      Int.mul_nonneg (by omega) (Int.le_of_lt hbase)
    rw [deadline, grace, if_pos hdemoted]
    omega

/-- What holds between two steps of a workload. -/
structure Attended (w : Workload) (s : Scheduler w.size) : Prop
    extends s.Levelled, s.Conserving w where
  /-- A time that has come is noticed after one slice. -/
  pending : ∀ i time, (s.process i).due? = some time → s.clock ≤ time + (s.config.longest - 1)
  waiting : ∀ i, (s.process i).phase = .ready → s.Expected w.spec s.config.longest i
  served : ∀ before b after, s.timeline.toList = before ++ b :: after →
    ∃ i, (w.spec i).pid = b.pid ∧ readyTime s.config before (w.spec i) ≤ b.start ∧
      b.start ≤ deadline s.config w.size before (w.spec i)

namespace Attended

variable {w : Workload} {s t : Scheduler w.size}

/-- Who has just been admitted stands in the top queue. -/
theorem inLine_of_due (hs : s.AtRest .standard) (h : s.Attended w) (hdue : s.due i) :
    s.arrived.InLine i (deadline s.config w.size s.timeline.toList (w.spec i)) := by
  obtain ⟨time, htime, -⟩ := Proc.dueBy_iff.mp hdue
  have hplaced := (h.placed i).toAnchored
  have hprocess : s.arrived.process i = (s.process i).admitted := by
    rw [process_arrived, if_pos hdue]
  have hlevel : (s.arrived.process i).level = 0 := by
    rw [hprocess, hplaced.level_admitted]
    refine hplaced.level_eq_zero (Proc.completion_of_due htime) ?_ (hs.free i)
    rcases Proc.due?_eq_some.mp htime with ⟨hphase, -⟩ | hphase <;> simp [hphase]
  have hready : (s.arrived.process i).phase = .ready := by
    rw [hprocess, Proc.phase_admitted]
  have hmem := (hs.sound.arrived.bank.located i 0).mpr ⟨hready, hlevel⟩
  refine .of_mem hs.sound.arrived hmem ?_
  have hpending := h.pending i time htime
  have hgrace : s.config.longest - 1 ≤ grace s.config s.timeline.toList (w.spec i) :=
    longest_le_grace
  rw [clock_arrived, config_arrived, deadline, (h.agrees i).pending htime]
  omega

/-- When a step dispatches, every deadline of those who wait is still ahead. -/
theorem expected_prepared (hs : s.AtRest .standard) (h : s.Attended w)
    (hi : (s.prepared.process i).phase = .ready) : s.prepared.Expected w.spec 0 i := by
  have hline (hline : s.arrived.InLine i (deadline s.config w.size s.timeline.toList (w.spec i))) :
      s.prepared.Expected w.spec 0 i := by
    refine .line ?_
    rw [config_prepared, timeline_prepared]
    exact hline.of_prefix queueAt_zero_prefix_prepared (by simp) (by simp)
  by_cases hdue : s.due i
  · exact hline (h.inLine_of_due hs hdue)
  have hready : (s.process i).phase = .ready := by
    rw [← hi, phase_prepared, if_neg hdue]
  cases h.waiting i hready with
  | line h =>
    exact hline (h.of_prefix (queueAt_zero_prefix_foldl_admitted _ s) (by simp) (by simp))
  | boost hdemoted hlast hclock =>
    cases hboost : s.booster.due s.clock with
    | true =>
      -- The boost brings everybody who waits into the top queue.
      refine .line ?_
      have hmem : i ∈ s.prepared.bank.queueAt 0 := by
        rw [prepared_of_due hboost, queueAt_zero_boosted, ← prepared_of_due hboost]
        exact hs.sound.prepared.bank.mem_queued.mpr hi
      refine .of_mem hs.sound.prepared hmem ?_
      rw [config_prepared, timeline_prepared, clock_prepared, deadline, grace, if_pos hdemoted]
      omega
    | false =>
      have hintime := hs.sound.clock_lt_prepared
      have hbooster : s.prepared.booster = s.booster := by
        rw [prepared_of_not_due hboost, booster_arrived]
      rw [hbooster] at hintime
      refine .boost ?_ ?_ ?_
      · rwa [timeline_prepared]
      · rwa [hbooster, config_prepared, timeline_prepared]
      · rw [clock_prepared, hbooster, config_prepared]
        omega

theorem idle (hs : s.AtRest .standard) (h : s.Attended w) (hqueued : s.prepared.bank.queued = [])
    (hnext : s.prepared.nextEvent = some target) : (s.prepared.idled target).Attended w := by
  have hround : Round .standard s (s.prepared.idled target) := .idle hqueued hnext
  have hconfig : (s.prepared.idled target).config = s.config := config_prepared
  have htimeline : (s.prepared.idled target).timeline = s.timeline := timeline_prepared
  refine ⟨h.toLevelled.of_round hs hround, h.toConserving.of_round hs hround, ?_, ?_, ?_⟩
  · intro i time htime
    have hleast := (nextEvent_eq_some.mp hnext).2 i time htime
    have hlongest := s.config.longest_pos
    rw [clock_idled_prepared hnext, hconfig]
    omega
  · intro i hi
    have hmem := hs.sound.prepared.bank.mem_queued.mpr hi
    simp [hqueued] at hmem
  · rw [htimeline, hconfig]
    exact h.served

/-- The slice that the head of the queues runs is no longer than the quantum of its level. -/
theorem duration_le (hs : s.AtRest .standard)
    (hdequeue : s.prepared.bank.dequeue = some (j, rest))
    (hpolicy : SlicePolicy.standard (s.prepared.dispatched j rest) j = .ok d) :
    d ≤ s.config.quantum (s.prepared.process j).level ∧ d ≤ s.config.longest := by
  have hsound := hs.sound.prepared.dispatched hdequeue
  have hlive := Proc.completion_of_running (running_dispatched hdequeue)
  have hshare := share_le_quantum (hs.fresh_dispatched hdequeue rfl) hlive
  rw [standard_eq hsound, Except.ok.injEq] at hpolicy
  rw [hpolicy, show (s.prepared.dispatched j rest).config = s.config from config_prepared,
    apply_dispatched Proc.level hdequeue fun _ _ => rfl] at hshare
  have hlevel := hs.sound.prepared.level_le j
  rw [config_prepared] at hlevel
  exact ⟨hshare, Int.le_trans hshare (Config.quantum_le_longest hlevel)⟩

/-- Everybody but the head still waits for the same, and a boost may have become overdue. -/
theorem expected_slice_of_ne (hs : s.AtRest .standard) (h : s.Attended w)
    (hdequeue : s.prepared.bank.dequeue = some (j, rest))
    (hpolicy : SlicePolicy.standard (s.prepared.dispatched j rest) j = .ok d) (hne : i ≠ j)
    (hi : (s.prepared.process i).phase = .ready) :
    ((s.prepared.dispatched j rest).ran j d).Expected w.spec s.config.longest i := by
  obtain ⟨hquantum, hlongest⟩ := duration_le hs hdequeue hpolicy
  have hpid : ((s.prepared.dispatched j rest).slice j d).pid ≠ (w.spec i).pid := by
    rw [pid_slice_prepared hdequeue, ← (h.agrees i).job]
    exact fun heq => hne (hs.sound.bank.distinct heq.symm)
  cases h.expected_prepared hs hi with
  | line hline =>
    have hlevel := hline.level_head hs.sound.prepared hdequeue
    rw [hlevel, Config.quantum_zero, ← config_prepared (s := s)] at hquantum
    refine .line ?_
    rw [timeline_ran_prepared, config_ran_prepared, deadline_concat_of_ne hpid]
    rw [timeline_prepared, config_prepared] at hline
    exact hline.ran hdequeue hne hquantum
  | boost hdemoted hlast hclock =>
    rw [timeline_prepared] at hdemoted hlast
    rw [config_prepared] at hlast hclock
    refine .boost ?_ ?_ ?_
    · rw [timeline_ran_prepared, lastSlice_concat_of_ne hpid]
      exact hdemoted
    · rw [timeline_ran_prepared, config_ran_prepared, readyTime_concat_of_ne hpid]
      exact hlast
    · show s.prepared.clock + d ≤ s.prepared.booster.last + _ + _
      rw [config_ran_prepared]
      omega

/-- The head itself waits for the next boost if it is demoted, and else for no queue. -/
theorem expected_slice_self (hs : s.AtRest .standard) (h : s.Attended w)
    (hdequeue : s.prepared.bank.dequeue = some (j, rest))
    (hpolicy : SlicePolicy.standard (s.prepared.dispatched j rest) j = .ok d) (hpos : 0 < d)
    (hj : (((s.prepared.dispatched j rest).ran j d).process j).phase = .ready) :
    ((s.prepared.dispatched j rest).ran j d).Expected w.spec s.config.longest j := by
  have hsound := hs.sound.prepared.dispatched hdequeue
  have hlive := Proc.completion_of_running (running_dispatched hdequeue)
  have hrequeued := outcome_share_ne_requeued (hs.fresh_dispatched hdequeue rfl) hlive
  obtain ⟨-, hlongest⟩ := duration_le hs hdequeue hpolicy
  rw [standard_eq hsound, Except.ok.injEq] at hpolicy
  rw [hpolicy] at hrequeued
  have hpid : ((s.prepared.dispatched j rest).slice j d).pid = (w.spec j).pid := by
    rw [pid_slice_prepared hdequeue, Proc.pid, (h.agrees j).job]
  have hdemoted : ((s.prepared.dispatched j rest).slice j d).outcome = .demoted := by
    rw [process_ran_prepared_self] at hj
    cases ho : ((s.prepared.dispatched j rest).slice j d).outcome with
    | completed => simp [ho, Proc.settled] at hj
    | ioYield => simp [ho, Proc.settled] at hj
    | demoted => rfl
    | requeued => exact absurd ho hrequeued
  have hintime := hs.sound.clock_lt_prepared
  have hlast := (h.toLevelled.prepared hs).last_le
  have hbooster : ((s.prepared.dispatched j rest).ran j d).booster = s.prepared.booster := rfl
  rw [clock_prepared] at hlast
  refine .boost ?_ ?_ ?_
  · rw [timeline_ran_prepared, lastSlice_concat hpid, Option.map_some, hdemoted]
  · rw [timeline_ran_prepared, readyTime_concat hpid, hdemoted, if_neg (by simp),
      stop_slice_prepared, hbooster]
    omega
  · rw [clock_ran_prepared, hbooster, config_ran_prepared]
    omega

theorem slice (hs : s.AtRest .standard) (h : s.Attended w)
    (hdequeue : s.prepared.bank.dequeue = some (j, rest))
    (hpolicy : SlicePolicy.standard (s.prepared.dispatched j rest) j = .ok d) (hpos : 0 < d)
    (hle : d ≤ (s.process j).remaining) : ((s.prepared.dispatched j rest).ran j d).Attended w := by
  have hround : Round .standard s ((s.prepared.dispatched j rest).ran j d) :=
    .slice hdequeue hpolicy hpos hle
  have hlevelled := h.toLevelled.of_round hs hround
  have hconserving := h.toConserving.of_round hs hround
  obtain ⟨-, hlongest⟩ := duration_le hs hdequeue hpolicy
  refine ⟨hlevelled, hconserving, ?_, ?_, ?_⟩
  · intro i time htime
    rw [clock_ran_prepared, config_ran_prepared]
    by_cases hij : i = j
    · subst i
      -- It returns from I/O no earlier than at the end of the slice.
      have hio := s.config.ioDuration_nonneg
      have hlongest := s.config.longest_pos
      rw [process_ran_prepared_self, Proc.due?_settled] at htime
      split at htime
      · rw [Option.some.injEq] at htime
        omega
      · simp at htime
    · rw [process_ran_prepared_of_ne hdequeue hij, due?_prepared] at htime
      split at htime
      · simp at htime
      · have hlate : s.clock < time :=
          Int.not_le.mp fun hle => ‹¬ _› (Proc.dueBy_iff.mpr ⟨time, htime, hle⟩)
        omega
  · intro i hi
    rw [config_ran_prepared]
    by_cases hij : i = j
    · subst i
      exact h.expected_slice_self hs hdequeue hpolicy hpos hi
    · rw [process_ran_prepared_of_ne hdequeue hij] at hi
      exact h.expected_slice_of_ne hs hdequeue hpolicy hij hi
  · rw [timeline_ran_prepared, config_ran_prepared]
    have hready := hs.sound.prepared.head_ready hdequeue
    have hlimit := (h.expected_prepared hs hready).clock_le (Int.le_of_lt (Config.longest_pos _))
    rw [clock_prepared, config_prepared, timeline_prepared] at hlimit
    refine forall_split_concat h.served ⟨j, ?_, ?_⟩
    · rw [pid_slice_prepared hdequeue, Proc.pid, (h.agrees j).job]
    · rw [start_slice_prepared]
      exact ⟨(h.agrees_prepared j).ready hready, hlimit⟩

theorem of_round (hs : s.AtRest .standard) (h : s.Attended w) (hround : Round .standard s t) :
    t.Attended w := by
  cases hround with
  | idle hqueued hnext => exact h.idle hs hqueued hnext
  | slice hdequeue hpolicy hpos hle => exact h.slice hs hdequeue hpolicy hpos hle

/-- How long the first slice of a process lets it wait. -/
theorem first_served {before after : List Slice} (h : s.Attended w)
    (hslices : s.timeline.toList = before ++ b :: after)
    (hfirst : ∀ a ∈ before, a.pid ≠ b.pid) :
    ∃ i, (w.spec i).pid = b.pid ∧ (w.spec i).arrival ≤ b.start ∧
      b.start ≤ (w.spec i).arrival + (s.config.longest - 1) +
        (w.size - 1) * s.config.baseQuantum := by
  obtain ⟨i, hpid, hready, hlimit⟩ := h.served before b after hslices
  have hlast : lastSlice before (w.spec i).pid = none := lastSlice_eq_none (hpid ▸ hfirst)
  rw [deadline, grace_of_none hlast] at hlimit
  rw [readyTime_of_none hlast] at hready hlimit
  exact ⟨i, hpid, hready, hlimit⟩

/-- How long the next slice of a process lets it wait. -/
theorem next_served {before middle after : List Slice} (h : s.Attended w)
    (hslices : s.timeline.toList = before ++ a :: middle ++ b :: after) (hpid : a.pid = b.pid)
    (hnext : ∀ c ∈ middle, c.pid ≠ a.pid) :
    let ready := if a.outcome = .ioYield then a.stop + s.config.ioDuration else a.stop
    let late := if a.outcome = .demoted then s.config.boostInterval - 1 + s.config.longest
      else s.config.longest - 1
    ready ≤ b.start ∧ b.start ≤ ready + late + (w.size - 1) * s.config.baseQuantum := by
  intro ready late
  obtain ⟨i, hspec, hready, hlimit⟩ := h.served _ b after hslices
  have hlast : lastSlice (before ++ a :: middle) (w.spec i).pid = some a := by
    rw [hspec, ← hpid]
    exact lastSlice_append_cons hnext
  rw [deadline, grace_of_some hlast] at hlimit
  rw [readyTime_of_some hlast] at hready hlimit
  exact ⟨hready, hlimit⟩

/-- Whoever waits, or is about to join a queue, may still run in time. -/
theorem clock_le (h : s.Attended w) (hi : s.due i ∨ (s.process i).phase = .ready) :
    s.clock ≤ deadline s.config w.size s.timeline.toList (w.spec i) := by
  rcases hi with hdue | hready
  · obtain ⟨time, htime, -⟩ := Proc.dueBy_iff.mp hdue
    have hpending := h.pending i time htime
    have hgrace : s.config.longest - 1 ≤ grace s.config s.timeline.toList (w.spec i) :=
      longest_le_grace
    have hn : 0 < w.size := i.pos
    have hothers : 0 ≤ ((w.size : Int) - 1) * s.config.baseQuantum :=
      Int.mul_nonneg (by omega) (Int.le_of_lt s.config.baseQuantum_pos)
    rw [deadline, (h.agrees i).pending htime]
    omega
  · exact (h.waiting i hready).clock_le (Int.le_refl _)

/-- How long a demoted process has waited while it is queued. -/
theorem clock_le_of_demoted {before after : List Slice} (h : s.Attended w)
    (hslices : s.timeline.toList = before ++ a :: after) (hdemoted : a.outcome = .demoted)
    (hlast : ∀ c ∈ after, c.pid ≠ a.pid) (hi : s.due i ∨ (s.process i).phase = .ready)
    (hpid : (w.spec i).pid = a.pid) :
    s.clock ≤ a.stop + (s.config.boostInterval - 1 + s.config.longest) +
      (w.size - 1) * s.config.baseQuantum := by
  have hlate := h.clock_le hi
  have hlast : lastSlice s.timeline.toList (w.spec i).pid = some a := by
    rw [hpid, hslices]
    exact lastSlice_append_cons hlast
  rw [deadline, grace_of_some hlast, readyTime_of_some hlast, hdemoted] at hlate
  simpa using hlate

end Attended

/-- A step that halts leaves nobody in a queue who did not wait or was about to. -/
theorem Halt.due_or_ready (h : s.Halt t) (hi : (t.process i).phase = .ready) :
    s.due i ∨ (s.process i).phase = .ready := by
  have hprepared (hi : (s.prepared.process i).phase = .ready) :
      s.due i ∨ (s.process i).phase = .ready := by
    rw [phase_prepared] at hi
    split at hi
    · exact .inl ‹_›
    · exact .inr hi
  cases h with
  | admission hcut =>
    rw [hcut.admits.process] at hi
    split at hi
    · exact .inl (hcut.admits.due i ‹_›)
    · exact .inr hi
  | dispatch hdequeue _ =>
    rw [process_unrecorded, process_dispatched hdequeue] at hi
    split at hi
    · cases hi
    · exact hprepared hi
  | idle _ _ _ => exact hprepared hi

-- ---------------------------------------------------------------------------
-- Response times
-- ---------------------------------------------------------------------------

/-- Who has run got the CPU for the first time soon after its arrival. -/
def Responsive (w : Workload) (s : Scheduler w.size) : Prop :=
  ∀ i start, (s.process i).firstRun = some start →
    (w.spec i).arrival ≤ start ∧
      start ≤ (w.spec i).arrival + (s.config.longest - 1) + (w.size - 1) * s.config.baseQuantum

variable {w : Workload} {s t : Scheduler w.size}

theorem Attended.responsive (hs : s.Sound) (h : s.Attended w) (hruns : s.FirstRuns) :
    s.Responsive w := by
  intro i start hrun
  rw [hruns i] at hrun
  obtain ⟨b, hb, rfl⟩ := Option.map_eq_some_iff.mp hrun
  obtain ⟨hpid, before, after, hslices, hfirst⟩ := List.find?_eq_some_iff_append.mp hb
  have hpid : b.pid = (s.process i).pid := by simpa using hpid
  obtain ⟨j, hspec, hstart⟩ := h.first_served hslices (by simpa [hpid] using hfirst)
  obtain rfl : j = i := by
    apply hs.bank.distinct
    rw [← (h.agrees j).job, hpid] at hspec
    exact hspec
  exact hstart

/-- Whoever is dispatched and has run no slice yet has not waited for long. -/
theorem Attended.first_dispatched (hs : s.AtRest .standard) (h : s.Attended w)
    (hdequeue : s.prepared.bank.dequeue = some (i, rest))
    (hnone : lastSlice s.timeline.toList (w.spec i).pid = none) :
    (w.spec i).arrival ≤ s.clock ∧ s.clock ≤ (w.spec i).arrival + (s.config.longest - 1) +
      (w.size - 1) * s.config.baseQuantum := by
  have hready := hs.sound.prepared.head_ready hdequeue
  have hlimit := (h.expected_prepared hs hready).clock_le (Int.le_of_lt (Config.longest_pos _))
  have hearliest := (h.agrees_prepared i).ready hready
  rw [clock_prepared, config_prepared, timeline_prepared, deadline, grace_of_none hnone,
    readyTime_of_none hnone] at hlimit
  rw [readyTime_of_none hnone] at hearliest
  exact ⟨hearliest, hlimit⟩

/-- A dispatch that cannot be recorded is in time like any other. -/
theorem Responsive.of_halt (hs : s.AtRest .standard) (h : s.Attended w) (hruns : s.FirstRuns)
    (hhalt : s.Halt t) : t.Responsive w := by
  have hresponsive := h.responsive hs.sound hruns
  have hconfig := hhalt.config_eq
  intro i start hrun
  rw [hconfig]
  cases hhalt with
  | admission hcut =>
    rw [hcut.admits.process, apply_ite Proc.firstRun, Proc.firstRun_admitted, ite_self] at hrun
    exact hresponsive i start hrun
  | @dispatch j rest hdequeue _ =>
    rw [process_unrecorded, process_dispatched hdequeue] at hrun
    split at hrun
    · subst i
      rw [Proc.dispatched, firstRun_prepared] at hrun
      cases hfirst : (s.process j).firstRun with
      | some time =>
        rw [hfirst] at hrun
        exact hresponsive j start (hfirst.trans hrun)
      | none =>
        rw [hfirst, Option.none_or, clock_prepared, Option.some.injEq] at hrun
        subst hrun
        have hnone := hruns.lastSlice_eq_none hfirst
        rw [Proc.pid, (h.agrees j).job] at hnone
        exact h.first_dispatched hs hdequeue hnone
    · rw [firstRun_prepared] at hrun
      exact hresponsive i start hrun
  | idle _ _ _ =>
    rw [firstRun_prepared] at hrun
    exact hresponsive i start hrun

end Scheduler

namespace Workload

open Scheduler

variable {w : Workload}

theorem attended_start : (w.start config).Attended w := by
  refine ⟨levelled_start, conserving_start, ?_, ?_, ?_⟩
  · intro i time htime
    have harrival := (w.spec i).arrival_nonneg
    have hlongest := config.longest_pos
    obtain rfl : (w.spec i).arrival = time := by
      simpa [process_start, Proc.due?, Proc.ofSpec] using htime
    show 0 ≤ (w.spec i).arrival + (config.longest - 1)
    omega
  · intro i hi
    rw [process_start] at hi
    simp [Proc.ofSpec] at hi
  · intro before b after heq
    simp [start, Scheduler.start] at heq

theorem attended_afterSteps (hk : ¬ (w.start config).Stopped .standard k) :
    ((w.start config).afterSteps .standard k).Attended w :=
  rounds_induction .standard attended_start (fun _ _ hs h hround => h.of_round hs hround) hk

theorem firstRuns_start : (w.start config).FirstRuns := by
  intro i
  rw [process_start]
  simp [Proc.ofSpec, start, Scheduler.start]

theorem firstRuns_afterSteps (hk : ¬ (w.start config).Stopped .standard k) :
    ((w.start config).afterSteps .standard k).FirstRuns :=
  rounds_induction .standard firstRuns_start (fun _ _ hs h hround => h.of_round hs.sound hround) hk

/-- A scheduler that attends to everybody has run the slices of any number of steps by then, and
those who wait after the steps wait there as well. -/
theorem exists_attended (w : Workload) (config : Config) (k : Nat) :
    let s := (w.start config).afterSteps .standard k
    ∃ t : Scheduler w.size, t.Attended w ∧ t.config = config ∧ s.timeline = t.timeline ∧
      s.clock = t.clock ∧ ∀ i ∈ s.bank.queued, t.due i ∨ (t.process i).phase = .ready := by
  intro s
  have hs : s.Sound := sound_afterSteps k
  obtain ⟨j, -, hj, hsame | hhalt⟩ := exists_not_stopped (w := w) config .standard k
  all_goals refine ⟨_, attended_afterSteps hj, config_afterSteps j, ?_⟩
  · rw [← hsame]
    exact ⟨rfl, rfl, fun i hi => .inr (hs.bank.mem_queued.mp hi)⟩
  · exact ⟨hhalt.timeline_eq, hhalt.clock_eq,
      fun i hi => hhalt.due_or_ready (hs.bank.mem_queued.mp hi)⟩

theorem responsive_afterSteps (w : Workload) (config : Config) (k : Nat) :
    ((w.start config).afterSteps .standard k).Responsive w := by
  obtain ⟨j, -, hj, hsame | hhalt⟩ := exists_not_stopped (w := w) config .standard k
  · rw [hsame]
    exact (attended_afterSteps hj).responsive (sound_afterSteps j) (firstRuns_afterSteps hj)
  · exact .of_halt (atRest_start.afterSteps .standard hj) (attended_afterSteps hj)
      (firstRuns_afterSteps hj) hhalt

/-- A demoted process runs again within the boost interval, the longest quantum and one
short quantum for everybody else, and as long as it is queued it has waited no longer. -/
theorem starvation_bounded (w : Workload) (config : Config) (k : Nat) :
    let s := (w.start config).afterSteps .standard k
    let bound := config.boostInterval - 1 + config.baseQuantum * 2 ^ (config.numQueues - 1) +
      ((w.size : Int) - 1) * config.baseQuantum
    (∀ (before middle after : List Slice) (a b : Slice),
      s.timeline.toList = before ++ a :: middle ++ b :: after →
      a.outcome = .demoted → a.pid = b.pid → (∀ c ∈ middle, c.pid ≠ a.pid) →
      b.start - a.stop ≤ bound) ∧
    ∀ (before after : List Slice) (a : Slice), s.timeline.toList = before ++ a :: after →
      a.outcome = .demoted → (∀ c ∈ after, c.pid ≠ a.pid) →
      ∀ i ∈ s.bank.queued, (s.process i).pid = a.pid → s.clock - a.stop ≤ bound := by
  intro s bound
  obtain ⟨t, h, hconfig, htimeline, hclock, hqueued⟩ := w.exists_attended config k
  have hbound : bound = config.boostInterval - 1 + config.longest +
      ((w.size : Int) - 1) * config.baseQuantum := by
    rw [Config.longest_eq]
  rw [show s.timeline = t.timeline from htimeline, show s.clock = t.clock from hclock]
  refine ⟨?_, ?_⟩
  · intro before middle after a b hslices hdemoted hpid hnext
    have hstart := (h.next_served hslices hpid hnext).2
    simp only [hdemoted, if_true, reduceCtorEq, if_false] at hstart
    rw [hconfig] at hstart
    omega
  · intro before after a hslices hdemoted hlast i hi hpid
    have hspec : (s.process i).spec = w.spec i := spec_afterSteps k i
    have hclock := h.clock_le_of_demoted hslices hdemoted hlast (hqueued i hi)
      (hspec ▸ hpid)
    rw [hconfig] at hclock
    omega

/-- Whoever arrives or returns from I/O runs within the longest quantum and one short
quantum for everybody else, however rare the boosts. -/
theorem response_bounded (w : Workload) (config : Config) (k : Nat) :
    let s := (w.start config).afterSteps .standard k
    let bound := config.baseQuantum * 2 ^ (config.numQueues - 1) - 1 +
      ((w.size : Int) - 1) * config.baseQuantum
    (∀ (before after : List Slice) (b : Slice), s.timeline.toList = before ++ b :: after →
      (∀ a ∈ before, a.pid ≠ b.pid) →
      ∃ spec ∈ w.specs, spec.pid = b.pid ∧
        0 ≤ b.start - spec.arrival ∧ b.start - spec.arrival ≤ bound) ∧
    (∀ (before middle after : List Slice) (a b : Slice),
      s.timeline.toList = before ++ a :: middle ++ b :: after →
      a.outcome = .ioYield → a.pid = b.pid → (∀ c ∈ middle, c.pid ≠ a.pid) →
      0 ≤ b.start - (a.stop + config.ioDuration) ∧
        b.start - (a.stop + config.ioDuration) ≤ bound) ∧
    ∀ i time, (s.process i).response = some time → 0 ≤ time ∧ time ≤ bound := by
  intro s bound
  obtain ⟨t, h, hconfig, htimeline, -, -⟩ := w.exists_attended config k
  have hbound : bound = config.longest - 1 + ((w.size : Int) - 1) * config.baseQuantum := by
    rw [Config.longest_eq]
  rw [show s.timeline = t.timeline from htimeline]
  refine ⟨?_, ?_, ?_⟩
  · intro before after b hslices hfirst
    obtain ⟨i, hpid, harrival, hstart⟩ := h.first_served hslices hfirst
    rw [hconfig] at hstart
    exact ⟨w.spec i, mem_specs.mpr ⟨i, rfl⟩, hpid, by omega, by omega⟩
  · intro before middle after a b hslices hyield hpid hnext
    have hstart := h.next_served hslices hpid hnext
    simp only [hyield, if_true, reduceCtorEq, if_false] at hstart
    rw [hconfig] at hstart
    omega
  · intro i time hresponse
    obtain ⟨start, hrun, rfl⟩ := Option.map_eq_some_iff.mp hresponse
    have hresponsive := w.responsive_afterSteps config k i start hrun
    rw [config_afterSteps] at hresponsive
    rw [spec_afterSteps k i]
    omega

end Workload

end FeedbackQueue
