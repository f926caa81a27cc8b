import FeedbackQueue.Proofs.Scheduler.History

/-!
# Levels are history

Under the standard policy the level of a process is a function of the past: it is the
number of demotions since the last boost, or the lowest level if that is less. What
makes this true is that a boost misses nobody, since a process that is in no queue
between two steps has the top level anyway.
-/

namespace FeedbackQueue

variable {slices : List Slice} {b : Slice} {pid since : Int}

/-- How often a process was demoted after a time. -/
def demotions (slices : List Slice) (pid since : Int) : Nat :=
  slices.countP fun b => b.pid = pid ∧ b.outcome = .demoted ∧ since < b.stop

theorem demotions_concat (slices : List Slice) (hpid : b.pid = pid) (hstop : since < b.stop) :
    demotions (slices ++ [b]) pid since =
      demotions slices pid since + if b.outcome = .demoted then 1 else 0 := by
  simp [demotions, List.countP_append, List.countP_singleton, hpid, hstop]

theorem demotions_concat_of_ne (hpid : b.pid ≠ pid) :
    demotions (slices ++ [b]) pid since = demotions slices pid since := by
  simp [demotions, List.countP_append, hpid]

theorem demotions_eq_zero (h : ∀ b ∈ slices, b.stop ≤ since) : demotions slices pid since = 0 := by
  rw [demotions, List.countP_eq_zero]
  intro b hb
  have hle := h b hb
  simp
  omega

/-- The time of the latest boost up to a time, 0 if there is none. -/
def Log.lastBoost (log : Log) (time : Int) : Int :=
  (((log.ofKind .boost).map (·.time)).filter (· ≤ time)).foldl max 0

theorem Log.lastBoost_congr {log log' : Log} (h : log'.ofKind .boost = log.ofKind .boost) :
    log'.lastBoost time = log.lastBoost time := by
  rw [lastBoost, h, lastBoost]

theorem Log.lastBoost_eq_of_none {log : Log} (hle : time ≤ later)
    (hnone : ∀ e ∈ log.ofKind .boost, time < e.time → later < e.time) :
    log.lastBoost later = log.lastBoost time := by
  unfold lastBoost
  congr 1
  refine List.filter_congr fun x hx => decide_eq_decide.mpr ?_
  obtain ⟨e, he, rfl⟩ := List.mem_map.mp hx
  have hafter := hnone e he
  omega

theorem Log.lastBoost_push_boost {log : Log} : Log.lastBoost (log.push (.boost now moved)) time =
    if now ≤ time then max (log.lastBoost time) now else log.lastBoost time := by
  rw [lastBoost, Scheduler.ofKind_push, if_pos (by rfl), lastBoost]
  by_cases h : now ≤ time <;> simp [Entry.boost, h]

-- ---------------------------------------------------------------------------
-- Who may leave the top level
-- ---------------------------------------------------------------------------

/-- Where the top level is the only one possible: before the arrival, and for a
process that gives up the CPU early and is never demoted. -/
structure Proc.Anchored (config : Config) (p : Proc) : Prop where
  new : p.phase = .new → p.level = 0
  yielding : p.spec.ioBound → config.ioSliceDivisor ≠ 1 → p.level = 0
  waiting : p.phase = .waiting t → p.spec.ioBound ∧ config.ioSliceDivisor ≠ 1

namespace Proc.Anchored

variable {p : Proc} {config : Config}

theorem ofSpec (spec : Spec) : (Proc.ofSpec spec).Anchored config :=
  ⟨fun _ => rfl, fun _ _ => rfl, nofun⟩

/-- A process that has not completed and is in no queue has the top level. -/
theorem level_eq_zero (hp : p.Anchored config) (hlive : p.completion = none)
    (hready : p.phase ≠ .ready) (hrunning : p.phase ≠ .running) : p.level = 0 := by
  cases hphase : p.phase with
  | new => exact hp.new hphase
  | ready => exact absurd hphase hready
  | running => exact absurd hphase hrunning
  | waiting time =>
    obtain ⟨hio, hdivisor⟩ := hp.waiting hphase
    exact hp.yielding hio hdivisor
  | terminated time => simp [completion, hphase] at hlive

theorem level_admitted (hp : p.Anchored config) : p.admitted.level = p.level := by
  unfold Proc.admitted
  split
  · exact (hp.new ‹_›).symm
  · rfl

theorem admitted (hp : p.Anchored config) : p.admitted.Anchored config := by
  refine ⟨by simp, ?_, by simp⟩
  rw [hp.level_admitted, spec_admitted]
  exact hp.yielding

theorem raise (hp : p.Anchored config) : p.raise.Anchored config :=
  ⟨fun _ => rfl, fun _ _ => rfl, hp.waiting⟩

theorem dispatched (hp : p.Anchored config) : (p.dispatched now).Anchored config :=
  ⟨nofun, hp.yielding, nofun⟩

/-- The outcome is that of a slice of the standard policy. -/
theorem settled [Decidable completed] (hp : p.Anchored config) (ho : o =
      if completed then Outcome.completed
      else if p.spec.ioBound ∧ config.ioSliceDivisor ≠ 1 then .ioYield else .demoted) :
    (p.settled config now o).Anchored config := by
  split at ho
  · subst ho
    exact ⟨nofun, hp.yielding, nofun⟩
  · split at ho
    · subst ho
      exact ⟨nofun, hp.yielding, fun _ => ‹_›⟩
    · subst ho
      exact ⟨nofun, fun hio hdivisor => absurd (And.intro hio hdivisor) ‹_›, nofun⟩

end Proc.Anchored

-- ---------------------------------------------------------------------------
-- One process and the slices so far
-- ---------------------------------------------------------------------------

/-- Until it completes, the level of a process is the number of its demotions after a
time, or the lowest level if that is less. -/
structure Proc.Placed (config : Config) (slices : List Slice) (since : Int) (p : Proc) : Prop
    extends p.Anchored config where
  level : p.completion = none →
    p.level = min config.lowestLevel (demotions slices p.pid since)

namespace Proc.Placed

variable {p : Proc} {config : Config}

theorem admitted (hp : p.Placed config slices since) (h : p.due? = some time) :
    p.admitted.Placed config slices since := by
  refine ⟨hp.toAnchored.admitted, fun _ => ?_⟩
  rw [hp.level_admitted, pid, spec_admitted]
  exact hp.level (completion_of_due h)

theorem dispatched (hp : p.Placed config slices since) (h : p.phase = .ready) :
    (p.dispatched now).Placed config slices since :=
  ⟨hp.toAnchored.dispatched, fun _ => hp.level (completion_of_ready h)⟩

/-- The count starts anew with a boost, which must leave everybody at the top. -/
theorem restart (hp : p.Anchored config) (hstop : ∀ b ∈ slices, b.stop ≤ now)
    (htop : p.completion = none → p.level = 0) : p.Placed config slices now := by
  refine ⟨hp, fun hlive => ?_⟩
  rw [demotions_eq_zero hstop, Nat.min_zero]
  exact htop hlive

theorem concat_of_ne (hp : p.Placed config slices since) (hpid : b.pid ≠ p.pid) :
    p.Placed config (slices ++ [b]) since := by
  refine ⟨hp.toAnchored, fun hlive => ?_⟩
  rw [demotions_concat_of_ne hpid]
  exact hp.level hlive

theorem ran (hp : p.Placed config slices since) : (p.ran d).Placed config slices since :=
  ⟨⟨hp.new, hp.yielding, hp.waiting⟩, hp.level⟩

/-- The process has just run the slice. -/
theorem settled [Decidable completed] (hp : p.Placed config slices since)
    (hlive : p.completion = none) (hle : p.level ≤ config.lowestLevel) (hpid : b.pid = p.pid)
    (hstop : since < b.stop) (ho : b.outcome =
      if completed then Outcome.completed
      else if p.spec.ioBound ∧ config.ioSliceDivisor ≠ 1 then .ioYield else .demoted) :
    (p.settled config now b.outcome).Placed config (slices ++ [b]) since := by
  refine ⟨hp.toAnchored.settled ho, fun hafter => ?_⟩
  have hlevel := hp.level hlive
  have hcount := demotions_concat slices hpid hstop
  rw [pid, spec_settled, ← pid, hcount]
  cases hb : b.outcome with
  | completed => simp [hb, Proc.settled, completion] at hafter
  | demoted =>
    rw [if_pos rfl]
    show min (p.level + 1) config.lowestLevel = _
    omega
  | _ =>
    rw [if_neg (by intro h; cases h)]
    exact hlevel

end Proc.Placed

namespace Scheduler

variable {s t : Scheduler n} {policy : SlicePolicy n}

-- ---------------------------------------------------------------------------
-- The recorded slices and boosts
-- ---------------------------------------------------------------------------

/-- Boosts and slices follow each other in time, and every slice was recorded with the
level that its past says. -/
structure Recorded (s : Scheduler n) : Prop where
  last_le : s.booster.last ≤ s.clock
  stop_le : ∀ b ∈ s.timeline.toList, b.stop ≤ s.clock
  /-- No boost was recorded after the one the timer remembers. -/
  lastBoost : ∀ time, s.booster.last ≤ time → s.log.lastBoost time = s.booster.last
  level : ∀ before b after, s.timeline.toList = before ++ b :: after →
    b.start < b.stop ∧ (∀ a ∈ before, a.stop ≤ b.start) ∧
      b.level = min s.config.lowestLevel (demotions before b.pid (s.log.lastBoost b.start))

namespace Recorded

/-- The clock may go on as long as nothing else is recorded. -/
theorem congr (h : s.Recorded) (hconfig : t.config = s.config) (hbooster : t.booster = s.booster)
    (htimeline : t.timeline = s.timeline) (hclock : s.clock ≤ t.clock)
    (hlog : t.log.ofKind .boost = s.log.ofKind .boost) : t.Recorded := by
  have hlast (time) : t.log.lastBoost time = s.log.lastBoost time := Log.lastBoost_congr hlog
  constructor
  · rw [hbooster]
    exact Int.le_trans h.last_le hclock
  · rw [htimeline]
    exact fun b hb => Int.le_trans (h.stop_le b hb) hclock
  · simpa only [hbooster, hlast] using h.lastBoost
  · simpa only [htimeline, hconfig, hlast] using h.level

theorem boosted (h : s.Recorded) : s.boosted.Recorded := by
  have hlog (time) : s.boosted.log.lastBoost time =
      if s.clock ≤ time then max (s.log.lastBoost time) s.clock else s.log.lastBoost time :=
    Log.lastBoost_push_boost
  constructor
  · exact Int.le_refl s.clock
  · exact h.stop_le
  · intro time hle
    have hclock : s.clock ≤ time := hle
    have hlast := h.last_le
    rw [hlog, if_pos hclock, h.lastBoost time (by omega)]
    exact Int.max_eq_right hlast
  · intro before b after heq
    -- A slice that ends when the boost fires started before it.
    obtain ⟨hlt, hbefore, hlevel⟩ := h.level before b after heq
    have hstop : b.stop ≤ s.clock := h.stop_le b (by rw [show s.timeline.toList = _ from heq]; simp)
    rw [hlog, if_neg (by omega)]
    exact ⟨hlt, hbefore, hlevel⟩

theorem ran (h : s.Recorded) (hpos : 0 < d) (hlevel : (s.process i).level =
      min s.config.lowestLevel
        (demotions s.timeline.toList (s.process i).pid s.booster.last)) :
    (s.ran i d).Recorded := by
  have hlog (time) : (s.ran i d).log.lastBoost time = s.log.lastBoost time :=
    Log.lastBoost_congr (ofKind_ran (.inl rfl))
  have htimeline : (s.ran i d).timeline.toList = s.timeline.toList ++ [s.slice i d] :=
    Array.toList_push
  have hclock : (s.ran i d).clock = s.clock + d := rfl
  constructor
  · rw [hclock]
    exact Int.le_trans h.last_le (by omega)
  · intro b hb
    rw [htimeline, List.mem_append, List.mem_singleton] at hb
    rcases hb with hb | rfl
    · have hstop := h.stop_le b hb
      omega
    · exact Int.le_refl _
  · intro time hle
    rw [hlog]
    exact h.lastBoost time hle
  · rw [htimeline]
    refine forall_split_concat ?_ ⟨?_, h.stop_le, ?_⟩
    · intro before b after heq
      rw [hlog]
      exact h.level before b after heq
    · show s.clock < s.clock + d
      omega
    · rw [hlog]
      exact (h.lastBoost s.clock h.last_le).symm ▸ hlevel

end Recorded

-- ---------------------------------------------------------------------------
-- The law
-- ---------------------------------------------------------------------------

structure Levelled (s : Scheduler n) : Prop extends s.Recorded where
  placed : ∀ i, (s.process i).Placed s.config s.timeline.toList s.booster.last

namespace Levelled

theorem admits (h : s.Levelled) (ht : s.Admits l t) : t.Levelled := by
  have hboosts : t.log.ofKind .boost = s.log.ofKind .boost := ht.ofKind_eq (by decide) (by decide)
  have hprocess := ht.process
  rw [ht.rest] at hboosts hprocess ⊢
  refine ⟨h.toRecorded.congr rfl rfl rfl (Int.le_refl _) hboosts, fun i => ?_⟩
  rw [hprocess]
  split
  · obtain ⟨time, htime, -⟩ := Proc.dueBy_iff.mp (ht.due i ‹_›)
    exact (h.placed i).admitted htime
  · exact h.placed i

theorem arrived (h : s.Levelled) : s.arrived.Levelled := h.admits admits_arrived

/-- A boost between two steps finds nobody below the top level but in the queues. -/
theorem boosted (hs : s.Sound) (hfree : ∀ i, (s.process i).phase ≠ .running) (h : s.Levelled) :
    s.boosted.Levelled := by
  refine ⟨h.toRecorded.boosted, fun i => ?_⟩
  rw [process_boosted]
  split
  · exact .restart (h.placed i).raise h.stop_le fun _ => rfl
  · refine .restart (h.placed i).toAnchored h.stop_le fun hlive => ?_
    by_cases hready : (s.process i).phase = .ready
    · have hbelow := mt hs.bank.mem_belowTop.mpr ‹¬ _›
      exact Decidable.not_not.mp fun hlevel => hbelow ⟨hready, hlevel⟩
    · exact (h.placed i).level_eq_zero hlive hready (hfree i)

theorem dispatched (hdequeue : s.bank.dequeue = some (i, rest)) (hs : s.Sound) (h : s.Levelled) :
    (s.dispatched i rest).Levelled := by
  refine ⟨h.toRecorded.congr rfl rfl rfl (Int.le_refl _) (ofKind_dispatched (.inl rfl)),
    fun j => ?_⟩
  rw [process_dispatched hdequeue]
  split
  · exact (h.placed i).dispatched (hs.head_ready hdequeue)
  · exact h.placed j

theorem idled (h : s.Levelled) : (s.idled target).Levelled :=
  ⟨h.toRecorded.congr rfl rfl rfl (Int.le_max_right target s.clock) boosts_idled, h.placed⟩

theorem ran (hs : s.Sound) (hfresh : s.Fresh) (hrunning : (s.process i).phase = .running)
    (h : s.Levelled) : (s.ran i (s.share i)).Levelled := by
  have hlive := Proc.completion_of_running hrunning
  have hpos := share_pos hs hfresh hlive
  refine ⟨h.toRecorded.ran hpos ((h.placed i).level hlive), fun j => ?_⟩
  rw [process_ran, show (s.ran i (s.share i)).timeline.toList = _ from Array.toList_push]
  split
  · refine (h.placed i).ran.settled hlive (hs.level_le i) rfl ?_ (outcome_share hfresh hlive)
    exact Int.lt_of_le_of_lt h.last_le (Int.lt_add_of_pos_right s.clock hpos)
  · exact (h.placed j).concat_of_ne fun heq => ‹¬ j = i› (hs.bank.distinct heq.symm)

theorem prepared (hs : s.AtRest policy) (h : s.Levelled) : s.prepared.Levelled := by
  cases hdue : s.booster.due s.clock with
  | true =>
    have hfree (i) : (s.arrived.process i).phase ≠ .running := by
      rw [process_arrived]
      split
      · simp
      · exact hs.free i
    rw [prepared_of_due hdue]
    exact h.arrived.boosted hs.sound.arrived hfree
  | false =>
    rw [prepared_of_not_due hdue]
    exact h.arrived

theorem of_round (hs : s.AtRest .standard) (h : s.Levelled) (hround : Round .standard s t) :
    t.Levelled := by
  cases hround with
  | idle _ _ => exact (h.prepared hs).idled
  | slice hdequeue hd _ _ =>
    have hsound := hs.sound.prepared.dispatched hdequeue
    have hdispatched := (h.prepared hs).dispatched hdequeue hs.sound.prepared
    rw [standard_eq hsound, Except.ok.injEq] at hd
    subst hd
    exact hdispatched.ran hsound (hs.fresh_dispatched hdequeue rfl) (running_dispatched hdequeue)

theorem unrecorded (h : t.Levelled) (htimeline : s.timeline = t.timeline)
    (hlog : s.log.ofKind .boost = t.log.ofKind .boost) : (t.unrecorded s).Levelled := by
  refine ⟨h.toRecorded.congr rfl rfl htimeline (Int.le_refl _) hlog, fun i => ?_⟩
  rw [process_unrecorded, show (t.unrecorded s).timeline = t.timeline from htimeline]
  exact h.placed i

theorem of_halt (hs : s.AtRest policy) (h : s.Levelled) (hhalt : s.Halt t) : t.Levelled := by
  cases hhalt with
  | admission hcut => exact h.admits hcut.admits
  | dispatch hdequeue _ =>
    have hdispatched := (h.prepared hs).dispatched hdequeue hs.sound.prepared
    exact hdispatched.unrecorded rfl (ofKind_dispatched (.inl rfl)).symm
  | idle _ _ _ => exact h.prepared hs

end Levelled

-- ---------------------------------------------------------------------------
-- Going up
-- ---------------------------------------------------------------------------

/-- If a later slice of a process has a higher priority, a boost lies between. -/
theorem Levelled.exists_boost {before middle after : List Slice} {a b : Slice} (h : s.Levelled)
    (heq : s.timeline.toList = before ++ a :: middle ++ b :: after) (hpid : a.pid = b.pid)
    (hlt : b.level < a.level) :
    ∃ e ∈ s.log.ofKind .boost, a.start < e.time ∧ e.time ≤ b.start := by
  obtain ⟨hstart, -, hearlier⟩ := h.level before a (middle ++ b :: after) (by simpa using heq)
  obtain ⟨-, hbefore, hlater⟩ := h.level (before ++ a :: middle) b after heq
  have hstop := hbefore a (by simp)
  refine Decidable.byContradiction fun hnone => ?_
  simp only [not_exists, not_and, Int.not_le] at hnone
  -- The two slices look back to the same boost, and the later one sees more slices.
  have hsame : s.log.lastBoost b.start = s.log.lastBoost a.start :=
    Log.lastBoost_eq_of_none (by omega) hnone
  have hcount : demotions before a.pid (s.log.lastBoost a.start) ≤
      demotions (before ++ a :: middle) b.pid (s.log.lastBoost b.start) := by
    rw [hsame, hpid, demotions, demotions, List.countP_append]
    exact Nat.le_add_right _ _
  omega

/-- A boost has fired, or no process has a higher priority than before. -/
def Descends (s t : Scheduler n) : Prop :=
  s.booster.count ≤ t.booster.count ∧
    (s.booster.count = t.booster.count → ∀ i, (s.process i).level ≤ (t.process i).level)

theorem Descends.refl (s : Scheduler n) : s.Descends s :=
  ⟨Nat.le_refl _, fun _ _ => Nat.le_refl _⟩

theorem Descends.trans {u : Scheduler n} (h : s.Descends t) (h' : t.Descends u) :
    s.Descends u := by
  obtain ⟨hcount, hlevel⟩ := h
  obtain ⟨hcount', hlevel'⟩ := h'
  refine ⟨Nat.le_trans hcount hcount', fun heq i => ?_⟩
  exact Nat.le_trans (hlevel (by omega) i) (hlevel' (by omega) i)

theorem Admits.descends (ht : s.Admits l t) (h : s.Levelled) : s.Descends t := by
  have hprocess := ht.process
  rw [ht.rest] at hprocess ⊢
  refine ⟨Nat.le_refl _, fun _ i => ?_⟩
  rw [hprocess]
  split
  · exact Nat.le_of_eq (h.placed i).level_admitted.symm
  · exact Nat.le_refl _

theorem descends_prepared (h : s.Levelled) : s.Descends s.prepared := by
  cases hdue : s.booster.due s.clock with
  | true =>
    have hcount : s.prepared.booster.count = s.booster.count + 1 := by
      rw [prepared_of_due hdue, boosted, Booster.fire, booster_arrived]
    exact ⟨by omega, by omega⟩
  | false => exact prepared_of_not_due hdue ▸ admits_arrived.descends h

theorem Halt.descends (h : s.Levelled) (hhalt : s.Halt t) : s.Descends t := by
  have hprepared := descends_prepared h
  cases hhalt with
  | admission hcut => exact hcut.admits.descends h
  | dispatch hdequeue _ =>
    refine ⟨hprepared.1, fun hcount j => Nat.le_trans (hprepared.2 hcount j) ?_⟩
    rw [process_unrecorded, apply_dispatched Proc.level hdequeue fun _ _ => rfl]
  | idle _ _ _ => exact hprepared

theorem Round.descends (hs : s.AtRest policy) (h : s.Levelled) (hround : Round policy s t) :
    s.Descends t := by
  have hprepared := descends_prepared h
  cases hround with
  | idle _ _ => exact hprepared
  | @slice i rest d hdequeue _ _ _ =>
    refine ⟨hprepared.1, fun hcount j => Nat.le_trans (hprepared.2 hcount j) ?_⟩
    rw [process_ran, ← apply_dispatched Proc.level hdequeue fun _ _ => rfl]
    split
    · subst j
      have hle : ((s.prepared.dispatched i rest).process i).level ≤ _ :=
        (hs.sound.prepared.dispatched hdequeue).level_le i
      unfold processAfter
      cases ((s.prepared.dispatched i rest).slice i d).outcome with
      | demoted => exact Nat.le_min.mpr ⟨Nat.le_succ _, hle⟩
      | _ => exact Nat.le_refl _
    · exact Nat.le_refl _

end Scheduler

namespace Workload

open Scheduler

variable {w : Workload} {config : Config}

theorem levelled_start : (w.start config).Levelled := by
  refine ⟨⟨?_, ?_, ?_, ?_⟩, ?_⟩
  · exact Int.le_refl 0
  · exact nofun
  · intro time hle
    rfl
  · intro before b after heq
    simp [start, Scheduler.start] at heq
  · intro i
    rw [process_start]
    exact ⟨.ofSpec _, fun _ => (Nat.min_zero _).symm⟩

theorem levelled_afterSteps (config : Config) (k : Nat) :
    ((w.start config).afterSteps .standard k).Levelled :=
  steps_induction .standard levelled_start (fun _ _ hs h hround => h.of_round hs hround)
    (fun _ _ hs h hhalt => h.of_halt hs hhalt) k

theorem descends_afterSteps (hjk : j ≤ k) :
    ((w.start config).afterSteps .standard j).Descends
      ((w.start config).afterSteps .standard k) := by
  induction hjk with
  | refl => exact .refl _
  | @step k _ ih =>
    have hlevelled := levelled_afterSteps (w := w) config k
    rcases atRest_start.afterSteps_cases .standard k with hsame | ⟨hs, ⟨-, hround⟩ | hhalt⟩
    · exact hsame ▸ ih
    · exact ih.trans (hround.descends hs hlevelled)
    · exact ih.trans (hhalt.descends hlevelled)

/-- The level of a process that has not completed, and the level recorded with a slice,
are the number of demotions since the latest boost, up to the lowest level. Levels go
down only across a boost. -/
theorem level_law (w : Workload) (config : Config) (k : Nat) :
    let s := (w.start config).afterSteps .standard k
    (∀ i, (∀ time, (s.process i).phase ≠ .terminated time) → (s.process i).level =
      min config.lowestLevel
        (demotions s.timeline.toList (s.process i).pid s.booster.last)) ∧
    s.booster.last = s.log.lastBoost s.clock ∧
    (∀ before b after, s.timeline.toList = before ++ b :: after → b.level =
      min config.lowestLevel (demotions before b.pid (s.log.lastBoost b.start))) ∧
    (∀ j ≤ k, ((w.start config).afterSteps .standard j).booster.count = s.booster.count →
      ∀ i, (((w.start config).afterSteps .standard j).process i).level ≤ (s.process i).level) ∧
    ∀ before a middle b after, s.timeline.toList = before ++ a :: middle ++ b :: after →
      a.pid = b.pid → b.level < a.level →
        ∃ e ∈ s.log.ofKind .boost, a.start < e.time ∧ e.time ≤ b.start := by
  intro s
  have hlevelled : s.Levelled := levelled_afterSteps config k
  have hconfig : s.config = config := config_afterSteps k
  refine ⟨?_, ?_, ?_, ?_, ?_⟩
  · intro i hlive
    rw [← hconfig]
    refine (hlevelled.placed i).level (Option.eq_none_iff_forall_ne_some.mpr fun time htime => ?_)
    obtain ⟨time', hphase⟩ := Proc.isSome_completion.mp (Option.isSome_of_eq_some htime)
    exact hlive time' hphase
  · exact (hlevelled.lastBoost s.clock hlevelled.last_le).symm
  · intro before b after heq
    rw [← hconfig]
    exact (hlevelled.level before b after heq).2.2
  · exact fun j hjk => (descends_afterSteps hjk).2
  · intro before a middle b after heq hpid hlt
    exact hlevelled.exists_boost heq hpid hlt

end Workload

end FeedbackQueue
