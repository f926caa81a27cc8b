import FeedbackQueue.Proofs.Scheduler.Waiting

/-!
# When boosts fire

Two boosts are at least an interval apart, however a scheduler is driven, because the
timer counts from when it last fired. When a workload is stepped, no boost is overdue when
a slice starts, so a boost is late by no more than the slice that runs meanwhile, unless
the clock jumps over its time while nobody is ready.
-/

namespace FeedbackQueue

open Relation (ReflTransGen)

-- ---------------------------------------------------------------------------
-- Boosts in a log
-- ---------------------------------------------------------------------------

/-- The time of the latest boost, unless the CPU has been idle since. -/
def busySince (entries : List Entry) : Option Int :=
  entries.foldl (fun since e =>
    if e.kind = .boost then some e.time else if e.kind = .idle then none else since) none

variable {entries new : List Entry} {e : Entry}

theorem busySince_concat_boost (h : e.kind = .boost) :
    busySince (entries ++ [e]) = some e.time := by
  simp [busySince, h]

theorem busySince_concat_idle (h : e.kind = .idle) : busySince (entries ++ [e]) = none := by
  simp [busySince, h]

theorem busySince_append_of_quiet (h : ∀ e ∈ new, e.kind ≠ .boost ∧ e.kind ≠ .idle) :
    busySince (entries ++ new) = busySince entries := by
  induction new generalizing entries with
  | nil => rw [List.append_nil]
  | cons e rest ih =>
    obtain ⟨hboost, hidle⟩ := h e (by simp)
    rw [List.append_cons, ih fun e he => h e (by simp [he])]
    simp [busySince, hboost, hidle]

/-- While the CPU is busy, boosts follow each other within a time. -/
def Prompt (bound : Int) (entries : List Entry) : Prop :=
  ∀ before e after, entries = before ++ e :: after → e.kind = .boost →
    ∀ time, busySince before = some time → e.time ≤ time + bound

theorem Prompt.concat_boost (h : Prompt bound entries)
    (he : ∀ time, busySince entries = some time → e.time ≤ time + bound) :
    Prompt bound (entries ++ [e]) := by
  refine forall_split_concat (P := fun before e => e.kind = .boost →
    ∀ time, busySince before = some time → e.time ≤ time + bound) ?_ fun _ => he
  exact h

theorem Prompt.append_of_ne (h : Prompt bound entries) (hnew : ∀ e ∈ new, e.kind ≠ .boost) :
    Prompt bound (entries ++ new) := by
  intro before e after heq he
  rcases append_eq_append_cons heq with ⟨tail, htail⟩ | ⟨ahead, -, rfl⟩
  · exact h before e tail htail he
  · exact absurd he (hnew e (by simp))

namespace Scheduler

variable {s t : Scheduler n} {policy : SlicePolicy n}

-- ---------------------------------------------------------------------------
-- An interval apart
-- ---------------------------------------------------------------------------

def boostTimes (s : Scheduler n) : List Int := (s.log.ofKind .boost).map Entry.time

/-- The boosts, with the start of time before them, are an interval apart, and the timer
remembers the last one and their number. -/
structure Spaced (s : Scheduler n) : Prop where
  apart : (0 :: s.boostTimes).IsChain fun a b => a + s.config.boostInterval ≤ b
  last : (0 :: s.boostTimes).getLast? = some s.booster.last
  last_le : s.booster.last ≤ s.clock
  count : s.booster.count = s.boostTimes.length
  count_mul_le : s.booster.count * s.config.boostInterval ≤ s.booster.last

namespace Spaced

theorem congr (h : s.Spaced) (hconfig : t.config = s.config) (hbooster : t.booster = s.booster)
    (hclock : s.clock ≤ t.clock) (hlog : t.log.ofKind .boost = s.log.ofKind .boost) :
    t.Spaced := by
  have htimes : t.boostTimes = s.boostTimes := congrArg (List.map Entry.time) hlog
  constructor
  · rw [htimes, hconfig]
    exact h.apart
  · rw [htimes, hbooster]
    exact h.last
  · rw [hbooster]
    exact Int.le_trans h.last_le hclock
  · rw [htimes, hbooster]
    exact h.count
  · rw [hbooster, hconfig]
    exact h.count_mul_le

theorem boosted (hs : s.Sound) (h : s.Spaced) (hdue : s.booster.due s.clock) :
    s.boosted.Spaced := by
  have hlate : s.booster.last + s.config.boostInterval ≤ s.clock := by
    rw [← hs.interval]
    simp only [Booster.due, decide_eq_true_eq] at hdue
    omega
  have htimes : 0 :: s.boosted.boostTimes = (0 :: s.boostTimes) ++ [s.clock] := by
    rw [boostTimes, Scheduler.boosted, ofKind_push, if_pos (by rfl), List.map_append]
    rfl
  have hcount : s.boosted.booster.count = s.booster.count + 1 := rfl
  constructor
  · rw [htimes]
    refine h.apart.append (List.isChain_singleton _) ?_
    rw [h.last]
    simpa using hlate
  · rw [htimes, List.getLast?_append]
    rfl
  · exact Int.le_refl _
  · have hlength := congrArg List.length htimes
    simp only [List.length_append, List.length_cons, List.length_nil] at hlength
    rw [hcount, h.count]
    omega
  · rw [hcount, Nat.cast_succ, Int.add_mul, Int.one_mul]
    exact Int.le_trans (Int.add_le_add_right h.count_mul_le _) hlate

theorem of_move (hs : s.Sound) (h : s.Spaced) (hmove : Move policy s t) : t.Spaced := by
  cases hmove with
  | @enter _ _ i _ _ =>
    refine h.congr rfl rfl (Int.le_refl _) ?_
    rw [admitted, ofKind_push, if_neg]
    rcases kind_admission (s.process i) s.clock with hkind | hkind <;> simp [hkind]
  | boost hdue => exact h.boosted hs hdue
  | dispatch _ => exact h.congr rfl rfl (Int.le_refl _) (ofKind_dispatched (.inl rfl))
  | execute _ _ h0 _ =>
    exact h.congr rfl rfl (Int.le_add_of_nonneg_right h0) (ofKind_ran (.inl rfl))
  | idle _ => exact h.congr rfl rfl (Int.le_max_right _ _) boosts_idled
  | stall _ => exact h.congr rfl rfl (Int.le_refl _) ofKind_push

theorem of_cut (h : s.Spaced) (hcut : Cut policy s t) : t.Spaced := by
  cases hcut with
  | enter _ _ _ => exact h.congr rfl rfl (Int.le_refl _) rfl
  | dispatch _ _ => exact h.congr rfl rfl (Int.le_refl _) rfl
  | execute _ _ h0 _ _ => exact h.congr rfl rfl (Int.le_add_of_nonneg_right h0) rfl

end Spaced

-- ---------------------------------------------------------------------------
-- Never overdue
-- ---------------------------------------------------------------------------

/-- No slice started when a boost was overdue, and as long as the CPU is busy, no more than
one slice may have made the next boost late. -/
structure Punctual (s : Scheduler n) : Prop extends s.Levelled where
  intime : ∀ b ∈ s.timeline.toList, s.log.lastBoost b.start ≤ b.start ∧
    b.start < s.log.lastBoost b.start + s.config.boostInterval
  busy : ∀ time, busySince s.log.toList = some time → time = s.booster.last ∧
    s.clock ≤ time + (s.config.boostInterval - 1 + s.config.longest)
  prompt : Prompt (s.config.boostInterval - 1 + s.config.longest) s.log.toList

namespace Punctual

theorem admits (h : s.Punctual) (ht : s.Admits l t) : t.Punctual := by
  obtain ⟨new, hnew, hkind⟩ := ht.log
  have hquiet : ∀ e ∈ new, e.kind ≠ .boost ∧ e.kind ≠ .idle := by
    intro e he
    rcases hkind e he with h' | h' <;> simp [h']
  have hboosts : t.log.ofKind .boost = s.log.ofKind .boost := ht.ofKind_eq (by decide) (by decide)
  have hrest := ht.rest
  refine ⟨h.toLevelled.admits ht, ?_, ?_, ?_⟩
  · simp only [Log.lastBoost_congr hboosts]
    rw [hrest]
    exact h.intime
  · rw [hnew, busySince_append_of_quiet hquiet, hrest]
    exact h.busy
  · rw [hnew, hrest]
    exact h.prompt.append_of_ne fun e he => (hquiet e he).1

theorem boosted (hs : s.Sound) (hfree : ∀ i, (s.process i).phase ≠ .running) (h : s.Punctual) :
    s.boosted.Punctual := by
  have hinterval := s.config.boostInterval_pos
  have hlongest := s.config.longest_pos
  have hlog : s.boosted.log.toList =
      s.log.toList ++ [.boost s.clock s.bank.belowTop.length] := Array.toList_push
  refine ⟨h.toLevelled.boosted hs hfree, ?_, ?_, ?_⟩
  · intro b hb
    -- A slice that ends when the boost fires started before it.
    obtain ⟨before, after, heq⟩ := List.append_of_mem hb
    have hstart : b.start < b.stop := (h.level before b after heq).1
    have hstop : b.stop ≤ s.clock := h.stop_le b hb
    rw [show s.boosted.log.lastBoost b.start = _ from Log.lastBoost_push_boost,
      if_neg (Int.not_le.mpr (Int.lt_of_lt_of_le hstart hstop))]
    exact h.intime b hb
  · intro time htime
    rw [hlog, busySince_concat_boost (by rfl), Option.some.injEq] at htime
    subst htime
    refine ⟨rfl, ?_⟩
    show s.clock ≤ s.clock + (s.config.boostInterval - 1 + s.config.longest)
    omega
  · rw [hlog]
    exact h.prompt.concat_boost fun time htime => (h.busy time htime).2

theorem prepared (hs : s.AtRest policy) (h : s.Punctual) : s.prepared.Punctual := by
  cases hdue : s.booster.due s.clock with
  | true =>
    have hfree (i) : (s.arrived.process i).phase ≠ .running := by
      rw [process_arrived]
      split
      · simp
      · exact hs.free i
    rw [prepared_of_due hdue]
    exact (h.admits admits_arrived).boosted hs.sound.arrived hfree
  | false =>
    rw [prepared_of_not_due hdue]
    exact h.admits admits_arrived

theorem dispatched (hdequeue : s.bank.dequeue = some (i, rest)) (hs : s.Sound) (h : s.Punctual) :
    (s.dispatched i rest).Punctual := by
  have hlog : (s.dispatched i rest).log.toList = s.log.toList ++ [_] := Array.toList_push
  refine ⟨h.toLevelled.dispatched hdequeue hs, ?_, ?_, ?_⟩
  · simp only [Log.lastBoost_congr (ofKind_dispatched (.inl rfl) :
      (s.dispatched i rest).log.ofKind .boost = _)]
    exact h.intime
  · rw [hlog, busySince_append_of_quiet (by simp [Entry.dispatch])]
    exact h.busy
  · rw [hlog]
    exact h.prompt.append_of_ne (by simp [Entry.dispatch])

/-- A slice that starts in time makes the next boost late by itself at most. -/
theorem ran (hs : s.Sound) (hfresh : s.Fresh) (hrunning : (s.process i).phase = .running)
    (hintime : s.clock < s.booster.last + s.config.boostInterval) (h : s.Punctual) :
    (s.ran i (s.share i)).Punctual := by
  have hlog : (s.ran i (s.share i)).log.toList = s.log.toList ++ [_] := Array.toList_push
  have hquiet : ∀ e ∈ [((s.process i).ran (s.share i)).settlement s.config
      (s.slice i (s.share i)).stop (s.slice i (s.share i)).outcome],
      e.kind ≠ .boost ∧ e.kind ≠ .idle := by
    intro e he
    rw [List.mem_singleton.mp he]
    exact kind_settlement _
  refine ⟨h.toLevelled.ran hs hfresh hrunning, ?_, ?_, ?_⟩
  · intro b hb
    rw [Log.lastBoost_congr (ofKind_ran (.inl rfl) : (s.ran i (s.share i)).log.ofKind .boost = _)]
    rw [show (s.ran i (s.share i)).timeline.toList = _ from Array.toList_push, List.mem_append,
      List.mem_singleton] at hb
    rcases hb with hb | rfl
    · exact h.intime b hb
    · rw [show (s.slice i (s.share i)).start = s.clock from rfl, h.lastBoost s.clock h.last_le]
      exact ⟨h.last_le, hintime⟩
  · intro time htime
    rw [hlog, busySince_append_of_quiet hquiet] at htime
    obtain ⟨rfl, -⟩ := h.busy time htime
    have hquantum := share_le_quantum hfresh (Proc.completion_of_running hrunning)
    have hlongest := Config.quantum_le_longest (hs.level_le i)
    refine ⟨rfl, ?_⟩
    show s.clock + s.share i ≤ s.booster.last + (s.config.boostInterval - 1 + s.config.longest)
    omega
  · rw [hlog]
    exact h.prompt.append_of_ne fun e he => (hquiet e he).1

theorem idled (h : s.Punctual) : (s.idled target).Punctual := by
  have hlog : (s.idled target).log.toList =
      s.log.toList ++ [.idle s.clock (max target s.clock)] := Array.toList_push
  refine ⟨h.toLevelled.idled, ?_, ?_, ?_⟩
  · simp only [Log.lastBoost_congr (boosts_idled (s := s))]
    exact h.intime
  · intro time htime
    rw [hlog, busySince_concat_idle (by rfl)] at htime
    simp at htime
  · rw [hlog]
    exact h.prompt.append_of_ne (by simp [Entry.idle])

theorem of_round (hs : s.AtRest .standard) (h : s.Punctual) (hround : Round .standard s t) :
    t.Punctual := by
  cases hround with
  | idle _ _ => exact (h.prepared hs).idled
  | @slice i rest d hdequeue hd _ _ =>
    have hsound := hs.sound.prepared.dispatched hdequeue
    have hdispatched := (h.prepared hs).dispatched hdequeue hs.sound.prepared
    have hintime :
        s.prepared.clock < s.prepared.booster.last + s.prepared.config.boostInterval := by
      rw [clock_prepared, config_prepared]
      exact hs.sound.clock_lt_prepared
    rw [standard_eq hsound, Except.ok.injEq] at hd
    subst hd
    exact hdispatched.ran hsound (hs.fresh_dispatched hdequeue rfl) (running_dispatched hdequeue)
      hintime

theorem of_halt (hs : s.AtRest policy) (h : s.Punctual) (hhalt : s.Halt t) : t.Punctual := by
  have hlevelled := h.toLevelled.of_halt hs hhalt
  cases hhalt with
  | admission hcut => exact h.admits hcut.admits
  | dispatch _ _ =>
    have hprepared := h.prepared hs
    exact ⟨hlevelled, hprepared.intime, hprepared.busy, hprepared.prompt⟩
  | idle _ _ _ => exact h.prepared hs

end Punctual

end Scheduler

namespace Workload

open Scheduler

variable {w : Workload} {config : Config} {policy : SlicePolicy w.size}

theorem spaced_start : (w.start config).Spaced := by
  constructor
  · exact List.isChain_singleton 0
  · rfl
  · exact Int.le_refl 0
  · rfl
  · exact Int.le_of_eq (Int.zero_mul _)

theorem spaced_drive (calls : List (Scheduler.Call w.size)) :
    ((w.start config).drive policy calls).Spaced :=
  drive_induction spaced_start (fun _ _ hs h hmove => h.of_move hs hmove)
    (fun _ _ _ h hcut => h.of_cut hcut) calls

theorem spaced_afterSteps (k : Nat) : ((w.start config).afterSteps policy k).Spaced := by
  obtain ⟨calls, hcalls⟩ := (w.start config).exists_drive policy k
  exact hcalls ▸ spaced_drive calls

theorem punctual_start : (w.start config).Punctual := by
  refine ⟨levelled_start, nofun, nofun, ?_⟩
  intro before e after heq
  simp [start, Scheduler.start] at heq

theorem punctual_afterSteps (config : Config) (k : Nat) :
    ((w.start config).afterSteps .standard k).Punctual :=
  steps_induction .standard punctual_start (fun _ _ hs h hround => h.of_round hs hround)
    (fun _ _ hs h hhalt => h.of_halt hs hhalt) k

/-- Boosts are an interval apart, counted from time 0, so that their number is bounded by
the clock. No slice starts when one is overdue. Between two boosts that follow each other
without idling lies at most the time that a slice which starts just in time takes. -/
theorem boosts_timed (w : Workload) (config : Config) (k : Nat) :
    let s := (w.start config).afterSteps .standard k
    (∀ first ∈ s.boostTimes.head?, config.boostInterval ≤ first) ∧
    (∀ before a b after, s.boostTimes = before ++ a :: b :: after →
      a + config.boostInterval ≤ b) ∧
    s.booster.count = s.boostTimes.length ∧
    s.booster.last = s.boostTimes.getLast?.getD 0 ∧
    s.booster.count * config.boostInterval ≤ s.booster.last ∧ s.booster.last ≤ s.clock ∧
    (∀ b ∈ s.timeline.toList, 0 ≤ b.start - s.log.lastBoost b.start ∧
      b.start - s.log.lastBoost b.start < config.boostInterval) ∧
    ∀ (before middle after : List Entry) (e e' : Entry),
      s.log.toList = before ++ e :: middle ++ e' :: after → e.kind = .boost → e'.kind = .boost →
        (∀ x ∈ middle, x.kind ≠ .boost ∧ x.kind ≠ .idle) →
          e'.time - e.time ≤
            config.boostInterval - 1 + config.baseQuantum * 2 ^ (config.numQueues - 1) := by
  intro s
  have hspaced : s.Spaced := spaced_afterSteps k
  have hpunctual : s.Punctual := punctual_afterSteps config k
  have hconfig : s.config = config := config_afterSteps k
  have hapart := List.isChain_iff_forall_rel_of_append_cons_cons.mp hspaced.apart
  rw [← Config.longest_eq, ← hconfig]
  refine ⟨?_, ?_, hspaced.count, ?_, hspaced.count_mul_le, hspaced.last_le, ?_, ?_⟩
  · intro first hfirst
    obtain ⟨rest, htimes⟩ := List.head?_eq_some_iff.mp hfirst
    have hle := @hapart 0 first [] rest (congrArg (0 :: ·) htimes)
    rwa [Int.zero_add] at hle
  · intro before a b after htimes
    exact @hapart a b (0 :: before) after (congrArg (0 :: ·) htimes)
  · have hlast := hspaced.last
    rw [List.getLast?_cons, Option.some.injEq] at hlast
    exact hlast.symm
  · intro b hb
    obtain ⟨hle, hlt⟩ := hpunctual.intime b hb
    exact ⟨Int.sub_nonneg_of_le hle, Int.sub_left_lt_of_lt_add hlt⟩
  · intro before middle after e e' heq he he' hmiddle
    have hsince : busySince (before ++ e :: middle) = some e.time := by
      rw [List.append_cons, busySince_append_of_quiet hmiddle, busySince_concat_boost he]
    have hle := hpunctual.prompt _ e' after heq he' e.time hsince
    exact Int.sub_left_le_of_le_add hle

end Workload

end FeedbackQueue
