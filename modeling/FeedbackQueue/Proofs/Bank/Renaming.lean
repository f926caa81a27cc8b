import FeedbackQueue.Proofs.Bank.Laws

/-!
# Banks with the same queues

Two banks may know their processes by different slots. One is a renaming of the other
when each level holds the images of the same slots in the same order. Operations on a
slot of the one and its image in the other keep that, whatever the processes are.
-/

namespace FeedbackQueue

theorem Level.queued_eq_flatMap (levels : List (Level n)) :
    queued levels = (List.range levels.length).flatMap (queueAt levels) := by
  induction levels with
  | nil => rfl
  | cons l rest ih =>
    rw [queued_cons, ih, List.length_cons, List.range_succ_eq_map, List.flatMap_cons,
      List.flatMap_map]
    rfl

namespace Bank

/-- Each level of the second bank holds the images of what the level holds in the first. -/
structure Renamed (f : Fin n → Fin m) (b : Bank n) (c : Bank m) : Prop where
  length : c.levels.length = b.levels.length
  queueAt : ∀ k, c.queueAt k = (b.queueAt k).map f

namespace Renamed

variable {f : Fin n → Fin m} {b : Bank n} {c : Bank m}

theorem queued (h : b.Renamed f c) : c.queued = b.queued.map f := by
  have hqueueAt : Level.queueAt c.levels = fun k => (Level.queueAt b.levels k).map f :=
    funext h.queueAt
  rw [Bank.queued, Bank.queued, Level.queued_eq_flatMap, Level.queued_eq_flatMap, h.length,
    List.map_flatMap, hqueueAt]

theorem belowTop (h : b.Renamed f c) : c.belowTop = b.belowTop.map f := by
  have hqueued := h.queued
  rw [queued_eq_append, queued_eq_append, h.queueAt, List.map_append,
    List.append_cancel_left_eq] at hqueued
  exact hqueued

theorem put (h : b.Renamed f c) (hlevel : q.level = p.level) (hk : p.level < b.levels.length) :
    (b.put i p).Renamed f (c.put (f i) q) := by
  refine ⟨?_, fun k => ?_⟩
  · simpa [Bank.put] using h.length
  · have hb : (b.put i p).queueAt k = _ := Level.queueAt_push hk
    have hc : (c.put (f i) q).queueAt k = _ := Level.queueAt_push (hlevel ▸ h.length ▸ hk)
    have hqueue : Level.queueAt c.levels k = (Level.queueAt b.levels k).map f := h.queueAt k
    rw [hb, hc, hlevel, hqueue]
    split
    · rw [List.map_append]
      rfl
    · rfl

theorem setProcess (h : b.Renamed f c) : (b.setProcess i p).Renamed f (c.setProcess j q) :=
  ⟨h.length, h.queueAt⟩

theorem raiseAll (h : b.Renamed f c) : b.raiseAll.Renamed f c.raiseAll := by
  have hlength (l : Nat) (d : Bank l) : d.raiseAll.levels.length = d.levels.length := by
    simpa using congrArg List.length (quanta_raiseAll (b := d))
  refine ⟨?_, fun k => ?_⟩
  · rw [hlength, hlength]
    exact h.length
  · rw [queueAt_raiseAll, queueAt_raiseAll, h.queued]
    split <;> rfl

theorem dequeue_eq_none (h : b.Renamed f c) (hnone : b.dequeue = none) : c.dequeue = none := by
  rw [Bank.dequeue_eq_none] at hnone ⊢
  rw [h.queued, hnone, List.map_nil]

/-- The head of one bank is the image of the head of the other. -/
theorem dequeue_eq_some (h : b.Renamed f c) (hsome : b.dequeue = some (i, rest)) :
    ∃ rest', c.dequeue = some (f i, rest') ∧ rest.Renamed f rest' := by
  obtain ⟨-, -, hqueued, hquanta, k, hk, hbefore, hother⟩ := Bank.dequeue_eq_some hsome
  cases hdequeue : c.dequeue with
  | none =>
    have hnone := h.queued.symm.trans (Bank.dequeue_eq_none.mp hdequeue)
    simp [hqueued] at hnone
  | some head =>
    obtain ⟨j, rest'⟩ := head
    obtain ⟨-, -, -, hquanta', k', hk', hbefore', hother'⟩ := Bank.dequeue_eq_some hdequeue
    rw [h.queueAt] at hk'
    -- Both heads come from the first level that holds anything.
    have hlevel : k' = k := by
      rcases Nat.lt_trichotomy k' k with hlt | heq | hlt
      · simp [hbefore k' hlt] at hk'
      · exact heq
      · have hempty := hbefore' k hlt
        rw [h.queueAt, hk] at hempty
        simp at hempty
    subst hlevel
    rw [hk, List.map_cons, List.cons.injEq] at hk'
    obtain ⟨rfl, hrest⟩ := hk'
    refine ⟨rest', rfl, ?_, fun l => ?_⟩
    · have hlength : rest.levels.length = b.levels.length := by
        simpa using congrArg List.length hquanta
      have hlength' : rest'.levels.length = c.levels.length := by
        simpa using congrArg List.length hquanta'
      rw [hlength, hlength', h.length]
    · by_cases hl : l = k'
      · rw [hl, hrest]
      · rw [hother l hl, hother' l hl, h.queueAt]

end Renamed

end Bank

end FeedbackQueue
