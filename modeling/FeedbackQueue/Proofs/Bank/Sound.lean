import FeedbackQueue.Proofs.Bank.Laws

/-!
# Sound banks

The process table, the queues and the set of waiting pids are three records of
who waits. A bank is sound when they agree; queueing, dispatching, raising and
changing a process that does not wait keep it sound.
-/

namespace FeedbackQueue

namespace Bank

variable {b c : Bank n}

/-- The process table, the queues and the set of waiting pids agree. -/
structure Sound (b : Bank n) : Prop where
  distinct : Function.Injective b.pid
  members : b.members.Perm (b.pids b.queued)
  nodup : b.queued.Nodup
  located : ∀ i k, i ∈ b.queueAt k ↔ (b.process i).phase = .ready ∧ (b.process i).level = k
  level_lt : ∀ i, (b.process i).level < b.levels.length

/-- Changes to a process leave its pid alone. -/
theorem pid_eq_of_process (h : ∀ j, c.process j = if j = i then p else b.process j)
    (hpid : p.pid = b.pid i) : c.pid = b.pid := by
  funext j
  rw [pid, h]
  split
  · subst j
    exact hpid
  · rfl

namespace Sound

/-- What one changed process does to the levels of all. -/
theorem level_lt_of_process (hb : b.Sound)
    (h : ∀ j, c.process j = if j = i then p else b.process j)
    (hk : p.level < b.levels.length) (j : Fin n) : (c.process j).level < b.levels.length := by
  rw [h]
  split
  · exact hk
  · exact hb.level_lt j

theorem mem_queued (hb : b.Sound) : i ∈ b.queued ↔ (b.process i).phase = .ready := by
  simp [Bank.mem_queued, hb.located]

theorem mem_members (hb : b.Sound) : b.pid i ∈ b.members ↔ i ∈ b.queued := by
  rw [hb.members.mem_iff, pids, List.mem_map]
  constructor
  · rintro ⟨j, hj, h⟩
    exact hb.distinct h ▸ hj
  · exact fun h => ⟨i, h, rfl⟩

theorem contains_eq_false (hb : b.Sound) (hi : (b.process i).phase ≠ .ready) :
    b.contains i = false := by
  simp [contains, hb.mem_members, hb.mem_queued, hi]

/-- A process that does not wait may be queued at any level. -/
theorem put (hb : b.Sound) (hi : (b.process i).phase ≠ .ready) (hp : p.phase = .ready)
    (hpid : p.pid = b.pid i) (hk : p.level < b.levels.length) : (b.put i p).Sound := by
  have hsame : (b.put i p).pid = b.pid := pid_eq_of_process (fun _ => process_put) hpid
  have hfresh : i ∉ b.queued := fun h => hi (hb.mem_queued.mp h)
  have hperm : (b.put i p).queued.Perm (i :: b.queued) := perm_queued_put hk
  constructor
  · exact hsame ▸ hb.distinct
  · have h := (hperm.map b.pid).symm
    rw [pids, hsame]
    exact ((List.perm_cons p.pid).mpr hb.members).trans (by simpa [pids, hpid] using h)
  · rw [hperm.nodup_iff, List.nodup_cons]
    exact ⟨hfresh, hb.nodup⟩
  · intro j k
    -- Only the queue at the new level has changed, and only by the new tail.
    rw [process_put, show (b.put i p).queueAt k = _ from Level.queueAt_push hk]
    have hat : j ∈ Level.queueAt b.levels k ↔ _ := hb.located j k
    by_cases hj : j = i
    · subst hj
      by_cases hk : k = p.level
      · simp [hk, hp]
      · simp [hk, hp, Ne.symm hk, hat, hi]
    · by_cases hk : k = p.level
      · subst hk; simp [hj, hat]
      · simp [hk, hj, hat]
  · intro j
    rw [show (b.put i p).levels.length = b.levels.length from List.length_modify ..]
    exact hb.level_lt_of_process (fun _ => process_put) hk j

/-- A process that does not wait may change, as long as it does not wait. -/
theorem setProcess (hb : b.Sound) (hi : (b.process i).phase ≠ .ready) (hp : p.phase ≠ .ready)
    (hpid : p.pid = b.pid i) (hk : p.level < b.levels.length) : (b.setProcess i p).Sound := by
  have hsame : (b.setProcess i p).pid = b.pid :=
    pid_eq_of_process (fun _ => process_setProcess) hpid
  constructor
  · exact hsame ▸ hb.distinct
  · rw [pids, hsame]
    exact hb.members
  · exact hb.nodup
  · intro j k
    have hat : j ∈ (b.setProcess i p).queueAt k ↔ _ := hb.located j k
    rw [process_setProcess, hat]
    by_cases hj : j = i <;> simp [hj, hi, hp]
  · exact hb.level_lt_of_process (fun _ => process_setProcess) hk

/-- The head leaves its queue and, with it, the ready phase. -/
theorem dequeue (hb : b.Sound) (h : b.dequeue = some (i, rest)) (hp : p.phase ≠ .ready)
    (hpid : p.pid = b.pid i) (hk : p.level < b.levels.length) : (rest.setProcess i p).Sound := by
  obtain ⟨hprocesses, hmembers, hqueued, hquanta, k, hk', -, hother⟩ := dequeue_eq_some h
  have hprocess (j) : (rest.setProcess i p).process j = if j = i then p else b.process j := by
    rw [process_setProcess, process, hprocesses]
    rfl
  have hsame : (rest.setProcess i p).pid = b.pid := pid_eq_of_process hprocess hpid
  have hnodup := hqueued ▸ hb.nodup
  rw [List.nodup_cons] at hnodup
  have hready := (hb.located i k).mp (by simp [hk'])
  constructor
  · exact hsame ▸ hb.distinct
  · rw [pids, hsame]
    have hperm := hb.members.erase (b.pid i)
    rw [hqueued, pids, List.map_cons, List.erase_cons_head] at hperm
    exact hmembers ▸ hperm
  · exact hnodup.2
  · intro j l
    -- The head was in one queue once, so it is in none any more.
    rw [hprocess, show (rest.setProcess i p).queueAt l = rest.queueAt l from rfl]
    by_cases hj : j = i
    · have : i ∉ rest.queueAt l := fun h => hnodup.1 (Bank.mem_queued.mpr ⟨l, h⟩)
      simp [hj, hp, this]
    · rw [if_neg hj, ← hb.located]
      by_cases hl : l = k
      · simp [hl, hk', hj]
      · rw [hother l hl]
  · intro j
    have hlength : rest.levels.length = b.levels.length := by
      simpa using congrArg List.length hquanta
    rw [show (rest.setProcess i p).levels = rest.levels from rfl, hlength]
    exact hb.level_lt_of_process hprocess hk j

/-- Nobody in the queues has a higher priority than the head. -/
theorem level_head_le (hb : b.Sound) (h : b.dequeue = some (i, rest))
    (hj : (b.process j).phase = .ready) : (b.process i).level ≤ (b.process j).level := by
  obtain ⟨-, -, -, -, k, hk, hbefore, -⟩ := dequeue_eq_some h
  have hhead := ((hb.located i k).mp (by simp [hk])).2
  have hmem := (hb.located j _).mpr ⟨hj, rfl⟩
  rw [hhead]
  by_contra hlt
  rw [hbefore _ (Nat.lt_of_not_le hlt)] at hmem
  simp at hmem

theorem mem_belowTop (hb : b.Sound) :
    i ∈ b.belowTop ↔ (b.process i).phase = .ready ∧ (b.process i).level ≠ 0 := by
  have hat : i ∈ b.belowTop ↔ ∃ k, i ∈ b.queueAt (k + 1) := by
    cases h : b.levels with
    | nil => simp [belowTop, queueAt, h]
    | cons top lower =>
      have hmem : i ∈ Level.queued lower ↔ _ := Level.mem_queued
      simpa [belowTop, queueAt, h, Level.queued] using hmem
  rw [hat]
  simp only [hb.located]
  constructor
  · rintro ⟨k, hready, hk⟩
    exact ⟨hready, by omega⟩
  · rintro ⟨hready, hk⟩
    exact ⟨(b.process i).level - 1, hready, by omega⟩

theorem raiseAll (hb : b.Sound) : b.raiseAll.Sound := by
  have hphase (i) : (b.raiseAll.process i).phase = (b.process i).phase := by
    rw [process_raiseAll]; split <;> rfl
  have hsame : b.raiseAll.pid = b.pid := by
    funext i
    simp only [pid, process_raiseAll]
    split <;> rfl
  have hlength : b.raiseAll.levels.length = b.levels.length := by
    simpa using congrArg List.length (quanta_raiseAll (b := b))
  have hlevel (i) : (b.raiseAll.process i).level =
      if (b.process i).phase = .ready then 0 else (b.process i).level := by
    rw [process_raiseAll]
    have hmem := hb.mem_belowTop (i := i)
    by_cases hready : (b.process i).phase = .ready <;>
      by_cases hzero : (b.process i).level = 0 <;> simp [hmem, hready, hzero, Proc.raise]
  constructor
  · exact hsame ▸ hb.distinct
  · rw [pids, hsame, queued_raiseAll, members_raiseAll]
    exact hb.members
  · rw [queued_raiseAll]
    exact hb.nodup
  · intro i k
    rw [queueAt_raiseAll, hphase, hlevel]
    by_cases hk : k = 0
    · simp +contextual [hk, hb.mem_queued]
    · simp only [hk, if_false, List.not_mem_nil, false_iff, not_and]
      intro hready
      simpa [hready] using Ne.symm hk
  · intro i
    rw [hlevel, hlength]
    have h := hb.level_lt i
    split <;> omega

end Sound

end Bank

end FeedbackQueue
