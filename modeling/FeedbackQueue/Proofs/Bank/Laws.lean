import FeedbackQueue.Bank
import Mathlib

/-!
# What bank operations do to the queues

A bank is seen through two views: the queue at each level (`queueAt`) and
everything that waits as one list, in the order of service (`queued`). Each
operation has one law per view. The laws hold of every bank, sound or not.
-/

namespace FeedbackQueue

namespace Level

/-- The slots that wait at a level, head first; none at a level that does not
exist. -/
def queueAt (levels : List (Level n)) (k : Nat) : List (Fin n) :=
  (levels[k]?.map (·.queue)).getD []

/-- Everything that waits, in the order in which it will be served. -/
def queued (levels : List (Level n)) : List (Fin n) := levels.flatMap (·.queue)

variable {levels rest : List (Level n)}

@[simp] theorem queued_nil : queued ([] : List (Level n)) = [] := rfl

@[simp] theorem queued_cons (l : Level n) (rest : List (Level n)) :
    queued (l :: rest) = l.queue ++ queued rest := rfl

@[simp] theorem queueAt_nil : queueAt ([] : List (Level n)) k = [] := rfl

@[simp] theorem queueAt_cons_zero (l : Level n) (rest : List (Level n)) :
    queueAt (l :: rest) 0 = l.queue := rfl

@[simp] theorem queueAt_cons_succ (l : Level n) (rest : List (Level n)) :
    queueAt (l :: rest) (k + 1) = queueAt rest k := rfl

theorem mem_queued : i ∈ queued levels ↔ ∃ k, i ∈ queueAt levels k := by
  induction levels with
  | nil => simp
  | cons l rest ih =>
    rw [queued_cons, List.mem_append, ih]
    constructor
    · rintro (h | ⟨k, h⟩)
      · exact ⟨0, h⟩
      · exact ⟨k + 1, h⟩
    · rintro ⟨_ | k, h⟩
      · exact .inl h
      · exact .inr ⟨k, h⟩

/-! ## Pushing -/

theorem queueAt_push (hk : k < levels.length) :
    queueAt (levels.modify k (·.push i)) j =
      if j = k then queueAt levels j ++ [i] else queueAt levels j := by
  by_cases h : j = k
  · subst h
    simp [queueAt, push, hk]
  · simp [queueAt, h, Ne.symm h]

theorem queued_push (hk : k < levels.length) :
    ∃ before after, queued levels = before ++ after ∧
      queued (levels.modify k (·.push i)) = before ++ i :: after := by
  induction levels generalizing k with
  | nil => simp at hk
  | cons l rest ih =>
    cases k with
    | zero => exact ⟨l.queue, queued rest, rfl, by simp [push]⟩
    | succ k =>
      obtain ⟨before, after, h, h'⟩ := ih (k := k) (by simpa using hk)
      exact ⟨l.queue ++ before, after, by simp [h], by simp [h']⟩

theorem quanta_push (levels : List (Level n)) :
    (levels.modify k (·.push i)).map Level.quantum = levels.map Level.quantum := by
  apply List.ext_getElem
  · simp
  · intro j hj _
    simp only [List.getElem_map, List.getElem_modify]
    split <;> rfl

/-! ## Popping -/

theorem popFirst_eq_none : popFirst levels = none ↔ queued levels = [] := by
  induction levels with
  | nil => simp [popFirst]
  | cons l rest ih => cases h : l.queue <;> simp [popFirst, h, ih]

/-- The head leaves the front of the first level that has one. -/
theorem popFirst_eq_some (h : popFirst levels = some (i, rest)) :
    queued levels = i :: queued rest ∧ rest.map Level.quantum = levels.map Level.quantum ∧
      ∃ k, queueAt levels k = i :: queueAt rest k ∧ (∀ j < k, queueAt levels j = []) ∧
        ∀ j ≠ k, queueAt rest j = queueAt levels j := by
  induction levels generalizing rest with
  | nil => simp [popFirst] at h
  | cons l lower ih =>
    cases hq : l.queue with
    | cons head queue =>
      simp only [popFirst, hq, Option.some.injEq, Prod.mk.injEq] at h
      obtain ⟨rfl, rfl⟩ := h
      refine ⟨by simp [hq], by simp, 0, by simp [hq], by simp, ?_⟩
      intro j hj
      cases j with
      | zero => exact absurd rfl hj
      | succ j => rfl
    | nil =>
      simp only [popFirst, hq, Option.map_eq_some_iff, Prod.mk.injEq, Prod.exists] at h
      obtain ⟨_, rest, hrest, rfl, rfl⟩ := h
      obtain ⟨hqueued, hquanta, k, hk, hbefore, hother⟩ := ih hrest
      refine ⟨by simp [hq, hqueued], by simp [hquanta], k + 1, by simpa using hk, ?_, ?_⟩
      · intro j hj
        cases j with
        | zero => simpa using hq
        | succ j => simpa using hbefore j (by omega)
      · intro j hj
        cases j with
        | zero => rfl
        | succ j => simpa using hother j (by omega)

end Level

namespace Bank

variable {b : Bank n}

def queueAt (b : Bank n) (k : Nat) : List (Fin n) := Level.queueAt b.levels k

def queued (b : Bank n) : List (Fin n) := Level.queued b.levels

/-- Store a changed process and put it at the tail of the level it names. -/
def put (b : Bank n) (i : Fin n) (p : Proc) : Bank n where
  processes := b.processes.set i p i.isLt
  levels := b.levels.modify p.level (·.push i)
  members := p.pid :: b.members

theorem mem_queued : i ∈ b.queued ↔ ∃ k, i ∈ b.queueAt k := Level.mem_queued

/-! ## The process table -/

@[simp] theorem process_setProcess :
    (b.setProcess i p).process j = if j = i then p else b.process j := by
  simp [process, setProcess, Vector.getElem_set, Fin.ext_iff, eq_comm]

@[simp] theorem process_put :
    (b.put i p).process j = if j = i then p else b.process j := by
  simp [process, put, Vector.getElem_set, Fin.ext_iff, eq_comm]

@[simp] theorem process_raiseAll :
    b.raiseAll.process i = if i ∈ b.belowTop then (b.process i).raise else b.process i := by
  cases h : b.levels <;> simp [raiseAll, belowTop, process, h]

@[simp] theorem setProcess_setProcess :
    (b.setProcess i p).setProcess i q = b.setProcess i q := by
  simp [setProcess]

@[simp] theorem put_setProcess : (b.setProcess i p).put i q = b.put i q := by
  simp [setProcess, put]

theorem contains_setProcess (h : p.pid = b.pid i) :
    (b.setProcess i p).contains i = b.contains i := by
  simp [contains, pid, h]
  rfl

/-! ## Enqueueing -/

theorem position_of_lt (h : k < count) : position count k = .ok ⟨k, h⟩ := by
  have hk : ¬ (k : Int) < 0 := by omega
  simp [position, hk, h]

theorem enqueue_eq_put (hc : b.contains i = false) (hk : k < b.levels.length) :
    b.enqueue i k = .ok (b.put i { b.process i with level := k }) := by
  simp [enqueue, hc, position_of_lt hk, Proc.setLevel, modifyLevel, setProcess, put, pid, Proc.pid]

theorem perm_queued_put (hk : p.level < b.levels.length) :
    (b.put i p).queued.Perm (i :: b.queued) := by
  obtain ⟨before, after, hq, hq'⟩ := Level.queued_push (i := i) hk
  rw [show (b.put i p).queued = before ++ i :: after from hq', show b.queued = _ from hq]
  exact List.perm_middle

/-! ## Dequeueing and raising -/

theorem dequeue_eq_none : b.dequeue = none ↔ b.queued = [] := by
  simp [dequeue, queued, Level.popFirst_eq_none]

theorem dequeue_eq_some (h : b.dequeue = some (i, rest)) :
    rest.processes = b.processes ∧ rest.members = b.members.erase (b.pid i) ∧
      b.queued = i :: rest.queued ∧
      rest.levels.map Level.quantum = b.levels.map Level.quantum ∧
      ∃ k, b.queueAt k = i :: rest.queueAt k ∧ (∀ j < k, b.queueAt j = []) ∧
        ∀ j ≠ k, rest.queueAt j = b.queueAt j := by
  simp only [dequeue, Option.map_eq_some_iff, Prod.mk.injEq, Prod.exists] at h
  obtain ⟨_, levels, hpop, rfl, rfl⟩ := h
  exact ⟨rfl, rfl, Level.popFirst_eq_some hpop⟩

theorem queued_raiseAll : b.raiseAll.queued = b.queued := by
  cases h : b.levels with
  | nil => simp [raiseAll, queued, h]
  | cons top lower =>
    have hclear : Level.queued (lower.map Level.clear) = [] := by
      simp [Level.queued, Level.clear]
    simp [raiseAll, queued, h, belowTop, hclear]
    rfl

theorem queueAt_raiseAll : b.raiseAll.queueAt k = if k = 0 then b.queued else [] := by
  cases h : b.levels with
  | nil => simp [raiseAll, queueAt, queued, h]
  | cons top lower =>
    cases k with
    | zero => simp [raiseAll, queueAt, queued, h, belowTop]; rfl
    | succ k => cases hk : lower[k]? <;> simp [raiseAll, queueAt, h, Level.queueAt, Level.clear, hk]

theorem quanta_raiseAll : b.raiseAll.levels.map Level.quantum = b.levels.map Level.quantum := by
  cases h : b.levels <;> simp [raiseAll, h, Level.clear]

theorem members_raiseAll : b.raiseAll.members = b.members := by
  cases h : b.levels <;> simp [raiseAll, h]

theorem queued_eq_append : b.queued = b.queueAt 0 ++ b.belowTop := by
  cases h : b.levels with
  | nil => simp [queued, queueAt, belowTop, h]
  | cons top lower => simp [queued, queueAt, belowTop, h, Level.queued]

theorem belowTop_of_queued (h : b.queued = []) : b.belowTop = [] :=
  (List.append_eq_nil_iff.mp (queued_eq_append ▸ h)).2

/-- Where nobody waits there is nobody to raise. -/
theorem raiseAll_of_queued (h : b.queued = []) : b.raiseAll = b := by
  have hbelow := belowTop_of_queued h
  rw [queued, Level.queued, List.flatMap_eq_nil_iff] at h
  cases hlevels : b.levels with
  | nil => simp [raiseAll, hlevels]
  | cons top lower =>
    have hclear : lower.map Level.clear = lower := by
      conv_rhs => rw [← List.map_id lower]
      refine List.map_congr_left fun l hl => ?_
      have hempty : l.queue = [] := h l (by simp [hlevels, hl])
      rw [Level.clear, ← hempty]
      rfl
    have hprocesses : Vector.ofFn b.process = b.processes := by
      ext k hk
      simp [process]
    simp only [raiseAll, hlevels, hbelow, hclear, List.not_mem_nil, if_false, List.append_nil]
    rw [hprocesses, ← hlevels]

/-! ## The order of service -/

/-- A process that joins a queue overtakes nobody. -/
theorem queued_sublist_put : b.queued.Sublist (b.put i p).queued := by
  by_cases hk : p.level < b.levels.length
  · obtain ⟨before, after, hq, hq'⟩ := Level.queued_push (i := i) hk
    rw [show b.queued = _ from hq, show (b.put i p).queued = _ from hq']
    exact (List.Sublist.refl before).append (List.sublist_cons_self i after)
  · have hsame : b.levels.modify p.level (·.push i) = b.levels :=
      List.modify_eq_self (Nat.not_lt.mp hk)
    rw [show (b.put i p).queued = Level.queued (b.levels.modify p.level (·.push i)) from rfl, hsame]
    exact .refl _

theorem queueAt_zero_prefix_queued : b.queueAt 0 <+: b.queued :=
  queued_eq_append ▸ List.prefix_append _ _

/-- A process that joins the queues joins the top one at its tail, or not at all. -/
theorem queueAt_zero_put (b : Bank n) (i : Fin n) (p : Proc) :
    ∃ new, (b.put i p).queueAt 0 = b.queueAt 0 ++ new ∧ ∀ j ∈ new, j = i := by
  cases h : b.levels with
  | nil => exact ⟨[], by simp [queueAt, put, h], nofun⟩
  | cons top lower =>
    cases hlevel : p.level with
    | zero => exact ⟨[i], by simp [queueAt, put, h, hlevel, Level.push], by simp⟩
    | succ k => exact ⟨[], by simp [queueAt, put, h, hlevel], nofun⟩

theorem queueAt_zero_prefix_put : b.queueAt 0 <+: (b.put i p).queueAt 0 := by
  obtain ⟨new, hqueue, -⟩ := b.queueAt_zero_put i p
  exact hqueue ▸ List.prefix_append _ _

/-- Whoever is raised joins the top queue behind those who wait there. -/
theorem queueAt_zero_prefix_raiseAll : b.queueAt 0 <+: b.raiseAll.queueAt 0 := by
  rw [queueAt_raiseAll, if_pos rfl]
  exact queueAt_zero_prefix_queued

theorem queueAt_zero_of_dequeue (h : b.dequeue = some (i, rest)) :
    b.queueAt 0 = [] ∨ b.queueAt 0 = i :: rest.queueAt 0 := by
  obtain ⟨-, -, -, -, k, hk, hbefore, -⟩ := dequeue_eq_some h
  cases k with
  | zero => exact .inr hk
  | succ k => exact .inl (hbefore 0 (Nat.succ_pos k))

end Bank

end FeedbackQueue
