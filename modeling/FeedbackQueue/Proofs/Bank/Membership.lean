import FeedbackQueue.Proofs.Bank.Sound
import FeedbackQueue.Proofs.Proc.Calls

/-!
# Members of a bank

The set of waiting pids is kept beside the queues, and it goes by pid while the queues hold
slots of the process table. For a bank that starts empty and is driven as a whole the two agree,
even where several processes share a pid, and every process that waits knows its level.

`enqueue` answers a bank or a refusal. What a refusal would leave behind half done is seen in
`enqueueInPlace`, which checks and assigns in the same order and takes nothing back.
-/

namespace FeedbackQueue

namespace Bank

variable {b c : Bank n} {config : Config}

-- ---------------------------------------------------------------------------
-- Calls on a bank
-- ---------------------------------------------------------------------------

/-- Any processes, none of which waits. -/
def empty (config : Config) (processes : Vector Proc n) : Bank n where
  processes := processes
  levels := config.quanta.map (⟨·, []⟩)
  members := []

/-- The checks and assignments of `enqueue` in order. -/
def enqueueInPlace (i : Fin n) (index : Int) : EStateM QueueError (Bank n) Unit := do
  let b ← get
  if b.contains i then throw (QueueError.alreadyQueued (b.pid i)).raised
  let k ← MonadExcept.ofExcept ((position b.levels.length index).mapError .index)
  let p ← MonadExcept.ofExcept (((b.process i).setLevel index).mapError .process)
  modify (·.setProcess i p)
  modify (·.modifyLevel k (·.push i))
  modify fun b => { b with members := b.pid i :: b.members }

theorem run_throw (e : QueueError) :
    EStateM.run (throw e : EStateM QueueError (Bank n) α) b = .error e b := rfl

/-- A refused process finds everything as it was. -/
theorem run_enqueueInPlace (i : Fin n) (index : Int) :
    EStateM.run (enqueueInPlace i index) b =
      match b.enqueue i index with
      | .ok c => .ok () c
      | .error e => .error e b := by
  cases hc : b.contains i with
  | true => simp [enqueueInPlace, enqueue, hc]
  | false =>
    cases hk : position b.levels.length index with
    | error e =>
      simp [enqueueInPlace, enqueue, hc, hk, Except.mapError, MonadExcept.ofExcept, run_throw]
    | ok k =>
      cases hp : (b.process i).setLevel index with
      | error e =>
        simp [enqueueInPlace, enqueue, hc, hk, hp, Except.mapError, MonadExcept.ofExcept, run_throw]
      | ok p =>
        have hspec := (Proc.takes_of_perform (c := .setLevel index) hp).spec_eq
        have hpid : ((b.setProcess i p).modifyLevel k (·.push i)).pid i = b.pid i := by
          rw [pid, show ((b.setProcess i p).modifyLevel k _).process i = _ from process_setProcess,
            if_pos rfl]
          exact congrArg Spec.pid hspec
        simp [enqueueInPlace, enqueue, hc, hk, hp, Except.mapError, MonadExcept.ofExcept, hpid]
        rfl

/-- A call on the whole bank, or one on a process that leaves its level alone. -/
inductive Call (n : Nat) where
  | enqueue (i : Fin n) (index : Int)
  | dequeue
  | raiseAll
  | process (i : Fin n) (c : Proc.Call) (keeps : ∀ k, c ≠ .setLevel k)

/-- What a call leaves behind, whether or not it fails. -/
def call (b : Bank n) : Call n → Bank n
  | .enqueue i index =>
    match EStateM.run (enqueueInPlace i index) b with
    | .ok _ c => c
    | .error _ c => c
  | .dequeue => (b.dequeue.map (·.2)).getD b
  | .raiseAll => b.raiseAll
  | .process i c _ => b.setProcess i ((b.process i).call c)

def drive (b : Bank n) (calls : List (Call n)) : Bank n := calls.foldl call b

theorem call_enqueue (i : Fin n) (index : Int) :
    b.call (.enqueue i index) = match b.enqueue i index with
      | .ok c => c
      | .error _ => b := by
  rw [call, run_enqueueInPlace]
  cases b.enqueue i index <;> rfl

-- ---------------------------------------------------------------------------
-- What every call keeps
-- ---------------------------------------------------------------------------

/-- The set of members and the levels of the processes say what the queues hold. -/
structure Faithful (config : Config) (b : Bank n) : Prop where
  length : b.levels.length = config.numQueues
  members : b.members.Perm (b.pids b.queued)
  nodup : (b.pids b.queued).Nodup
  level_eq : ∀ i k, i ∈ b.queueAt k → (b.process i).level = k

theorem contains_iff (hb : b.Faithful config) : b.contains i ↔ b.pid i ∈ b.pids b.queued := by
  rw [contains, List.contains_iff_mem, hb.members.mem_iff]

theorem position_of_neg (count : Nat) (hlow : -(count : Int) ≤ index) (hneg : index < 0) :
    ∃ k, position count index = .ok k := by
  have hrange : 0 ≤ index + count ∧ index + count < count := by omega
  exact ⟨⟨(index + count).toNat, by omega⟩, by simp [position, hneg, hrange]⟩

theorem position_of_outside (count : Nat) (index : Int)
    (h : ¬ (-(count : Int) ≤ index ∧ index < count)) :
    position count index =
      .error (if index < -indexBound ∨ indexBound ≤ index then .tooWide else .outside) := by
  have hnone : ¬ (0 ≤ (if index < 0 then index + count else index) ∧
      (if index < 0 then index + count else index) < count) := by
    split <;> omega
  simp only [position, dif_neg hnone]
  split <;> rfl

theorem mem_pids_queued (h : i ∈ b.queueAt k) : b.pid i ∈ b.pids b.queued :=
  List.mem_map_of_mem (mem_queued.mpr ⟨k, h⟩)

namespace Faithful

theorem empty (config : Config) (processes : Vector Proc n) :
    (Bank.empty config processes).Faithful config := by
  have hqueued : (Bank.empty config processes).queued = [] := by
    simp [Bank.empty, queued, Level.queued]
  refine ⟨by simp [Bank.empty, Config.quanta], ?_, ?_, fun i k hi => ?_⟩
  · rw [hqueued]
    exact .refl []
  · rw [hqueued]
    exact .nil
  · have hmem := mem_queued.mpr ⟨k, hi⟩
    simp [hqueued] at hmem

theorem put (hb : b.Faithful config) (hfresh : b.pid i ∉ b.pids b.queued) (hpid : p.pid = b.pid i)
    (hk : p.level < b.levels.length) : (b.put i p).Faithful config := by
  have hsame : (b.put i p).pid = b.pid := pid_eq_of_process (fun _ => process_put) hpid
  have hperm : ((b.put i p).pids (b.put i p).queued).Perm (b.pid i :: b.pids b.queued) := by
    rw [pids, hsame]
    exact (perm_queued_put hk).map b.pid
  refine ⟨?_, ?_, ?_, fun j k hj => ?_⟩
  · rw [show (b.put i p).levels.length = b.levels.length from List.length_modify ..]
    exact hb.length
  · rw [show (b.put i p).members = b.pid i :: b.members from congrArg (· :: _) hpid]
    exact (hb.members.cons _).trans hperm.symm
  · exact hperm.nodup_iff.mpr (List.nodup_cons.mpr ⟨hfresh, hb.nodup⟩)
  · rw [show (b.put i p).queueAt k = _ from Level.queueAt_push hk] at hj
    rw [process_put]
    by_cases hji : j = i
    · subst hji
      by_cases hkp : k = p.level
      · rw [if_pos rfl, hkp]
      · rw [if_neg hkp] at hj
        exact absurd (mem_pids_queued hj) hfresh
    · rw [if_neg hji]
      refine hb.level_eq j k ?_
      split at hj
      · exact (List.mem_append.mp hj).resolve_right (by simpa using hji)
      · exact hj

theorem dequeue (hb : b.Faithful config) (h : b.dequeue = some (i, rest)) :
    rest.Faithful config := by
  obtain ⟨hprocesses, hmembers, hqueued, hquanta, k, hk, -, hother⟩ := dequeue_eq_some h
  have hprocess (j) : rest.process j = b.process j := by rw [process, hprocesses]; rfl
  have hsame : rest.pid = b.pid := funext fun j => congrArg Proc.pid (hprocess j)
  have hnodup := hb.nodup
  rw [hqueued, pids, List.map_cons, List.nodup_cons] at hnodup
  refine ⟨?_, ?_, ?_, fun j l hj => ?_⟩
  · rw [← hb.length]
    simpa using congrArg List.length hquanta
  · have hperm := hb.members.erase (b.pid i)
    rw [hqueued, pids, List.map_cons, List.erase_cons_head] at hperm
    rw [hmembers, pids, hsame]
    exact hperm
  · rw [pids, hsame]
    exact hnodup.2
  · rw [hprocess]
    refine hb.level_eq j l ?_
    by_cases hl : l = k
    · rw [hl, hk]
      exact List.mem_cons_of_mem i (hl ▸ hj)
    · exact hother l hl ▸ hj

theorem raiseAll (hb : b.Faithful config) : b.raiseAll.Faithful config := by
  have hsame : b.raiseAll.pid = b.pid := by
    funext i
    simp only [pid, process_raiseAll]
    split <;> rfl
  refine ⟨?_, ?_, ?_, fun i k hi => ?_⟩
  · rw [← hb.length]
    simpa using congrArg List.length (quanta_raiseAll (b := b))
  · rw [pids, hsame, queued_raiseAll, members_raiseAll]
    exact hb.members
  · rw [pids, hsame, queued_raiseAll]
    exact hb.nodup
  · rw [queueAt_raiseAll] at hi
    split at hi
    · rename_i hk
      rw [hk, process_raiseAll]
      split
      · rfl
      · rename_i hbelow
        rw [queued_eq_append, List.mem_append] at hi
        exact hb.level_eq i 0 (hi.resolve_right hbelow)
    · simp at hi

theorem setProcess (hb : b.Faithful config) (hpid : p.pid = b.pid i)
    (hlevel : p.level = (b.process i).level) : (b.setProcess i p).Faithful config := by
  have hsame : (b.setProcess i p).pid = b.pid :=
    pid_eq_of_process (fun _ => process_setProcess) hpid
  refine ⟨hb.length, ?_, ?_, fun j k hj => ?_⟩
  · rw [pids, hsame]
    exact hb.members
  · rw [pids, hsame]
    exact hb.nodup
  · rw [process_setProcess]
    split
    · rename_i hji
      rw [hlevel, ← hji]
      exact hb.level_eq j k hj
    · exact hb.level_eq j k hj

/-- What a process whose pid waits already is told. -/
theorem raised_alreadyQueued (pid : Int) : (QueueError.alreadyQueued pid).raised =
    if Text.isWritable pid then .alreadyQueued pid else .numeral .tooLong := by
  simp [QueueError.raised, QueueError.phrase, Text.Phrase.raise]

/-- Whether a process may be queued depends on its pid first and then on the level. -/
theorem enqueue_eq (hb : b.Faithful config) (i : Fin n) (index : Int) :
    b.enqueue i index =
      if b.pid i ∈ b.pids b.queued then
        .error (if Text.isWritable (b.pid i) then .alreadyQueued (b.pid i) else .numeral .tooLong)
      else if 0 ≤ index ∧ index < config.numQueues then
        .ok (b.put i { b.process i with level := index.toNat })
      else if -(config.numQueues : Int) ≤ index ∧ index < 0 then
        .error (.process (ProcError.negativeLevel index).raised)
      else
        .error (.index
          (if index < -indexBound ∨ indexBound ≤ index then .tooWide else .outside)) := by
  have hlength := hb.length
  by_cases hmember : b.pid i ∈ b.pids b.queued
  · simp [enqueue, contains_iff hb |>.mpr hmember, hmember, raised_alreadyQueued]
  have hc : b.contains i = false := by
    rw [← Bool.not_eq_true, contains_iff hb]
    exact hmember
  rw [if_neg hmember]
  by_cases hinside : 0 ≤ index ∧ index < config.numQueues
  · obtain ⟨k, rfl⟩ := Int.eq_ofNat_of_zero_le hinside.1
    rw [if_pos hinside]
    exact enqueue_eq_put hc (by omega)
  rw [if_neg hinside]
  by_cases hneg : -(config.numQueues : Int) ≤ index ∧ index < 0
  · obtain ⟨k, hk⟩ := position_of_neg b.levels.length (hlength ▸ hneg.1) hneg.2
    rw [if_pos hneg]
    simp [enqueue, hc, hk, Proc.setLevel, Int.not_le.mpr hneg.2]
  · rw [if_neg hneg]
    have houtside := position_of_outside b.levels.length index (by omega)
    simp [enqueue, hc, houtside]

theorem call (hb : b.Faithful config) (c : Call n) : (b.call c).Faithful config := by
  cases c with
  | enqueue i index =>
    rw [call_enqueue, hb.enqueue_eq]
    by_cases hmember : b.pid i ∈ b.pids b.queued
    · simpa [hmember] using hb
    by_cases hinside : 0 ≤ index ∧ index < config.numQueues
    · have hk : index.toNat < b.levels.length := hb.length ▸ by omega
      simpa [hmember, hinside] using
        hb.put (p := { b.process i with level := index.toNat }) hmember rfl hk
    · by_cases hneg : -(config.numQueues : Int) ≤ index ∧ index < 0 <;>
        simpa [hmember, hinside, hneg] using hb
  | dequeue =>
    rw [Bank.call]
    cases h : b.dequeue with
    | none => exact hb
    | some head => exact hb.dequeue h
  | raiseAll => exact hb.raiseAll
  | process i c keeps =>
    have hspec : ((b.process i).call c).spec = (b.process i).spec := (b.process i).spec_drive [c]
    refine hb.setProcess (congrArg Spec.pid hspec) ?_
    rcases (b.process i).call_cases c with ⟨-, hsame⟩ | ⟨-, htakes⟩
    · rw [hsame]
    · exact htakes.level_eq keeps

theorem drive (hb : b.Faithful config) (calls : List (Call n)) :
    (b.drive calls).Faithful config := by
  induction calls generalizing b with
  | nil => exact hb
  | cons c rest ih => exact ih (hb.call c)

theorem size_eq (hb : b.Faithful config) :
    b.size = (b.levels.map (·.queue.length)).sum := by
  rw [size, hb.members.length_eq, pids, List.length_map, queued, Level.queued, List.length_flatMap]

theorem isEmpty_iff (hb : b.Faithful config) : b.isEmpty ↔ b.queued = [] := by
  rw [isEmpty, List.isEmpty_iff, ← List.length_eq_zero_iff, hb.members.length_eq, pids,
    List.length_map, List.length_eq_zero_iff]

end Faithful

/-- However a bank is called that started empty, its members are the pids that wait, none of
which waits twice, and every process that waits knows its level. A process is queued if its pid
does not wait and the level exists. Otherwise it is refused and nothing has changed, and a process
whose pid waits already is told so if the pid can be written. -/
theorem drive_faithful (config : Config) (processes : Vector Proc n) (calls : List (Call n)) :
    let b := (empty config processes).drive calls
    (∀ pid, pid ∈ b.members ↔ pid ∈ b.pids b.queued) ∧
    b.members.Nodup ∧
    (b.pids b.queued).Nodup ∧
    b.size = (b.levels.map (·.queue.length)).sum ∧
    (b.isEmpty ↔ ∀ l ∈ b.levels, l.queue = []) ∧
    (b.isEmpty ↔ b.dequeue = none) ∧
    (∀ i k, i ∈ b.queueAt k → (b.process i).level = k) ∧
    (∀ i index, b.enqueue i index =
      if b.pid i ∈ b.pids b.queued then
        .error (if Text.isWritable (b.pid i) then .alreadyQueued (b.pid i) else .numeral .tooLong)
      else if 0 ≤ index ∧ index < config.numQueues then
        .ok (b.put i { b.process i with level := index.toNat })
      else if -(config.numQueues : Int) ≤ index ∧ index < 0 then
        .error (.process (ProcError.negativeLevel index).raised)
      else
        .error (.index
          (if index < -indexBound ∨ indexBound ≤ index then .tooWide else .outside))) ∧
    ∀ i index, EStateM.run (enqueueInPlace i index) b =
      match b.enqueue i index with
      | .ok c => .ok () c
      | .error e => .error e b := by
  intro b
  have hb : b.Faithful config := (Faithful.empty config processes).drive calls
  refine ⟨fun pid => hb.members.mem_iff, hb.members.nodup_iff.mpr hb.nodup, hb.nodup, hb.size_eq,
    ?_, ?_, hb.level_eq, hb.enqueue_eq, run_enqueueInPlace⟩
  · rw [hb.isEmpty_iff]
    exact List.flatMap_eq_nil_iff
  · rw [hb.isEmpty_iff, dequeue_eq_none]

/-- A process with the least pid that has too many digits, and which waits, is refused, but not
told why. -/
theorem long_pid_untold :
    let spec : Spec := ⟨Text.digitBound, 0, 1, false, none, by simp, by decide, by decide⟩
    let b := (empty .standard #v[.ofSpec spec]).drive [.enqueue 0 0]
    b.pid 0 ∈ b.pids b.queued ∧ b.enqueue 0 0 = .error (.numeral .tooLong) := by
  intro spec b
  have hb : b.Faithful .standard := (Faithful.empty _ _).drive _
  have hqueued : b.queued = [0] := rfl
  have hpid : b.pid 0 = Text.digitBound := rfl
  have hmember : b.pid 0 ∈ b.pids b.queued := by simp [hqueued, pids]
  refine ⟨hmember, ?_⟩
  rw [hb.enqueue_eq, if_pos hmember, hpid, Text.isWritable_digitBound]
  rfl

end Bank

end FeedbackQueue
