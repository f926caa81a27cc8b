import FeedbackQueue.Proofs.Bank.Renaming
import FeedbackQueue.Proofs.Scheduler.History

/-!
# What a boost changes

A boost that is due moves the queues below the top level to the tail of the top one, level by
level, and gives those who wait there a fresh quantum. Processes that do not wait may have a level
too, but they are in no queue, so a boost passes them by.
-/

namespace FeedbackQueue

namespace Bank

variable {b : Bank n}

theorem queued_eq_flatMap : b.queued = (List.range b.levels.length).flatMap b.queueAt :=
  Level.queued_eq_flatMap b.levels

/-- The queues below the top level, one after the other. -/
theorem belowTop_eq_flatMap :
    b.belowTop = (List.range' 1 (b.levels.length - 1)).flatMap b.queueAt := by
  have hbelow : b.belowTop = Level.queued b.levels.tail := rfl
  have hshift (k : Nat) : Level.queueAt b.levels.tail k = b.queueAt (1 + k) := by
    rw [Nat.add_comm, queueAt, Level.queueAt, Level.queueAt, List.getElem?_tail]
  rw [hbelow, Level.queued_eq_flatMap, List.length_tail, List.range'_eq_map_range,
    List.flatMap_map]
  exact List.flatMap_congr fun k _ => hshift k

end Bank

namespace Scheduler

variable {s : Scheduler n}

/-- A list of processes is moved to the top level, and nothing else happens. -/
structure Raises (s : Scheduler n) (moved : List (Fin n)) (t : Scheduler n) : Prop where
  top : t.bank.queueAt 0 = (List.range s.config.numQueues).flatMap s.bank.queueAt
  below : ∀ k ≠ 0, t.bank.queueAt k = []
  quanta : t.bank.levels.map Level.quantum = s.bank.levels.map Level.quantum
  members : t.bank.members = s.bank.members
  process : ∀ i ∈ moved, t.process i = { s.process i with level := 0, used := 0 }
  others : ∀ i ∉ moved, t.process i = s.process i
  booster : t.booster = { s.booster with last := s.clock, count := s.booster.count + 1 }
  log : t.log.toList = s.log.toList ++ [.boost s.clock moved.length]
  rest : t = { s with bank := t.bank, booster := t.booster, log := t.log }

theorem raises_boosted (hs : s.Sound) : s.Raises s.bank.belowTop s.boosted where
  top := by
    rw [← hs.length_levels, ← Bank.queued_eq_flatMap]
    exact Bank.queueAt_raiseAll
  below k hk := by
    have hqueue : s.boosted.bank.queueAt k = _ := Bank.queueAt_raiseAll
    rw [hqueue, if_neg hk]
  quanta := Bank.quanta_raiseAll
  members := Bank.members_raiseAll
  process i hi := by
    rw [process_boosted, if_pos hi]
    rfl
  others i hi := by
    rw [process_boosted, if_neg hi]
  booster := rfl
  log := Array.toList_push
  rest := rfl

end Scheduler

namespace Workload

/-- However a workload is driven, a boost changes nothing before its interval is over. After that
it moves the queues below the top level, one after the other, to the tail of the top one, starts
the interval again and is recorded with the number of those it moved. These get the top level and
a fresh quantum. Nothing else changes, in particular nobody who waits at the top or does not wait,
whatever its level. -/
theorem boost_framed (w : Workload) (config : Config) (policy : SlicePolicy w.size)
    (calls : List (Scheduler.Call w.size)) :
    let s := (w.start config).drive policy calls
    (s.clock - s.booster.last < config.boostInterval →
      EStateM.run Sim.applyBoost s = .ok [] s) ∧
    (config.boostInterval ≤ s.clock - s.booster.last → ∃ moved t,
      EStateM.run Sim.applyBoost s = .ok moved t ∧ s.Raises moved t ∧
      moved = (List.range' 1 config.lowestLevel).flatMap s.bank.queueAt ∧ moved.Nodup ∧
      (∀ i ∈ s.bank.queueAt 0, t.process i = s.process i) ∧
      ∀ i, (s.process i).phase ≠ .ready →
        (∀ k, i ∉ s.bank.queueAt k) ∧ t.process i = s.process i) := by
  intro s
  have hs : s.Sound := sound_drive calls
  have hconfig : s.config = config := config_drive calls
  have hinterval : s.booster.interval = config.boostInterval := hs.interval.trans (by rw [hconfig])
  have hdue : s.booster.due s.clock ↔ config.boostInterval ≤ s.clock - s.booster.last := by
    rw [Booster.due, decide_eq_true_iff, hinterval]
  have hmoved : s.bank.belowTop = (List.range' 1 config.lowestLevel).flatMap s.bank.queueAt := by
    rw [Bank.belowTop_eq_flatMap, hs.length_levels, hconfig, Config.lowestLevel]
  have hraises := s.raises_boosted hs
  refine ⟨fun hearly => ?_, fun hlate => ?_⟩
  · rw [Sim.run_applyBoost, if_neg (by rw [hdue]; omega)]
  · refine ⟨s.bank.belowTop, s.boosted, ?_, hraises, hmoved, ?_, fun i hi => ?_, fun i hi => ?_⟩
    · rw [Sim.run_applyBoost, if_pos (hdue.mpr hlate)]
    · exact (Bank.queued_eq_append ▸ hs.bank.nodup).of_append_right
    · have htop := (hs.bank.located i 0).mp hi
      exact hraises.others i fun hmem => (hs.bank.mem_belowTop.mp hmem).2 htop.2
    · exact ⟨fun k hk => hi ((hs.bank.located i k).mp hk).1,
        hraises.others i fun hmem => hi (hs.bank.mem_belowTop.mp hmem).1⟩

end Workload

end FeedbackQueue
