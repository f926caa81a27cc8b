import FeedbackQueue.Proofs.Scheduler.Driving

/-!
# Consistency under any driving

However a workload is driven, with whatever policy and whichever calls fail, the
phases, the queues, the set of waiting pids, the levels and the counter of completed
processes tell one story. They do so even while several processes hold the CPU.
-/

namespace FeedbackQueue

namespace Scheduler

/-- What a driver may rely on between any two calls. -/
structure Consistent (s : Scheduler n) : Prop where
  ready_iff : ∀ i, (s.process i).phase = .ready ↔ i ∈ s.bank.queued
  /-- Over all levels together. -/
  queued_once : ∀ i, (s.process i).phase = .ready → s.bank.queued.count i = 1
  at_level : ∀ i, (s.process i).phase = .ready → i ∈ s.bank.queueAt (s.process i).level
  mem_members : ∀ pid, pid ∈ s.bank.members ↔ ∃ i ∈ s.bank.queued, (s.process i).pid = pid
  level_le : ∀ i, (s.process i).level ≤ s.config.lowestLevel
  waiting_iff : ∀ i, (∃ t, (s.process i).phase = .waiting t) ↔ (s.process i).readyAt.isSome
  terminated_iff : ∀ i, (∃ t, (s.process i).phase = .terminated t) ↔ (s.process i).remaining = 0
  completion_iff : ∀ i, (s.process i).remaining = 0 ↔ (s.process i).completion.isSome
  completed : s.completed = s.bank.processes.countP (·.phase matches .terminated _)
  done_iff : s.done ↔ ∀ i, ∃ t, (s.process i).phase = .terminated t

variable {s : Scheduler n}

namespace Sound

theorem consistent (hs : s.Sound) : s.Consistent where
  ready_iff _ := hs.bank.mem_queued.symm
  queued_once i hi := by
    rw [hs.bank.nodup.count, if_pos (hs.bank.mem_queued.mpr hi)]
  at_level i hi := (hs.bank.located i _).mpr ⟨hi, rfl⟩
  mem_members pid := by
    rw [hs.bank.members.mem_iff]
    exact List.mem_map
  level_le := hs.level_le
  waiting_iff _ := Proc.isSome_readyAt.symm
  terminated_iff i := by rw [(hs.process i).done_iff, Proc.isSome_completion]
  completion_iff i := (hs.process i).done_iff
  completed := by
    rw [hs.completed]
    congr 1
    funext p
    cases h : p.phase <;> simp [Proc.completion, h]
  done_iff := hs.done_iff

end Sound

end Scheduler

/-- Consistency does not mean that the CPU is held by one process only: two
dispatches in a row leave two processes running. -/
theorem drive_consistent :
    (∀ (w : Workload) (config : Config) (policy : SlicePolicy w.size)
      (calls : List (Scheduler.Call w.size)), ((w.start config).drive policy calls).Consistent) ∧
    ∀ policy : SlicePolicy Workload.reference.size, ∃ calls i j, i ≠ j ∧
      (((Workload.reference.start .standard).drive policy calls).process i).phase = .running ∧
      (((Workload.reference.start .standard).drive policy calls).process j).phase = .running := by
  constructor
  · intro w config policy calls
    exact (Workload.sound_drive calls).consistent
  · intro policy
    refine ⟨[.arrivals, .dispatch, .dispatch], ⟨0, by decide⟩, ⟨1, by decide⟩, by decide, ?_⟩
    simp only [Scheduler.drive, List.foldl_cons, List.foldl_nil, Scheduler.call]
    decide +kernel

end FeedbackQueue
