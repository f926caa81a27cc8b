import FeedbackQueue.Scheduler.Stages

/-!
# Runs

A step admits, boosts, dispatches and executes, or idles when nothing is ready.
A run repeats steps until every process has completed.
-/

namespace FeedbackQueue

namespace Sim

/-- One step; the answer is whether processes remain to be simulated. -/
def step (policy : SlicePolicy n) : Sim n Bool := do
  if (← get).done then
    return false
  let _ ← admitArrivals
  let _ ← applyBoost
  match ← dispatch with
  | none => let _ ← fastForward
  | some i => let _ ← execute policy i
  return !(← get).done

/-- Step until nothing remains, at most a given number of times. -/
def steps (policy : SlicePolicy n) : Nat → Sim n Unit
  | 0 => throw .endless
  | fuel + 1 => do
    if ← step policy then steps policy fuel

end Sim

/-- A number of steps that suffices for every run that ends. A step delivers CPU
time, or settles a process that owes none or has no quantum left, which happens
at most once each, or idles; and no two steps in a row idle. -/
def Scheduler.stepBound (s : Scheduler n) : Nat :=
  let owed := s.bank.processes.toList.foldr (fun p sum => p.remaining.toNat + sum) 0
  2 * (owed + 2 * n + 1)

namespace Sim

/-- Step until every process has completed, and report. -/
def run (policy : SlicePolicy n) : Sim n Report := do
  steps policy (← get).stepBound
  report

end Sim

/-- How a whole run ends, and what it leaves behind. -/
structure Ending (n : Nat) where
  result : Except SchedulerError Report
  final : Scheduler n

/-- Run to the end. -/
def Scheduler.finish (s : Scheduler n) : Ending n :=
  match EStateM.run (Sim.run .standard) s with
  | .ok report final => ⟨.ok report, final⟩
  | .error e final => ⟨.error e, final⟩

end FeedbackQueue
