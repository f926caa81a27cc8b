import FeedbackQueue.Scheduler.Basic

/-!
# Workloads

The jobs of one run: at least one, with pairwise distinct pids. Jobs that
arrive at the same time are served in workload order.
-/

namespace FeedbackQueue

structure Workload where
  specs : List Spec
  nonempty : specs ≠ []
  distinct : (specs.map (·.pid)).Nodup
deriving DecidableEq, Repr

inductive StartError where
  | emptyWorkload
  | duplicatePid (pid : Int)
  | numeral (e : Text.NumeralError)
deriving DecidableEq, Repr

namespace StartError

def phrase : StartError → Text.Phrase
  | .emptyWorkload => ["Cannot simulate an empty workload"]
  | .duplicatePid pid => ["Duplicate pid ", pid, " in workload"]
  | .numeral e => [e.message]

def message (e : StartError) : String := e.phrase.text

def raised (e : StartError) : StartError := e.phrase.raise .numeral e

end StartError

namespace Workload

/-- The first pid that repeats an earlier one. -/
def firstRepeated : (seen pids : List Int) → Option Int
  | _, [] => none
  | seen, pid :: rest => if pid ∈ seen then some pid else firstRepeated (pid :: seen) rest

def ofSpecs (specs : List Spec) : Except StartError Workload :=
  if hne : specs ≠ [] then
    if hd : (specs.map (·.pid)).Nodup then .ok ⟨specs, hne, hd⟩
    else .error (StartError.duplicatePid ((firstRepeated [] (specs.map (·.pid))).getD 0)).raised
  else .error .emptyWorkload

def size (w : Workload) : Nat := w.specs.length

def toVector (w : Workload) : Vector Spec w.size := ⟨w.specs.toArray, by simp [size]⟩

def start (w : Workload) (config : Config) : Scheduler w.size :=
  .start config w.toVector

/-- Two long CPU-bound jobs among three I/O-bound ones. -/
def reference : Workload where
  specs := [
    ⟨1, 0, 100, false, none, by decide, by decide, by decide⟩,
    ⟨2, 0, 5, true, none, by decide, by decide, by decide⟩,
    ⟨3, 0, 5, true, none, by decide, by decide, by decide⟩,
    ⟨4, 10, 80, false, none, by decide, by decide, by decide⟩,
    ⟨5, 20, 15, true, none, by decide, by decide, by decide⟩]
  nonempty := by decide
  distinct := by decide

end Workload

end FeedbackQueue
