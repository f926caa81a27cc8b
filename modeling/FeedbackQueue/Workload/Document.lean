import FeedbackQueue.Json.File
import FeedbackQueue.Workload.Basic

/-!
# Workloads as documents

A workload is read from a list of job records, or from an object that holds the
list under `processes`. Records are checked in order, and repeated pids only
when every record is well formed.
-/

namespace FeedbackQueue

inductive WorkloadError where
  | notList
  | notObject (index : Nat) (found : Json.Value)
  | ioBoundNotBool (index : Nat) (found : Json.Value)
  | nameNotString (index : Nat) (found : Json.Value)
  | missing (index : Nat) (key : String)
  | notInteger (index : Nat) (key : String) (found : Json.Value)
  | spec (e : SpecError)
  | empty
  | duplicatePids (pids : List Int)
  | unreadable (reason : String)

namespace WorkloadError

/-- A record is named by its index, which is a position in a list and never too long. -/
def record (index : Nat) (fault : String) : Text.Piece := .words s!"Process #{index}: {fault}"

def phrase : WorkloadError → Text.Phrase
  | .notList => ["Workload must be a list of process objects"]
  | .notObject index found => [record index s!"expected an object, got {found.typeName}"]
  | .ioBoundNotBool index found =>
    record index "'io_bound' must be true or false, got " :: found.display
  | .nameNotString index found => record index "'name' must be a string, got " :: found.display
  | .missing index key => [record index s!"missing '{key}'"]
  | .notInteger index key found =>
    record index s!"'{key}' must be an integer, got " :: found.display
  | .spec e => e.phrase
  | .empty => ["Workload contains no processes"]
  | .duplicatePids pids =>
    .words "Duplicate pids in workload: " ::
      Text.Phrase.join ", " (pids.map fun pid => [.integer pid])
  | .unreadable reason => [s!"Cannot load workload: {reason}"]

def message (e : WorkloadError) : String := e.phrase.text

/-- What is found in a record or repeated may be too long to be quoted. Where an integer is
asked for, or makes no job, that is rejected like any other fault of the record. -/
def raised : WorkloadError → LoadError WorkloadError
  | .notInteger index key found =>
    .rejected ((notInteger index key found).phrase.raise (.spec ∘ .numeral)
      (.notInteger index key found))
  | .spec e => .rejected (.spec e.raised)
  | e => e.phrase.raise (.fault ∘ .numeral) (.rejected e)

end WorkloadError

namespace Workload

def ioBoundOf (index : Nat) (record : Json.Members) : Except (LoadError WorkloadError) Bool :=
  match record.lookup "io_bound" with
  | none => .ok false
  | some (.bool b) => .ok b
  | some found => .error (WorkloadError.ioBoundNotBool index found).raised

def nameOf (index : Nat) (record : Json.Members) :
    Except (LoadError WorkloadError) (Option String) :=
  match record.lookup "name" with
  | none | some .null => .ok none
  | some (.str name) => .ok (some name)
  | some found => .error (WorkloadError.nameNotString index found).raised

def integerOf (index : Nat) (record : Json.Members) (key : String) :
    Except (LoadError WorkloadError) Int :=
  match record.lookup key with
  | none => .error (WorkloadError.missing index key).raised
  | some (.int n) => .ok n
  | some found => .error (WorkloadError.notInteger index key found).raised

def specOf (index : Nat) : Json.Value → Except (LoadError WorkloadError) Spec
  | .obj record => do
    let ioBound ← ioBoundOf index record
    let name ← nameOf index record
    let pid ← integerOf index record "pid"
    let arrival ← integerOf index record "arrival_time"
    let burst ← integerOf index record "burst_time"
    (Spec.make pid arrival burst ioBound name).mapError (.rejected ∘ .spec)
  | found => .error (WorkloadError.notObject index found).raised

/-- The specifications of records that are numbered from `index` on. -/
def specsOf (index : Nat) : List Json.Value → Except (LoadError WorkloadError) (List Spec)
  | [] => .ok []
  | record :: rest => do
    let spec ← specOf index record
    let specs ← specsOf (index + 1) rest
    return spec :: specs

/-- The pids that occur more than once, in ascending order. -/
def repeatedPids (pids : List Int) : List Int :=
  (pids.filter fun pid => 1 < pids.count pid).eraseDups.mergeSort fun a b => a ≤ b

/-- The value under `processes`, or the value itself. -/
def recordsOf (data : Json.Value) : Json.Value :=
  match data with
  | .obj members => (members.lookup "processes").getD data
  | _ => data

def parse (data : Json.Value) : Except (LoadError WorkloadError) Workload :=
  match recordsOf data with
  | .arr records => do
    let specs ← specsOf 0 records
    if hne : specs ≠ [] then
      if hd : (specs.map (·.pid)).Nodup then return ⟨specs, hne, hd⟩
      else throw (WorkloadError.duplicatePids (repeatedPids (specs.map (·.pid)))).raised
    else throw (.rejected .empty)
  | _ => .error (.rejected .notList)

/-- The workload in the contents found at a path. -/
def ofContents (path : String) (contents : Contents) :
    Except (LoadError WorkloadError) Workload := do
  parse (← (Json.ofContents path contents).mapError (·.map .unreadable))

end Workload

end FeedbackQueue
