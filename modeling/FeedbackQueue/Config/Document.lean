import FeedbackQueue.Config.Basic
import FeedbackQueue.Json.File

/-!
# Configurations as documents

A configuration is written as an object of its five settings with the derived
quanta. Reading takes missing settings from the standard ones and ignores any
`quanta`.
-/

namespace FeedbackQueue

def Settings.keys : List String :=
  ["num_queues", "base_quantum", "boost_interval", "io_duration", "io_slice_divisor"]

namespace Json

/-- The integer under a key, or `fallback` when the key is missing. -/
def Members.settingOr (members : Members) (fallback : Int) (key : String) :
    Except (LoadError ConfigError) Int :=
  match members.lookup key with
  | none => .ok fallback
  | some (.int n) => .ok n
  | some value => .error (ConfigError.notInteger key value).raised

/-- The keys that are no part of a configuration, in ascending order. -/
def Members.unknownKeys (members : Members) : List String :=
  let unknown := (members.map (·.1)).filter fun key => key ∉ "quanta" :: Settings.keys
  unknown.mergeSort fun a b => a ≤ b

end Json

def Settings.ofMembers (members : Json.Members) : Except (LoadError ConfigError) Settings := do
  if members.unknownKeys ≠ [] then
    throw (ConfigError.unknownKeys members.unknownKeys).raised
  return {
    numQueues := ← members.settingOr standard.numQueues "num_queues"
    baseQuantum := ← members.settingOr standard.baseQuantum "base_quantum"
    boostInterval := ← members.settingOr standard.boostInterval "boost_interval"
    ioDuration := ← members.settingOr standard.ioDuration "io_duration"
    ioSliceDivisor := ← members.settingOr standard.ioSliceDivisor "io_slice_divisor" }

namespace Config

def ofMembers (members : Json.Members) : Except (LoadError ConfigError) Config := do
  (← Settings.ofMembers members).validate

def toMembers (c : Config) : Json.Members := [
  ("num_queues", .int c.numQueues),
  ("base_quantum", .int c.baseQuantum),
  ("boost_interval", .int c.boostInterval),
  ("io_duration", .int c.ioDuration),
  ("io_slice_divisor", .int c.ioSliceDivisor),
  ("quanta", .arr (c.quanta.map .int))]

/-- The configuration in the contents found at a path. -/
def ofContents (path : String) (contents : Contents) :
    Except (LoadError ConfigError) Config := do
  match ← (Json.ofContents path contents).mapError (·.map .unreadable) with
  | .obj members => ofMembers members
  | _ => throw (.rejected .notObject)

end Config

end FeedbackQueue
