import FeedbackQueue.Json.Error
import FeedbackQueue.Json.Value

/-!
# Configurations

The knobs of a multilevel feedback queue, fixed for one run. A `Config` is
valid by construction: every quantum is positive and every I/O slice takes at
least one unit of time. `Settings.validate` names the first knob that is not.
-/

namespace FeedbackQueue

/-- Five numbers that may or may not make a configuration. -/
structure Settings where
  numQueues : Int
  baseQuantum : Int
  boostInterval : Int
  ioDuration : Int
  ioSliceDivisor : Int
deriving DecidableEq, Repr

def Settings.standard : Settings := ⟨3, 10, 50, 10, 5⟩

inductive ConfigError where
  | numQueues (n : Int)
  | baseQuantum (n : Int)
  | boostInterval (n : Int)
  | ioDuration (n : Int)
  | ioSliceDivisor (n : Int)
  /-- An I/O slice of level 0 would take no time. -/
  | emptySlice (baseQuantum ioSliceDivisor : Int)
  | unknownKeys (keys : List String)
  | notInteger (key : String) (value : Json.Value)
  | notObject
  | unreadable (reason : String)
  /-- The overrides of a request are not an object. -/
  | overridesNotObject

namespace ConfigError

def phrase : ConfigError → Text.Phrase
  | .numQueues n => ["num_queues must be at least 1, got ", n]
  | .baseQuantum n => ["base_quantum must be positive, got ", n]
  | .boostInterval n => ["boost_interval must be positive, got ", n]
  | .ioDuration n => ["io_duration must be non-negative, got ", n]
  | .ioSliceDivisor n => ["io_slice_divisor must be positive, got ", n]
  | .emptySlice quantum divisor =>
    ["base_quantum (", quantum, ") must be at least io_slice_divisor (", divisor, ")"]
  | .unknownKeys keys => ["Unknown configuration keys: " ++ ", ".intercalate keys]
  | .notInteger key value => .words s!"{key} must be an integer, got " :: value.display
  | .notObject => ["Configuration file must contain a JSON object"]
  | .unreadable reason => [s!"Cannot load configuration: {reason}"]
  | .overridesNotObject => ["'config' must be an object"]

def message (e : ConfigError) : String := e.phrase.text

/-- A setting that cannot be quoted is not even rejected. -/
def raised (e : ConfigError) : LoadError ConfigError :=
  e.phrase.raise (.fault ∘ .numeral) (.rejected e)

end ConfigError

structure Config where
  numQueues : Nat
  /-- The quantum of level 0; each level below doubles it. -/
  baseQuantum : Int
  boostInterval : Int
  /-- How long a process that yielded for I/O stays blocked. -/
  ioDuration : Int
  /-- An I/O-bound process uses this fraction of its quantum before it yields. -/
  ioSliceDivisor : Int
  numQueues_pos : 0 < numQueues
  baseQuantum_pos : 0 < baseQuantum
  boostInterval_pos : 0 < boostInterval
  ioDuration_nonneg : 0 ≤ ioDuration
  ioSliceDivisor_pos : 0 < ioSliceDivisor
  ioSliceDivisor_le : ioSliceDivisor ≤ baseQuantum
deriving Repr

def Settings.validate (s : Settings) : Except (LoadError ConfigError) Config :=
  if hn : 0 < s.numQueues then
    if hq : 0 < s.baseQuantum then
      if hb : 0 < s.boostInterval then
        if hi : 0 ≤ s.ioDuration then
          if hd : 0 < s.ioSliceDivisor then
            if hle : s.ioSliceDivisor ≤ s.baseQuantum then
              .ok ⟨s.numQueues.toNat, s.baseQuantum, s.boostInterval, s.ioDuration,
                s.ioSliceDivisor, by omega, hq, hb, hi, hd, hle⟩
            else .error (ConfigError.emptySlice s.baseQuantum s.ioSliceDivisor).raised
          else .error (ConfigError.ioSliceDivisor s.ioSliceDivisor).raised
        else .error (ConfigError.ioDuration s.ioDuration).raised
      else .error (ConfigError.boostInterval s.boostInterval).raised
    else .error (ConfigError.baseQuantum s.baseQuantum).raised
  else .error (ConfigError.numQueues s.numQueues).raised

/-- A priority level that does not exist in a configuration. -/
inductive RangeError where
  | levelOutside (level : Int) (numQueues : Nat)
  | numeral (e : Text.NumeralError)
deriving DecidableEq, Repr

namespace RangeError

def phrase : RangeError → Text.Phrase
  | .levelOutside level numQueues =>
    ["Queue level ", level, " out of range [0, ", numQueues, ")"]
  | .numeral e => [e.message]

def message (e : RangeError) : String := e.phrase.text

def raised (e : RangeError) : RangeError := e.phrase.raise .numeral e

end RangeError

namespace Config

def standard : Config :=
  ⟨Settings.standard.numQueues.toNat, Settings.standard.baseQuantum,
    Settings.standard.boostInterval, Settings.standard.ioDuration,
    Settings.standard.ioSliceDivisor, by decide, by decide, by decide, by decide, by decide,
    by decide⟩

def settings (c : Config) : Settings :=
  ⟨c.numQueues, c.baseQuantum, c.boostInterval, c.ioDuration, c.ioSliceDivisor⟩

def lowestLevel (c : Config) : Nat := c.numQueues - 1

def quantum (c : Config) (level : Nat) : Int := c.baseQuantum * Nat.pow 2 level

/-- The quanta of all levels, top first. -/
def quanta (c : Config) : List Int := (List.range c.numQueues).map c.quantum

def quantumFor (c : Config) (level : Int) : Except RangeError Int :=
  if 0 ≤ level ∧ level < c.numQueues then .ok (c.quantum level.toNat)
  else .error (RangeError.levelOutside level c.numQueues).raised

/-- How long an I/O-bound process runs at a level before it yields. -/
def ioSlice (c : Config) (level : Int) : Except RangeError Int :=
  (c.quantumFor level).map (· / c.ioSliceDivisor)

end Config

end FeedbackQueue
