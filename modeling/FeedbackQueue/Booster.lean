import FeedbackQueue.Bank

/-!
# Priority boosts

An interval timer on the virtual clock. When it fires, everything that waits
below the top level moves up, and the interval starts again even if nothing
was waiting there.
-/

namespace FeedbackQueue

inductive BoostError where
  | nonpositiveInterval (interval : Int)
  | numeral (e : Text.NumeralError)
deriving DecidableEq, Repr

namespace BoostError

def phrase : BoostError → Text.Phrase
  | .nonpositiveInterval interval => ["Boost interval must be positive, got ", interval]
  | .numeral e => [e.message]

def message (e : BoostError) : String := e.phrase.text

def raised (e : BoostError) : BoostError := e.phrase.raise .numeral e

end BoostError

structure Booster where
  interval : Int
  /-- When the timer last fired, 0 before the first time. -/
  last : Int
  /-- How often the timer has fired. -/
  count : Nat
  interval_pos : 0 < interval
deriving Repr

namespace Booster

def make (interval : Int) : Except BoostError Booster :=
  if h : 0 < interval then .ok ⟨interval, 0, 0, h⟩
  else .error (BoostError.nonpositiveInterval interval).raised

def due (t : Booster) (now : Int) : Bool := t.interval ≤ now - t.last

def fire (t : Booster) (now : Int) : Booster := { t with last := now, count := t.count + 1 }

/-- The timer and the bank after firing, or nothing when no boost is due. -/
def fire? (t : Booster) (now : Int) (bank : Bank n) : Option (Booster × Bank n) :=
  if t.due now then some (t.fire now, bank.raiseAll) else none

end Booster

end FeedbackQueue
