import FeedbackQueue.Text.Numeral

/-!
# Job specifications

What a caller says about one job before it runs. A `Spec` is schedulable by
construction; `Spec.make` names the first reason why a description is not.
-/

namespace FeedbackQueue

inductive SpecError where
  | negativePid (pid : Int)
  | negativeArrival (pid arrival : Int)
  | nonpositiveBurst (pid burst : Int)
  | numeral (e : Text.NumeralError)
deriving DecidableEq, Repr

namespace SpecError

def phrase : SpecError → Text.Phrase
  | .negativePid pid => ["pid must be non-negative, got ", pid]
  | .negativeArrival pid arrival =>
    ["Process ", pid, ": arrival_time must be non-negative, got ", arrival]
  | .nonpositiveBurst pid burst => ["Process ", pid, ": burst_time must be positive, got ", burst]
  | .numeral e => [e.message]

def message (e : SpecError) : String := e.phrase.text

def raised (e : SpecError) : SpecError := e.phrase.raise .numeral e

end SpecError

structure Spec where
  pid : Int
  arrival : Int
  burst : Int
  /-- The job gives up the CPU early to wait for I/O. -/
  ioBound : Bool
  name : Option String
  pid_nonneg : 0 ≤ pid
  arrival_nonneg : 0 ≤ arrival
  burst_pos : 0 < burst
deriving DecidableEq, Repr

def Spec.make (pid arrival burst : Int) (ioBound : Bool) (name : Option String) :
    Except SpecError Spec :=
  if hp : 0 ≤ pid then
    if ha : 0 ≤ arrival then
      if hb : 0 < burst then .ok ⟨pid, arrival, burst, ioBound, name, hp, ha, hb⟩
      else .error (SpecError.nonpositiveBurst pid burst).raised
    else .error (SpecError.negativeArrival pid arrival).raised
  else .error (SpecError.negativePid pid).raised

def kindLabel (ioBound : Bool) : String :=
  if ioBound then "I/O-bound" else "CPU-bound"

namespace Spec

/-- The name shown for the job: its own, or one made from the pid. -/
def label (spec : Spec) : String :=
  spec.name.getD s!"P{spec.pid}"

/-- The name can be shown, which may only fail if it is made from the pid. -/
def hasLabel (spec : Spec) : Bool := spec.name.isSome || Text.isWritable spec.pid

def kind (spec : Spec) : String :=
  kindLabel spec.ioBound

end Spec

end FeedbackQueue
