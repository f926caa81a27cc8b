import FeedbackQueue.Binary64.Decimal
import FeedbackQueue.Text.Numeral
import FeedbackQueue.Text.Quoted

/-!
# Documents

Decoded JSON. Integers and floating-point numbers are kept apart, and an object
keeps its members in order, each key once.
-/

namespace FeedbackQueue.Json

inductive Value where
  | null
  | bool (b : Bool)
  | int (n : Int)
  | float (x : Number)
  | str (s : String)
  | arr (items : List Value)
  | obj (members : List (String × Value))
deriving BEq, Repr

abbrev Members := List (String × Value)

/-- A later value for a key replaces the earlier one and keeps its place. -/
def Members.insert : Members → String → Value → Members
  | [], key, value => [(key, value)]
  | (k, v) :: rest, key, value =>
    if k = key then (k, value) :: rest else (k, v) :: Members.insert rest key value

namespace Value

/-- The name of the value's type in diagnostics. -/
def typeName : Value → String
  | .null => "NoneType"
  | .bool _ => "bool"
  | .int _ => "int"
  | .float _ => "float"
  | .str _ => "str"
  | .arr _ => "list"
  | .obj _ => "dict"

mutual
/-- The value as diagnostics show it. -/
def display : Value → Text.Phrase
  | .null => ["None"]
  | .bool true => ["True"]
  | .bool false => ["False"]
  | .int n => [n]
  | .float x => [x.text]
  | .str s => [Text.quoted s]
  | .arr items => .concat [["["], .join ", " (displayItems items), ["]"]]
  | .obj members => .concat [["\x7b"], .join ", " (displayMembers members), ["\x7d"]]

def displayItems : List Value → List Text.Phrase
  | [] => []
  | item :: rest => item.display :: displayItems rest

def displayMembers : List (String × Value) → List Text.Phrase
  | [] => []
  | (key, value) :: rest => (.words (Text.quoted key ++ ": ") :: value.display) ::
      displayMembers rest
end

mutual
/-- Every integer in the document is short enough to be written. -/
def isWritable : Value → Bool
  | .int n => Text.isWritable n
  | .arr items => itemsWritable items
  | .obj members => membersWritable members
  | _ => true

def itemsWritable : List Value → Bool
  | [] => true
  | item :: rest => item.isWritable && itemsWritable rest

def membersWritable : List (String × Value) → Bool
  | [] => true
  | (_, value) :: rest => value.isWritable && membersWritable rest
end

mutual
/-- A value can be shown exactly when every integer in it can be written. -/
theorem isWritable_display : (v : Value) → v.display.isWritable = v.isWritable
  | .null | .bool true | .bool false | .int _ | .float _ | .str _ => by simp [display, isWritable]
  | .arr items => by simp [display, isWritable, all_isWritable_displayItems items]
  | .obj members => by simp [display, isWritable, all_isWritable_displayMembers members]

theorem all_isWritable_displayItems :
    (items : List Value) → (displayItems items).all Text.Phrase.isWritable = itemsWritable items
  | [] => rfl
  | item :: rest => by
    simp [displayItems, itemsWritable, isWritable_display item, all_isWritable_displayItems rest]

theorem all_isWritable_displayMembers :
    (members : List (String × Value)) →
      (displayMembers members).all Text.Phrase.isWritable = membersWritable members
  | [] => rfl
  | (_, value) :: rest => by
    simp [displayMembers, membersWritable, isWritable_display value,
      all_isWritable_displayMembers rest]
end

theorem isWritable_of_mem (hitems : itemsWritable items) (h : v ∈ items) : v.isWritable := by
  induction items with
  | nil => cases h
  | cons item rest ih =>
    obtain ⟨hitem, hrest⟩ := Bool.and_eq_true_iff.mp hitems
    cases h with
    | head => exact hitem
    | tail _ h => exact ih hrest h

theorem isWritable_of_lookup (hmembers : membersWritable members)
    (h : members.lookup key = some v) : v.isWritable := by
  induction members with
  | nil => cases h
  | cons member rest ih =>
    obtain ⟨hmember, hrest⟩ := Bool.and_eq_true_iff.mp hmembers
    rw [List.lookup_cons] at h
    split at h
    · cases h
      exact hmember
    · exact ih hrest h

def ofInt? : Option Int → Value
  | some n => .int n
  | none => .null

def ofStr? : Option String → Value
  | some s => .str s
  | none => .null

end Value

end FeedbackQueue.Json
