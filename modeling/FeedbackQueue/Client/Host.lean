import FeedbackQueue.Json.Parser
import FeedbackQueue.Text.Fields

/-!
# Hosts in brackets

A host in brackets is a version 6 address, in groups of hexadecimal digits, or an
address of a later version.
-/

namespace FeedbackQueue.Client.Host

open Json (isDigit digitsValue)
open Text (fields hexValue?)

/-- A decimal number up to 255 without leading zeros. -/
def isOctet (s : List Char) : Bool :=
  s ≠ [] && s.length ≤ 3 && s.all isDigit && (s = ['0'] || s.head? ≠ some '0') &&
    digitsValue s ≤ 255

def isVersion4 (s : List Char) : Bool :=
  let octets := fields '.' s
  octets.length = 4 && octets.all isOctet

def isGroup (s : List Char) : Bool :=
  s ≠ [] && s.length ≤ 4 && s.all fun c => (hexValue? c).isSome

/-- Groups on one side of a gap: none, which leaves the outer end empty, or some. -/
def isSide (groups : List (List Char)) : Bool := groups = [[]] || groups.all isGroup

def sideLength (groups : List (List Char)) : Nat := if groups = [[]] then 0 else groups.length

/-- Eight groups, or fewer around one gap. -/
def areGroups (groups : List (List Char)) : Bool :=
  match groups with
  | [] => false
  | first :: rest =>
    let before := first :: rest.takeWhile (· ≠ [])
    match rest.dropWhile (· ≠ []) with
    | [] => groups.length = 8 && groups.all isGroup
    | [_] => false
    | _ :: after =>
      isSide before && isSide after && sideLength before + sideLength after < 8

/-- A version 4 address at the end stands for two groups. -/
def expandLast (groups : List (List Char)) : Option (List (List Char)) :=
  match groups.getLast? with
  | none => none
  | some last =>
    if '.' ∈ last then
      if isVersion4 last then some (groups.dropLast ++ [['0'], ['0']]) else none
    else some groups

/-- A zone may follow the groups after a percent sign. -/
def isVersion6 (s : List Char) : Bool :=
  let zone := s.dropWhile (· ≠ '%')
  let groups := fields ':' (s.takeWhile (· ≠ '%'))
  (zone = [] || (zone.tail ≠ [] && '%' ∉ zone.tail)) && 3 ≤ groups.length &&
    (expandLast groups).any areGroups

/-- The letter `v`, a hexadecimal version, a point and something after it. -/
def isFuture (s : List Char) : Bool :=
  match s with
  | 'v' :: rest =>
    let version := rest.takeWhile fun c => (hexValue? c).isSome
    match rest.dropWhile fun c => (hexValue? c).isSome with
    | '.' :: _ :: _ => version ≠ []
    | _ => false
  | _ => false

end FeedbackQueue.Client.Host
