import BlockWatch.Decimal.Double

/-!
# JSON values

Normative source: SPEC_FULL.md, section 3, for the "remaining opaque RPC fields" that a transaction
carries through unchanged.

Numbers are integers or doubles, and the two are different values.  The members of an object are
kept as a list.  `insertMember` keeps that list in ascending order of its keys with one member for
each key, which is the order in which objects are read and written; `ofMembers` makes an object of
members in any order.
-/

set_option autoImplicit false

namespace BlockWatch

/-- A number of a JSON text: an integer that fits 64 bits, or a double. -/
inductive JsonNumber where
  | int (n : Int)
  | float (d : Decimal.Double)
  deriving DecidableEq, Repr, Inhabited

/-- A JSON value. -/
inductive Json where
  | null
  | bool (b : Bool)
  | number (n : JsonNumber)
  | string (s : String)
  | array (items : List Json)
  | object (members : List (String × Json))
  deriving Repr, Inhabited

namespace Json

/-- The members of an object with one more; a member under the same key is replaced. -/
def insertMember (key : String) (value : Json) : List (String × Json) → List (String × Json)
  | [] => [(key, value)]
  | (other, present) :: rest =>
      if key = other then (key, value) :: rest
      else if key < other then (key, value) :: (other, present) :: rest
      else (other, present) :: insertMember key value rest

/-- Members in ascending order of their keys; of several under one key the last one counts. -/
def orderMembers (members : List (String × Json)) : List (String × Json) :=
  members.foldl (fun ordered member => insertMember member.1 member.2 ordered) []

/-- The object with these members; of several under one key the last one counts. -/
def ofMembers (members : List (String × Json)) : Json := .object (orderMembers members)

/-- The member of an object under a key. -/
def member? (key : String) : Json → Option Json
  | .object members => members.lookup key
  | _ => none

/-- An integer. -/
def int (n : Int) : Json := .number (.int n)

/-- The value of an integer that is not negative. -/
def natural? : Json → Option Nat
  | .number (.int n) => if 0 ≤ n then some n.toNat else none
  | _ => none

/-- A text, or null where there is none. -/
def ofText? : Option String → Json
  | some s => .string s
  | none => .null

end Json

end BlockWatch
