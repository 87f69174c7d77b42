import RecordSearch.Program

/-!
Plans: results that are not computed but written down, as the calls that select them and the
operations that join them. Records are told by their ids alone.
-/

set_option autoImplicit false

namespace RecordSearch

inductive Plan where
  | empty
  | leaf (selection : Selection RecordId)
  | union (a b : Plan)
  | inter (a b : Plan)
  deriving DecidableEq, Repr

namespace Plan

/-- A bound on the size of the result if each selection gives one record. -/
def size : Plan → Nat
  | .empty => 0
  | .leaf _ => 1
  | .union a b => a.size + b.size
  | .inter a b => min a.size b.size

instance : ResultSet Plan := ⟨.empty, .union, .inter, size⟩

structure Outage where
  call : Nat
  deriving DecidableEq, Repr

def Outage.message (outage : Outage) : String := "store down at call " ++ outage.call.repr

/-- The records with these ids exist; every selection is written down. -/
def transaction (existing : List RecordId) : Transaction RecordId Plan Outage where
  fetch id := .ok (if id ∈ existing then some id else none)
  select selection := .ok (.leaf selection)

def session (existing : List RecordId) : Option Nat → Session RecordId Plan Outage
  | none => (transaction existing).session
  | some k => (transaction existing).sessionFailingAt k ⟨k⟩

end Plan
end RecordSearch
