import RecordSearch.Program
import RecordSearch.Store

set_option autoImplicit false

namespace RecordSearch

inductive Condition where
  | equals (value : String)
  | startsWith (start : String)
  | within (low high : LocalId)

namespace Condition

/-- An integer is in the range if it is so as a number: a negative one never is. -/
def holds : Condition → PropertyValue → Bool
  | .equals value, v => v.text? == some value
  | .startsWith start, v => v.text?.any fun s => start.toList.isPrefixOf s.toList
  | .within low high, v =>
      v.integer?.any fun n => decide ((low.toNat : Int) ≤ n.toInt ∧ n.toInt ≤ (high.toNat : Int))

end Condition

namespace Store

def span? (s : Store) (typeName : String) (low high : LocalId) : Option (Span RecordId) := do
  let typeId ← s.typeId? typeName
  if h : low ≤ high then
    some ⟨⟨typeId, low⟩, ⟨typeId, high⟩, by
      rw [RecordId.compare_mk]
      exact Std.isLE_compare.mpr h⟩
  else none

def idsWithin (s : Store) (typeName : String) (low high : LocalId) : RecordSet :=
  match s.span? typeName low high with
  | none => .empty
  | some span => s.records.within span

def allOf (s : Store) (typeName : String) : RecordSet := s.idsWithin typeName 0 .greatest

def withField (s : Store) (typeName field : String) (condition : Condition) : RecordSet :=
  (s.allOf typeName).filter fun r => (r.property? field).any condition.holds

def select (s : Store) : Selection Record → RecordSet
  | .all typeName => s.allOf typeName
  | .singleton record => .singleton record
  | .equals typeName field value => s.withField typeName field (.equals value)
  | .startsWith typeName field start => s.withField typeName field (.startsWith start)
  | .idsWithin typeName low high => s.idsWithin typeName low high
  | .valuesWithin typeName field low high => s.withField typeName field (.within low high)

def transaction (s : Store) : Transaction Record RecordSet Empty where
  fetch id := .ok (s.find? id)
  select selection := .ok (s.select selection)

def run {α : Type} (s : Store) (p : Program Record RecordSet Empty α) : Run Record Empty α :=
  p.run s.transaction.session 0

def recordsOf (s : Store) (ids : List RecordId) : RecordSet := .ofList (ids.filterMap s.find?)

/-- The type of this name, with the given id; else with the store's, or zero for a new name. -/
def recordType (s : Store) (typeName : String) (typeId : Option TypeId) : RecordType :=
  ⟨typeName, typeId.getD ((s.typeId? typeName).getD 0)⟩

end Store
end RecordSearch
