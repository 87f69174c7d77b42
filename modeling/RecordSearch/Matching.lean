import RecordSearch.Query
import RecordSearch.Record

/-!
What a query asks for, said of one record at a time and without a store. Ids count for the type
id that is searched, fields for the type name.
-/

set_option autoImplicit false

namespace RecordSearch

def Clause.Matches (type : RecordType) (r : Record) : Clause → Prop
  | .malformedId _ | .malformedClause _ => False
  | .idLookup id => r.id = ⟨type.id, id⟩
  | .idEquals field id =>
      r.id = ⟨type.id, id⟩ ∨
        r.typeName = type.name ∧ (field, .text id.toNat.repr) ∈ r.properties.toList
  | .idRange field low high =>
      r.typeName = type.name ∧
        (low ≤ r.id.localId ∧ r.id.localId ≤ high ∨
          ∃ n : Int64, (field, .integer n) ∈ r.properties.toList ∧
            (low.toNat : Int) ≤ n.toInt ∧ n.toInt ≤ (high.toNat : Int))
  | .fieldEquals field value =>
      r.typeName = type.name ∧ (field, .text value) ∈ r.properties.toList
  | .fieldStartsWith field start =>
      r.typeName = type.name ∧
        ∃ s : String, (field, .text s) ∈ r.properties.toList ∧ start.toList <+: s.toList

/-- The record matches every clause; without clauses, it is of the type. -/
def Query.Matches (type : RecordType) (r : Record) (q : Query) : Prop :=
  (q.clauses = [] → r.typeName = type.name) ∧ ∀ c ∈ q.clauses, c.Matches type r

end RecordSearch
