import RecordSearch.Program

/-!
Compiling a query into a program. Each clause becomes one set, made by at most three calls, and
the sets are intersected in the order of the clauses. A clause on the id field selects by the
record's own id and by the field, and unites the two.
-/

set_option autoImplicit false

namespace RecordSearch
variable {ρ σ ε : Type} [ResultSet σ]

def lookUp (id : RecordId) : Program ρ σ ε σ := do
  match ← Program.fetchRecord id with
  | some record => Program.selectRecords (.singleton record)
  | none =>
      Program.report (.noRecord id)
      return ResultSet.empty

def Clause.compile (type : RecordType) (c : Clause) : Program ρ σ ε σ := do
  Program.report (.compilingClause c)
  match c with
  | .malformedId _ | .malformedClause _ => return ResultSet.empty
  | .idLookup id => lookUp ⟨type.id, id⟩
  | .idEquals field id =>
      let byId ← lookUp ⟨type.id, id⟩
      let byField ← Program.selectRecords (.equals type.name field id.toNat.repr)
      return ResultSet.union byId byField
  | .idRange field low high =>
      let byId ← Program.selectRecords (.idsWithin type.name low high)
      let byField ← Program.selectRecords (.valuesWithin type.name field low high)
      return ResultSet.union byId byField
  | .fieldEquals field value => Program.selectRecords (.equals type.name field value)
  | .fieldStartsWith field start => Program.selectRecords (.startsWith type.name field start)

/-- The records that match every clause, all records of the type if there is none. -/
def Query.compile (type : RecordType) (q : Query) : Program ρ σ ε σ := do
  Program.report (.compilingQuery type q.size)
  match q.clauses with
  | [] => Program.selectRecords (.all type.name)
  | c :: cs =>
      let first ← c.compile type
      cs.foldlM (fun s c => return ResultSet.inter s (← c.compile type)) first

end RecordSearch
