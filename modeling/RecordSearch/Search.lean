import RecordSearch.Compile

set_option autoImplicit false

namespace RecordSearch
variable {ρ σ ε : Type}

namespace Dialect

def readPart (d : Dialect) (part : String) : Program ρ σ ε Clause := do
  let c := Clause.ofText d.idField part
  Program.report (.classified part c.kind)
  return c

def read (d : Dialect) (expression : Option String) : Program ρ σ ε Query :=
  return ⟨← (d.conjuncts expression).mapM d.readPart⟩

theorem run_mapM_readPart (d : Dialect) (session : Session ρ σ ε) (turn : Nat)
    (parts : List String) :
    (parts.mapM d.readPart).run session turn =
      ⟨[], parts.map fun part => .classified part (Clause.ofText d.idField part).kind,
        .ok (parts.map (Clause.ofText d.idField))⟩ := by
  induction parts with
  | nil => rfl
  | cons part parts ih =>
    have h : (d.readPart part).run session turn =
        ⟨[], [.classified part (Clause.ofText d.idField part).kind],
          .ok (Clause.ofText d.idField part)⟩ := rfl
    simp [List.mapM_cons, Program.run_bind, Program.run_map, h, ih, Except.map]

theorem run_read (d : Dialect) (expression : Option String) (session : Session ρ σ ε)
    (turn : Nat) :
    (d.read expression).run session turn =
      ⟨[], (d.conjuncts expression).map fun part =>
          .classified part (Clause.ofText d.idField part).kind,
        .ok (d.parse expression)⟩ := by
  simp [read, parse, Program.run_map, run_mapM_readPart, Except.map]

def search [ResultSet σ] (d : Dialect) (expression : Option String) (type : RecordType) :
    Program ρ σ ε σ := do
  let q ← d.read expression
  Program.report (.parsed (q.displayWith d.conjunction))
  q.compile type

theorem run_search [ResultSet σ] (d : Dialect) (expression : Option String) (type : RecordType)
    (session : Session ρ σ ε) (turn : Nat) :
    (d.search expression type : Program ρ σ ε σ).run session turn =
      let rest := ((d.parse expression).compile type).run session turn
      ⟨rest.calls,
        ((d.conjuncts expression).map fun part =>
          .classified part (Clause.ofText d.idField part).kind) ++
          .parsed ((d.parse expression).displayWith d.conjunction) :: rest.events,
        rest.result⟩ := by
  simp only [search, Program.run_bind, run_read]
  rfl

end Dialect

def search [ResultSet σ] (expression : Option String) (type : RecordType) : Program ρ σ ε σ := do
  let q ← Dialect.standard.read expression
  q.compile type

/-- Searches in the given dialect once it is accepted, in the standard one if none is given. -/
def searchIn [ResultSet σ] (dialect : Option Dialect) (expression : Option String)
    (type : RecordType) : Except SearchError (Program ρ σ ε σ) :=
  match dialect with
  | none => .ok (search expression type)
  | some d => d.check.map fun _ => d.search expression type

end RecordSearch
