import RecordSearch.Clause.Reading
import RecordSearch.Dialect
import RecordSearch.Text.Word

/-!
Queries: clauses in the order in which they were typed, all of which a record has to match.
A dialect reads an expression by splitting it at the conjunction and reading each part.
-/

set_option autoImplicit false

namespace RecordSearch

/-- A query without clauses matches every record of the searched type. -/
structure Query where
  clauses : List Clause
  deriving DecidableEq, Repr

namespace Query

def empty : Query := ⟨[]⟩

def and (q : Query) (c : Clause) : Query := ⟨q.clauses ++ [c]⟩

def ofList (clauses : List Clause) : Query := ⟨clauses⟩

def size (q : Query) : Nat := q.clauses.length

def isEmpty (q : Query) : Bool := q.clauses.isEmpty

def isUnsatisfiable (q : Query) : Bool := q.clauses.any Clause.isMalformed

def displayWith (q : Query) (conjunction : String) : String :=
  (" " ++ conjunction ++ " ").intercalate (q.clauses.map Clause.display)

def display (q : Query) : String := q.displayWith Dialect.standard.conjunction

theorem foldl_and (q : Query) (cs : List Clause) : cs.foldl and q = ⟨q.clauses ++ cs⟩ := by
  induction cs generalizing q with
  | nil => simp
  | cons c cs ih => simp [ih, and]

end Query

namespace Dialect
open Text

/-- The trimmed parts of an expression; an absent or blank expression has none. -/
def conjuncts (d : Dialect) (expression : Option String) : List String :=
  match (expression.map fun text => trim text.toList).filter fun t => !t.isEmpty with
  | none => []
  | some t => (splitAtWord d.conjunction.toList t).map String.ofList

def parse (d : Dialect) (expression : Option String) : Query :=
  ⟨(d.conjuncts expression).map (Clause.ofText d.idField)⟩

def rereads (d : Dialect) (q : Query) : Bool :=
  d.parse (some (q.displayWith d.conjunction)) = q

end Dialect
end RecordSearch
