import RecordSearch.Operator
import RecordSearch.RecordId

/-!
Clauses: the predicates that a search expression joins. A clause that could not be read keeps
its text. The display of a clause is what one would type for it.
-/

set_option autoImplicit false

namespace RecordSearch

inductive Literal where
  | text (s : String)
  | integer (n : LocalId)
  | range (low high : LocalId)
  deriving DecidableEq, Repr

namespace Literal

def isText : Literal → Bool
  | .text _ => true
  | _ => false

def isInteger : Literal → Bool
  | .integer _ => true
  | _ => false

def isRange : Literal → Bool
  | .range .. => true
  | _ => false

def text? : Literal → Option String
  | .text s => some s
  | _ => none

def integer? : Literal → Option LocalId
  | .integer n => some n
  | _ => none

def range? : Literal → Option (LocalId × LocalId)
  | .range low high => some (low, high)
  | _ => none

def display : Literal → String
  | .text s => s
  | .integer n => n.toNat.repr
  | .range low high => "[" ++ low.toNat.repr ++ "," ++ high.toNat.repr ++ "]"

end Literal

inductive Clause where
  /-- A bare clause, or a value of the id field, that is not an id. -/
  | malformedId (text : String)
  /-- An operator with no field before it. -/
  | malformedClause (text : String)
  | idLookup (id : LocalId)
  /-- The record with this id, or those whose field holds the decimal text of the id. -/
  | idEquals (field : String) (id : LocalId)
  /-- The records with these ids, or those whose field holds an integer in the range. -/
  | idRange (field : String) (low high : LocalId)
  | fieldEquals (field value : String)
  | fieldStartsWith (field start : String)
  deriving DecidableEq, Repr

namespace Clause

inductive Kind where
  | malformedId
  | malformedClause
  | idLookup
  | idEquals
  | idRange
  | fieldEquals
  | fieldStartsWith
  deriving DecidableEq, Repr

def Kind.name : Kind → String
  | .malformedId => "malformed-id"
  | .malformedClause => "malformed-clause"
  | .idLookup => "id-lookup"
  | .idEquals => "id-equals"
  | .idRange => "id-range"
  | .fieldEquals => "field-equals"
  | .fieldStartsWith => "field-prefix"

def kind : Clause → Kind
  | .malformedId _ => .malformedId
  | .malformedClause _ => .malformedClause
  | .idLookup _ => .idLookup
  | .idEquals .. => .idEquals
  | .idRange .. => .idRange
  | .fieldEquals .. => .fieldEquals
  | .fieldStartsWith .. => .fieldStartsWith

def isMalformed : Clause → Bool
  | .malformedId _ | .malformedClause _ => true
  | _ => false

def field? : Clause → Option String
  | .malformedId _ | .malformedClause _ | .idLookup _ => none
  | .idEquals field _ | .idRange field _ _ | .fieldEquals field _ | .fieldStartsWith field _ =>
      some field

def operator? : Clause → Option Operator
  | .malformedId _ | .malformedClause _ => none
  | .idLookup _ => some .lookup
  | .idEquals .. | .idRange .. | .fieldEquals .. => some .equals
  | .fieldStartsWith .. => some .startsWith

def literal? : Clause → Option Literal
  | .malformedId _ | .malformedClause _ => none
  | .idLookup id | .idEquals _ id => some (.integer id)
  | .idRange _ low high => some (.range low high)
  | .fieldEquals _ value => some (.text value)
  | .fieldStartsWith _ start => some (.text start)

/-- No blanks around the operator and no leading zeros, whatever was typed. -/
def display : Clause → String
  | .malformedId text | .malformedClause text => text
  | .idLookup id => id.toNat.repr
  | .idEquals field id => field ++ "=" ++ id.toNat.repr
  | .idRange field low high =>
      field ++ "=[" ++ low.toNat.repr ++ "," ++ high.toNat.repr ++ "]"
  | .fieldEquals field value => field ++ "=" ++ value
  | .fieldStartsWith field start => field ++ "~" ++ start

theorem operator?_eq_none_iff {c : Clause} : c.operator? = none ↔ c.isMalformed := by
  cases c <;> simp [operator?, isMalformed]

end Clause
end RecordSearch
