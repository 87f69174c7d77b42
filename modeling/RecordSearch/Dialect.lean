import RecordSearch.Error
import RecordSearch.Operator
import RecordSearch.Text.Blank

/-!
A dialect of the expression language: the keyword that joins clauses and the field name that
stands for record ids. A dialect is accepted when both are words that an expression can hold.
-/

set_option autoImplicit false

namespace RecordSearch

def wordFault? (word : String) : Option WordFault :=
  if word.toList.isEmpty then some .empty
  else if word.toList.any Text.isBlank then some .blank
  else if word.toList.any Operator.isSymbol then some .operator
  else none

theorem wordFault?_eq_none_iff {word : String} :
    wordFault? word = none ↔
      word.toList ≠ [] ∧ ∀ c ∈ word.toList, !Text.isBlank c ∧ c ≠ '=' ∧ c ≠ '~' := by
  have h : ∀ c, Operator.isSymbol c = false ↔ c ≠ '=' ∧ c ≠ '~' := fun c => by
    rw [← Bool.not_eq_true, Operator.isSymbol_iff, not_or]
  grind [wordFault?]

structure Dialect where
  conjunction : String
  idField : String
  deriving DecidableEq, Repr

namespace Dialect

def standard : Dialect := ⟨"and", "id"⟩

def Accepted (d : Dialect) : Prop := wordFault? d.conjunction = none ∧ wordFault? d.idField = none

instance (d : Dialect) : Decidable d.Accepted := inferInstanceAs (Decidable (_ ∧ _))

/-- The fault of a dialect that is not accepted; that of the conjunction is told first. -/
def check (d : Dialect) : Except SearchError Unit :=
  match wordFault? d.conjunction, wordFault? d.idField with
  | some fault, _ => .error (.invalidConjunction d.conjunction fault)
  | none, some fault => .error (.invalidIdField d.idField fault)
  | none, none => .ok ()

theorem check_eq_ok_iff {d : Dialect} : d.check = .ok () ↔ d.Accepted := by
  unfold check Accepted
  split <;> simp_all

theorem standard_accepted : standard.Accepted := by decide

def choose : Option Dialect → Except SearchError Dialect
  | none => .ok standard
  | some d => d.check.map fun _ => d

end Dialect
end RecordSearch
