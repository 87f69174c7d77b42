set_option autoImplicit false

namespace RecordSearch

inductive Operator where
  | lookup
  | equals
  | startsWith
  deriving DecidableEq, Repr

namespace Operator

def name : Operator → String
  | .lookup => "lookup"
  | .equals => "eq"
  | .startsWith => "prefix"

def symbol? : Operator → Option Char
  | .lookup => none
  | .equals => some '='
  | .startsWith => some '~'

/-- The written operators, in the order in which a clause is searched for them. -/
def written : List Operator := [.equals, .startsWith]

def ofSymbol? (c : Char) : Option Operator := written.find? fun op => op.symbol? == some c

def isSymbol (c : Char) : Bool := (ofSymbol? c).isSome

theorem isSymbol_iff {c : Char} : isSymbol c ↔ c = '=' ∨ c = '~' := by
  by_cases h₁ : c = '='
  · simp [isSymbol, ofSymbol?, written, symbol?, h₁]
  · by_cases h₂ : c = '~'
    · simp [isSymbol, ofSymbol?, written, symbol?, h₂]
    · simp [isSymbol, ofSymbol?, written, symbol?, h₁, h₂, Ne.symm h₁, Ne.symm h₂]

end Operator
end RecordSearch
