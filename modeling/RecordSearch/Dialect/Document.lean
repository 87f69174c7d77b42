import RecordSearch.Dialect

set_option autoImplicit false

namespace RecordSearch

/-- A settings document, as far as a dialect can be told from it: a scalar holds no text. -/
inductive Document where
  | scalar
  | text (s : String)
  | list (items : List Document)
  | fields (entries : List (String × Document))
  deriving Inhabited

namespace Document

def text? : Document → Option String
  | .text s => some s
  | _ => none

def fieldText? (entries : List (String × Document)) (name standard : String) : Option String :=
  match entries.lookup name with
  | none => some standard
  | some document => document.text?

end Document

namespace Dialect

/-- Fields of other names are allowed, items after the second are not. -/
def ofDocument? : Document → Option Dialect
  | .fields entries => do
      let conjunction ← Document.fieldText? entries "conjunction" standard.conjunction
      let idField ← Document.fieldText? entries "id_field" standard.idField
      return ⟨conjunction, idField⟩
  | .list [] => some standard
  | .list [conjunction] => return ⟨← conjunction.text?, standard.idField⟩
  | .list [conjunction, idField] => return ⟨← conjunction.text?, ← idField.text?⟩
  | _ => none

def toDocument (d : Dialect) : Document :=
  .fields [("conjunction", .text d.conjunction), ("id_field", .text d.idField)]

theorem ofDocument?_toDocument (d : Dialect) : ofDocument? d.toDocument = some d := by
  simp [ofDocument?, toDocument, Document.fieldText?, Document.text?, List.lookup_cons]

end Dialect
end RecordSearch
