import RecordSearch.Clause
import RecordSearch.Text.Trim

/-!
Reading one clause. Every text is read as some clause: text without an operator is a bare id,
the first `=` with a field before it makes an equality, else the first `~` with a field before
it makes a starts-with clause, and whatever is left is malformed.
-/

set_option autoImplicit false

namespace RecordSearch.Clause
open Text

/-- The trimmed field and value around the first `op`, if the field is not blank. -/
def sides? (op : Char) (t : List Char) : Option (List Char × List Char) :=
  match cut? op t with
  | none => none
  | some (field, value) =>
      if (trim field).isEmpty then none else some (trim field, trim value)

def bounds? : List Char → Option (List Char × List Char)
  | '[' :: t =>
      match cut? ',' t with
      | none => none
      | some (low, rest) =>
          match cut? ']' rest with
          | some (high, []) => if isDigits low && isDigits high then some (low, high) else none
          | _ => none
  | _ => none

/-- A value that looks like an id or a range of ids, whether or not it is one. -/
def resemblesId (value : List Char) : Bool :=
  (value.head? == some '[' && value.getLast? == some ']') || isSignedDigits value

def ofBare (t : List Char) : Clause :=
  match LocalId.ofText? t with
  | some id => .idLookup id
  | none => .malformedId (String.ofList t)

def ofIdValue (t field value : List Char) : Clause :=
  match bounds? value with
  | some (lowText, highText) =>
      match LocalId.ofText? lowText, LocalId.ofText? highText with
      | some low, some high =>
          if low ≤ high then .idRange (String.ofList field) low high
          else .malformedId (String.ofList t)
      | _, _ => .malformedId (String.ofList t)
  | none =>
      match LocalId.ofText? value with
      | some id => .idEquals (String.ofList field) id
      | none =>
          if resemblesId value then .malformedId (String.ofList t)
          else .fieldEquals (String.ofList field) (String.ofList value)

def ofTrimmed (idField : String) (t : List Char) : Clause :=
  if !t.any Operator.isSymbol then ofBare t
  else match sides? '=' t with
    | some (field, value) =>
        if field = idField.toList then ofIdValue t field value
        else .fieldEquals (String.ofList field) (String.ofList value)
    | none =>
        match sides? '~' t with
        | some (field, start) =>
            if '=' ∈ field then .malformedClause (String.ofList t)
            else .fieldStartsWith (String.ofList field) (String.ofList start)
        | none => .malformedClause (String.ofList t)

def ofText (idField text : String) : Clause := ofTrimmed idField (trim text.toList)

end RecordSearch.Clause
