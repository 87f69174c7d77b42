set_option autoImplicit false

namespace RecordSearch

inductive WordFault where
  | empty
  | blank
  | operator
  deriving DecidableEq, Repr

def WordFault.message : WordFault → String
  | .empty => "must not be empty"
  | .blank => "must not contain whitespace"
  | .operator => "must not contain an operator symbol"

inductive SearchError where
  | invalidRecordId (text : String)
  | invalidConjunction (keyword : String) (fault : WordFault)
  | invalidIdField (field : String) (fault : WordFault)
  deriving DecidableEq, Repr

def SearchError.message : SearchError → String
  | .invalidRecordId text => "invalid record id '" ++ text ++ "': expected <type>-<local>"
  | .invalidConjunction keyword fault =>
      "invalid conjunction keyword '" ++ keyword ++ "': " ++ fault.message
  | .invalidIdField field fault => "invalid id field '" ++ field ++ "': " ++ fault.message

inductive StoreError where
  | noTypeIdLeft
  deriving DecidableEq, Repr

def StoreError.message : StoreError → String
  | .noTypeIdLeft => "record type ids exhausted"

end RecordSearch
