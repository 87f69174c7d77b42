import RecordSearch.Query

set_option autoImplicit false

namespace RecordSearch

inductive Level where
  | debug
  | trace
  deriving DecidableEq, Repr

def Level.name : Level → String
  | .debug => "DEBUG"
  | .trace => "TRACE"

inductive Event where
  | classified (part : String) (kind : Clause.Kind)
  | parsed (query : String)
  | compilingQuery (type : RecordType) (clauses : Nat)
  | compilingClause (clause : Clause)
  | noRecord (id : RecordId)
  deriving DecidableEq, Repr

namespace Event

def level : Event → Level
  | .parsed _ | .compilingQuery .. => .debug
  | .classified .. | .compilingClause _ | .noRecord _ => .trace

def message : Event → String
  | .classified .. => "classified clause"
  | .parsed _ => "parsed expression"
  | .compilingQuery .. => "compiling query"
  | .compilingClause _ => "compiling clause"
  | .noRecord _ => "no record for id"

def fields : Event → List (String × String)
  | .classified part kind => [("part", part), ("kind", kind.name)]
  | .parsed query => [("query", query)]
  | .compilingQuery type clauses =>
      [("record_type", type.name), ("record_type_id", type.id.toNat.repr),
       ("clauses", clauses.repr)]
  | .compilingClause clause => [("kind", clause.kind.name), ("clause", clause.display)]
  | .noRecord id => [("id", id.display)]

end Event
end RecordSearch
