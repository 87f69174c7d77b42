import RecordSearch.Plan
import RecordSearch.Store.Transaction

set_option autoImplicit false

namespace RecordSearch

/-- The selection that names records by their ids; an id without a record selects none. -/
def Store.selectById (s : Store) : Selection RecordId → RecordSet
  | .all typeName => s.select (.all typeName)
  | .singleton id => (s.find? id).elim .empty .singleton
  | .equals typeName field value => s.select (.equals typeName field value)
  | .startsWith typeName field start => s.select (.startsWith typeName field start)
  | .idsWithin typeName low high => s.select (.idsWithin typeName low high)
  | .valuesWithin typeName field low high => s.select (.valuesWithin typeName field low high)

def Plan.evaluate (s : Store) : Plan → RecordSet
  | .empty => .empty
  | .leaf selection => s.selectById selection
  | .union a b => (a.evaluate s).union (b.evaluate s)
  | .inter a b => (a.evaluate s).inter (b.evaluate s)

end RecordSearch
