import RecordSearch.Record

set_option autoImplicit false

namespace RecordSearch

class ResultSet (σ : Type) where
  empty : σ
  union : σ → σ → σ
  inter : σ → σ → σ
  size : σ → Nat

def ResultSet.isEmpty {σ : Type} [ResultSet σ] (s : σ) : Bool := size s == 0

/-- Records in the order of their ids. Sets of different stores may differ in a shared id. -/
abbrev RecordSet := SortedBy Record.id

instance : ResultSet RecordSet where
  empty := .empty
  union := .union
  inter := .inter
  size := SortedBy.size

end RecordSearch
