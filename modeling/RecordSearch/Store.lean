import RecordSearch.RecordSet

/-!
Stores of records. Types are numbered in the order in which they are first named, and the
records of each type in the order in which they are inserted, both from zero. A type has a
counter from its first record on. Once every type id is given, a new type is refused.
-/

set_option autoImplicit false

namespace RecordSearch

abbrev TypeTable := SortedBy fun entry : String × TypeId => entry.1

/-- The local ids that come next, by the ids of the types. -/
abbrev CounterTable := SortedBy fun entry : TypeId × LocalId => entry.1

structure Store where
  types : TypeTable
  counters : CounterTable
  records : RecordSet

namespace Store

def empty : Store := ⟨.empty, .empty, .empty⟩

def typeId? (s : Store) (typeName : String) : Option TypeId :=
  (s.types.find? typeName).map Prod.snd

def find? (s : Store) (id : RecordId) : Option Record := s.records.find? id

def size (s : Store) : Nat := s.records.size

def isEmpty (s : Store) : Bool := s.size == 0

/-- The next local id of a type, zero as long as the type has no counter. -/
def nextLocal (s : Store) (typeId : TypeId) : LocalId :=
  ((s.counters.find? typeId).map Prod.snd).getD 0

def nthTypeId? (n : Nat) : Option TypeId := if n < UInt32.size then some (.ofNat n) else none

def tryRegister (s : Store) (typeName : String) : Except StoreError (TypeId × Store) :=
  match s.typeId? typeName, nthTypeId? s.types.size with
  | some typeId, _ => .ok (typeId, s)
  | none, some typeId => .ok (typeId, { s with types := s.types.insert (typeName, typeId) })
  | none, none => .error .noTypeIdLeft

def put (s : Store) (typeId : TypeId) (typeName : String) (properties : List Property) :
    RecordId × Store :=
  let localId := s.nextLocal typeId
  let id : RecordId := ⟨typeId, localId⟩
  (id, { s with
    counters := s.counters.insert (typeId, localId + 1)
    records := s.records.insert ⟨id, typeName, .ofList properties⟩ })

def tryInsert (s : Store) (typeName : String) (properties : List Property) :
    Except StoreError (RecordId × Store) := do
  let (typeId, s) ← s.tryRegister typeName
  return s.put typeId typeName properties

/-- As `tryRegister`, but a new type for which no id is left is given one that is taken. -/
def register (s : Store) (typeName : String) : TypeId × Store :=
  match s.typeId? typeName with
  | some typeId => (typeId, s)
  | none =>
      let typeId := .ofNat s.types.size
      (typeId, { s with types := s.types.insert (typeName, typeId) })

def insert (s : Store) (typeName : String) (properties : List Property) : RecordId × Store :=
  let (typeId, s) := s.register typeName
  s.put typeId typeName properties

inductive Action where
  | register (typeName : String)
  | insert (typeName : String) (properties : List Property)

def tryApply (s : Store) : Action → Except StoreError Store
  | .register typeName => (s.tryRegister typeName).map Prod.snd
  | .insert typeName properties => (s.tryInsert typeName properties).map Prod.snd

def tryActions (actions : List Action) : Except StoreError Store := actions.foldlM tryApply empty

def apply (s : Store) : Action → Store
  | .register typeName => (s.register typeName).2
  | .insert typeName properties => (s.insert typeName properties).2

def ofActions (actions : List Action) : Store := actions.foldl apply empty

end Store
end RecordSearch
