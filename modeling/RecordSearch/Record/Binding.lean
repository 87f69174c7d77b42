import RecordSearch.Record
import RecordSearch.SortedBy.Lookup

set_option autoImplicit false

namespace RecordSearch

theorem Record.property?_eq_some_iff {r : Record} {name : String} {v : PropertyValue} :
    r.property? name = some v ↔ (name, v) ∈ r.properties.toList := by
  simp only [Record.property?, Option.map_eq_some_iff, SortedBy.find?_eq_some_iff]
  constructor
  · intro h
    obtain ⟨p, ⟨hp, rfl⟩, rfl⟩ := h
    exact hp
  · intro h
    exact ⟨(name, v), ⟨h, rfl⟩, rfl⟩

theorem codePoints_lt_of_compare {a b : String} (h : compare a b = .lt) :
    a.toList.map Char.toNat < b.toList.map Char.toNat :=
  List.map_lt (fun _ _ hlt => hlt) (String.lt_iff.mp (compareOfLessAndEq_eq_lt.mp h))

/-- The record has the last pair with each name, and lists those pairs in the order of the code
points of the names. -/
structure Record.Binds (r : Record) (l : List Property) : Prop where
  property?_eq_some_iff : ∀ name v, r.property? name = some v ↔ LastIn Property.name l (name, v)
  property?_eq_none_iff : ∀ name, r.property? name = none ↔ name ∉ l.map Property.name
  mem_properties_iff : ∀ p, p ∈ r.properties.toList ↔ LastIn Property.name l p
  perm_names : (r.properties.toList.map Property.name).Perm (l.map Property.name).dedup
  ascending : (r.properties.toList.map fun p => p.name.toList.map Char.toNat).Pairwise (· < ·)

theorem Record.binds_of_eq {r : Record} {l : List Property} (h : r.properties = .ofList l) :
    r.Binds l where
  property?_eq_some_iff name v := by
    rw [Record.property?_eq_some_iff, h]
    exact SortedBy.mem_ofList
  property?_eq_none_iff name := by
    rw [Record.property?, h, Option.map_eq_none_iff, ← Option.not_isSome_iff_eq_none]
    exact not_congr SortedBy.contains_ofList
  mem_properties_iff p := by
    rw [h]
    exact SortedBy.mem_ofList
  perm_names := by
    rw [h]
    exact SortedBy.perm_keys_ofList l
  ascending := by
    rw [List.pairwise_map]
    exact r.properties.ascending.imp fun hlt => codePoints_lt_of_compare hlt

end RecordSearch
