import RecordSearch.Proofs.Numbering
import RecordSearch.Store.Transaction

set_option autoImplicit false

namespace RecordSearch
namespace Store

/-- The type id of a record is that of its type name, and of no other name. -/
structure Typed (s : Store) : Prop where
  typeId?_of_mem : ∀ r ∈ s.records.toList, s.typeId? r.typeName = some r.id.typeId
  eq_of_typeId? : ∀ a b typeId, s.typeId? a = some typeId → s.typeId? b = some typeId → a = b

theorem Reflects.typed {s : Store} {h : History} (hs : Reflects s h) : Typed s where
  typeId?_of_mem _ hr := (hs.types _ _).mpr (hs.mem_records.mp hr).1
  eq_of_typeId? a b typeId ha hb := by
    have ha := (hs.types a typeId).mp ha
    have hb := (hs.types b typeId).mp hb
    exact Option.some.inj (ha.symm.trans hb)

theorem Typed.typeName_eq_iff {s : Store} (hs : s.Typed) {r : Record}
    (hr : r ∈ s.records.toList) {name : String} {typeId : TypeId}
    (ht : s.typeId? name = some typeId) : r.typeName = name ↔ r.id.typeId = typeId := by
  have hid := hs.typeId?_of_mem r hr
  constructor
  · intro hn
    rw [hn] at hid
    exact Option.some.inj (hid.symm.trans ht)
  · intro htype
    rw [htype] at hid
    exact hs.eq_of_typeId? _ _ _ hid ht

def Selects (s : Store) (p : Record → Prop) (set : RecordSet) : Prop :=
  ∀ r, r ∈ set.toList ↔ r ∈ s.records.toList ∧ p r

section Sets
variable {s : Store} {p q : Record → Prop} {a b : RecordSet}

theorem Selects.congr (ha : s.Selects p a) (h : ∀ r ∈ s.records.toList, p r ↔ q r) :
    s.Selects q a := fun r => (ha r).trans (and_congr_right (h r))

theorem Selects.eq (ha : s.Selects p a) (hb : s.Selects p b) : a = b :=
  SortedBy.eq_of_mem_iff fun r => (ha r).trans (hb r).symm

theorem selects_empty : s.Selects (fun _ => False) .empty := fun r => by
  simp [SortedBy.empty]

theorem selects_singleton {r : Record} (hr : r ∈ s.records.toList) :
    s.Selects (fun t => t.id = r.id) (.singleton r) := by
  intro t
  rw [SortedBy.mem_singleton]
  constructor
  · intro heq
    subst heq
    exact ⟨hr, rfl⟩
  · intro h
    obtain ⟨ht, hid⟩ := h
    exact SortedBy.eq_of_key_eq ht hr hid

/-- Sets of one store agree on every shared id, so it does not matter whose record is kept. -/
theorem Selects.union (ha : s.Selects p a) (hb : s.Selects q b) :
    s.Selects (fun r => p r ∨ q r) (a.union b) := by
  intro r
  rw [SortedBy.mem_union, ha r, hb r]
  constructor
  · intro h
    rcases h with ⟨hr, hq⟩ | ⟨⟨hr, hp⟩, -⟩
    · exact ⟨hr, .inr hq⟩
    · exact ⟨hr, .inl hp⟩
  · intro h
    rcases h with ⟨hr, hp | hq⟩
    · by_cases hq : q r
      · exact .inl ⟨hr, hq⟩
      · refine .inr ⟨⟨hr, hp⟩, fun t ht hid => hq ?_⟩
        obtain ⟨ht, hqt⟩ := (hb t).mp ht
        exact SortedBy.eq_of_key_eq ht hr hid ▸ hqt
    · exact .inl ⟨hr, hq⟩

theorem Selects.inter (ha : s.Selects p a) (hb : s.Selects q b) :
    s.Selects (fun r => p r ∧ q r) (a.inter b) := by
  intro r
  rw [SortedBy.mem_inter, ha r]
  constructor
  · intro h
    obtain ⟨⟨hr, hp⟩, t, ht, hid⟩ := h
    obtain ⟨ht, hq⟩ := (hb t).mp ht
    exact ⟨hr, hp, SortedBy.eq_of_key_eq ht hr hid ▸ hq⟩
  · intro h
    obtain ⟨hr, hp, hq⟩ := h
    exact ⟨⟨hr, hp⟩, r, (hb r).mpr ⟨hr, hq⟩, rfl⟩

theorem Selects.filter (ha : s.Selects p a) (f : Record → Bool) :
    s.Selects (fun r => p r ∧ f r) (a.filter f) := by
  intro r
  rw [SortedBy.mem_filter, ha r, and_assoc]

end Sets

theorem selects_idsWithin {s : Store} (hs : s.Typed) (name : String) (low high : LocalId) :
    s.Selects (fun r => r.typeName = name ∧ low ≤ r.id.localId ∧ r.id.localId ≤ high)
      (s.idsWithin name low high) := by
  intro r
  unfold idsWithin span?
  cases ht : s.typeId? name with
  | none =>
    refine iff_of_false List.not_mem_nil fun h => ?_
    obtain ⟨hr, rfl, -⟩ := h
    have hid := hs.typeId?_of_mem r hr
    rw [ht] at hid
    contradiction
  | some typeId =>
    by_cases hle : low ≤ high
    · simp only [Option.bind_eq_bind, Option.bind_some, hle, ↓reduceDIte, SortedBy.mem_within,
        RecordId.isLE_compare_iff]
      refine and_congr_right fun hr => ?_
      rw [hs.typeName_eq_iff hr ht]
      constructor
      · intro h
        obtain ⟨hlow, hhigh⟩ := h
        grind
      · intro h
        obtain ⟨rfl, hlow, hhigh⟩ := h
        exact ⟨.inr ⟨rfl, hlow⟩, .inr ⟨rfl, hhigh⟩⟩
    · simp only [Option.bind_eq_bind, Option.bind_some, hle, ↓reduceDIte]
      refine iff_of_false List.not_mem_nil fun h => ?_
      obtain ⟨-, -, hlow, hhigh⟩ := h
      exact hle (UInt64.le_trans hlow hhigh)

theorem selects_allOf {s : Store} (hs : s.Typed) (name : String) :
    s.Selects (fun r => r.typeName = name) (s.allOf name) := by
  refine (selects_idsWithin hs name 0 .greatest).congr fun r _ => ?_
  have h₁ : (0 : LocalId) ≤ r.id.localId := UInt64.zero_le
  have h₂ : r.id.localId ≤ .greatest := by
    rw [UInt64.le_iff_toNat_le]
    exact Nat.le_of_lt_succ r.id.localId.toNat_lt
  simp only [h₁, h₂, and_self, and_true]

theorem selects_withField {s : Store} (hs : s.Typed) (name field : String)
    (condition : Condition) :
    s.Selects (fun r => r.typeName = name ∧ (r.property? field).any condition.holds)
      (s.withField name field condition) :=
  (selects_allOf hs name).filter _

end Store

namespace Condition
variable {v : Option PropertyValue}

theorem any_holds_equals {value : String} :
    v.any (equals value).holds ↔ v = some (.text value) := by
  cases v with
  | none => simp
  | some v => cases v <;> simp [holds, PropertyValue.text?]

theorem any_holds_startsWith {start : String} :
    v.any (startsWith start).holds ↔ ∃ s, v = some (.text s) ∧ start.toList <+: s.toList := by
  cases v with
  | none => simp
  | some v => cases v <;> simp [holds, PropertyValue.text?]

theorem any_holds_within {low high : LocalId} :
    v.any (within low high).holds ↔
      ∃ n, v = some (.integer n) ∧ (low.toNat : Int) ≤ n.toInt ∧ n.toInt ≤ (high.toNat : Int) := by
  cases v with
  | none => simp
  | some v => cases v <;> simp [holds, PropertyValue.integer?]

end Condition
end RecordSearch
