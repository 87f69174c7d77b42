import RecordSearch.SortedBy.Lookup
import RecordSearch.Store.Transaction

set_option autoImplicit false

namespace RecordSearch

namespace SortedBy
variable {α κ : Type} [Ord κ] {key : α → κ}

/-- Under a key that both have, both have the same element. -/
def Agree (s t : SortedBy key) : Prop := ∀ a ∈ s.toList, ∀ b ∈ t.toList, key a = key b → a = b

instance [DecidableEq α] [DecidableEq κ] (s t : SortedBy key) : Decidable (s.Agree t) :=
  inferInstanceAs (Decidable (∀ a ∈ s.toList, ∀ b ∈ t.toList, key a = key b → a = b))

theorem union_empty [Std.TransOrd κ] (s : SortedBy key) : s.union empty = s := rfl

variable [DecidableEq κ]

theorem empty_inter (s : SortedBy key) : (empty : SortedBy key).inter s = empty := rfl

variable [Std.LawfulEqOrd κ]

theorem agree_iff_find? {s t : SortedBy key} :
    s.Agree t ↔ ∀ k a b, s.find? k = some a → t.find? k = some b → a = b := by
  constructor
  · intro h k a b ha hb
    obtain ⟨ha, hka⟩ := find?_eq_some_iff.mp ha
    obtain ⟨hb, hkb⟩ := find?_eq_some_iff.mp hb
    exact h a ha b hb (hka.trans hkb.symm)
  · intro h a ha b hb hab
    exact h (key a) a b (find?_eq_some_iff.mpr ⟨ha, rfl⟩) (find?_eq_some_iff.mpr ⟨hb, hab.symm⟩)

variable [Std.TransOrd κ] (s t u : SortedBy key)

theorem union_assoc : (s.union t).union u = s.union (t.union u) := by
  refine eq_of_find?_eq fun k => ?_
  simp only [find?_union, Option.or_assoc]

theorem inter_assoc : (s.inter t).inter u = s.inter (t.inter u) := by
  refine eq_of_find?_eq fun k => ?_
  simp only [find?_inter, contains_inter]
  cases t.contains k <;> cases u.contains k <;> rfl

theorem union_self : s.union s = s := by
  refine eq_of_find?_eq fun k => ?_
  rw [find?_union, Option.or_self]

theorem inter_self : s.inter s = s := by
  refine eq_of_find?_eq fun k => ?_
  rw [find?_inter, contains]
  cases s.find? k <;> rfl

theorem empty_union : empty.union s = s := by
  refine eq_of_find?_eq fun k => ?_
  rw [find?_union, find?_empty, Option.or_none]

theorem inter_empty : s.inter empty = empty := by
  refine eq_of_find?_eq fun k => ?_
  rw [find?_inter]
  rfl

theorem inter_union_left : s.inter (t.union u) = (s.inter t).union (s.inter u) := by
  refine eq_of_find?_eq fun k => ?_
  simp only [find?_inter, find?_union, contains_union]
  cases t.contains k <;> cases u.contains k <;> simp

theorem inter_union_right : (s.union t).inter u = (s.inter u).union (t.inter u) := by
  refine eq_of_find?_eq fun k => ?_
  simp only [find?_inter, find?_union]
  cases u.contains k <;> rfl

theorem inter_union_self : s.inter (s.union t) = s := by
  refine eq_of_find?_eq fun k => ?_
  rw [find?_inter, contains_union, contains]
  cases s.find? k <;> simp

theorem union_inter_self : s.union (s.inter t) = s := by
  refine eq_of_find?_eq fun k => ?_
  rw [find?_union, find?_inter]
  cases t.contains k <;> simp

theorem union_comm_iff : s.union t = t.union s ↔ s.Agree t := by
  rw [eq_iff_find?_eq, agree_iff_find?]
  refine forall_congr' fun k => ?_
  rw [find?_union, find?_union]
  cases s.find? k <;> cases t.find? k <;> simp [eq_comm]

theorem inter_comm_iff : s.inter t = t.inter s ↔ s.Agree t := by
  rw [eq_iff_find?_eq, agree_iff_find?]
  refine forall_congr' fun k => ?_
  rw [find?_inter, find?_inter, contains, contains]
  cases s.find? k <;> cases t.find? k <;> simp

variable {s t}

/-- Without agreement this fails at a key of `s` and `t` that `u` has not: only the right side
takes the element of `t` there. -/
theorem Agree.union_inter (h : s.Agree t) (u : SortedBy key) :
    s.union (t.inter u) = (s.union t).inter (s.union u) := by
  refine eq_of_find?_eq fun k => ?_
  have hc : s.contains k = (s.find? k).isSome := rfl
  simp only [find?_inter, find?_union, contains_union, hc]
  cases hs : s.find? k with
  | none => cases u.contains k <;> simp
  | some a =>
    have ht : (t.find? k).getD a = a := by
      cases ht : t.find? k with
      | none => rfl
      | some b => exact (agree_iff_find?.mp h k a b hs ht).symm
    cases u.contains k <;> simp [ht]

end SortedBy

/-- The laws of union and intersection, for sets of any origin. Commutativity is agreement, and
agreement is also enough for a union to distribute over an intersection. -/
theorem RecordSet.union_inter_laws (a b c : RecordSet) :
    ((a.union b).union c = a.union (b.union c) ∧ (a.inter b).inter c = a.inter (b.inter c)) ∧
    (a.union a = a ∧ a.inter a = a) ∧
    (SortedBy.empty.union a = a ∧ a.union .empty = a) ∧
    (SortedBy.empty.inter a = .empty ∧ a.inter .empty = .empty) ∧
    (a.inter (b.union c) = (a.inter b).union (a.inter c) ∧
      (a.union b).inter c = (a.inter c).union (b.inter c)) ∧
    (a.inter (a.union b) = a ∧ a.union (a.inter b) = a) ∧
    ((a.union b = b.union a ↔ a.Agree b) ∧ (a.inter b = b.inter a ↔ a.Agree b)) ∧
    (a.Agree b → a.union (b.inter c) = (a.union b).inter (a.union c)) :=
  ⟨⟨a.union_assoc b c, a.inter_assoc b c⟩, ⟨a.union_self, a.inter_self⟩,
    ⟨a.empty_union, a.union_empty⟩, ⟨a.empty_inter, a.inter_empty⟩,
    ⟨a.inter_union_left b c, a.inter_union_right b c⟩,
    ⟨a.inter_union_self b, a.union_inter_self b⟩,
    ⟨a.union_comm_iff b, a.inter_comm_iff b⟩, fun h => h.union_inter c⟩

theorem RecordSet.union_inter_laws_two_stores :
    let s := Store.ofActions [.insert "User" [("name", .text "Ann")], .insert "User" []]
    let t := Store.ofActions [.insert "User" [("name", .text "Bob")]]
    let a := s.allOf "User"
    let b := s.idsWithin "User" 1 1
    let c := t.allOf "User"
    a.Agree b ∧ a.union (b.inter c) = (a.union b).inter (a.union c) ∧
      ¬a.Agree c ∧ a.union c ≠ c.union a ∧ a.inter c ≠ c.inter a := by
  intro s t a b c
  obtain ⟨-, -, -, -, -, -, -, hdistrib⟩ := union_inter_laws a b c
  obtain ⟨-, -, -, -, -, -, ⟨hunion, hinter⟩, -⟩ := union_inter_laws a c b
  have hab : a.Agree b := by decide
  have hac : ¬a.Agree c := by decide
  exact ⟨hab, hdistrib hab, hac, mt hunion.mp hac, mt hinter.mp hac⟩

end RecordSearch
