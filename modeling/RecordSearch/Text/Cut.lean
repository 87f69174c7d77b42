set_option autoImplicit false

namespace RecordSearch.Text

/-- The texts before and after the first `sep`. -/
def cut? (sep : Char) : List Char → Option (List Char × List Char)
  | [] => none
  | c :: t => if c = sep then some ([], t) else (cut? sep t).map fun (a, b) => (c :: a, b)

theorem cut?_eq_none_iff {sep : Char} {t : List Char} : cut? sep t = none ↔ sep ∉ t := by
  induction t with
  | nil => simp [cut?]
  | cons c t ih =>
    by_cases h : c = sep
    · simp [cut?, h]
    · simp [cut?, h, ih, Ne.symm h]

theorem cut?_append {sep : Char} {a : List Char} (h : sep ∉ a) (b : List Char) :
    cut? sep (a ++ sep :: b) = some (a, b) := by
  induction a with
  | nil => simp [cut?]
  | cons c a ih =>
    simp only [List.mem_cons, not_or] at h
    simp [cut?, ih h.2, Ne.symm h.1]

theorem cut?_eq_some_iff {sep : Char} {t a b : List Char} :
    cut? sep t = some (a, b) ↔ t = a ++ sep :: b ∧ sep ∉ a := by
  refine ⟨fun h => ?_, fun ⟨h₁, h₂⟩ => h₁ ▸ cut?_append h₂ b⟩
  induction t generalizing a with
  | nil => simp [cut?] at h
  | cons c t ih =>
    by_cases hc : c = sep
    · simp only [cut?, hc, ↓reduceIte, Option.some.injEq, Prod.mk.injEq] at h
      simp [← h.1, ← h.2, hc]
    · simp only [cut?, hc, ↓reduceIte, Option.map_eq_some_iff, Prod.mk.injEq, Prod.exists] at h
      obtain ⟨a', b', h, rfl, rfl⟩ := h
      obtain ⟨rfl, hs⟩ := ih h
      simp [Ne.symm hc, hs]

end RecordSearch.Text
