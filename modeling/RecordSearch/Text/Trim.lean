import RecordSearch.Text.Blank

set_option autoImplicit false

namespace RecordSearch.Text

def trimStart (t : List Char) : List Char := t.dropWhile isBlank

def trimEnd (t : List Char) : List Char := (t.reverse.dropWhile isBlank).reverse

def trim (t : List Char) : List Char := trimEnd (trimStart t)

theorem exists_trimStart (t : List Char) :
    ∃ u, (∀ c ∈ u, isBlank c) ∧ t = u ++ trimStart t :=
  ⟨t.takeWhile isBlank, List.all_eq_true.mp List.all_takeWhile,
    List.takeWhile_append_dropWhile.symm⟩

theorem exists_trimEnd (t : List Char) :
    ∃ v, (∀ c ∈ v, isBlank c) ∧ t = trimEnd t ++ v := by
  refine ⟨(t.reverse.takeWhile isBlank).reverse, fun c h => ?_, ?_⟩
  · exact List.all_eq_true.mp List.all_takeWhile c (List.mem_reverse.mp h)
  · rw [trimEnd, ← List.reverse_append, List.takeWhile_append_dropWhile, List.reverse_reverse]

theorem exists_trim (t : List Char) :
    ∃ u v, (∀ c ∈ u, isBlank c) ∧ (∀ c ∈ v, isBlank c) ∧ t = u ++ trim t ++ v := by
  obtain ⟨u, hu, h₁⟩ := exists_trimStart t
  obtain ⟨v, hv, h₂⟩ := exists_trimEnd (trimStart t)
  exact ⟨u, v, hu, hv, by rw [List.append_assoc, trim, ← h₂, ← h₁]⟩

/-- A text that neither begins nor ends with a blank. -/
def Trimmed (t : List Char) : Prop :=
  (∀ c ∈ t.head?, !isBlank c) ∧ ∀ c ∈ t.getLast?, !isBlank c

theorem head?_trimStart {t : List Char} {c : Char} (h : c ∈ (trimStart t).head?) : !isBlank c := by
  have := List.head?_dropWhile_not isBlank t
  rw [Option.mem_def, trimStart] at h
  rw [h] at this
  simpa using this

theorem getLast?_trimEnd {t : List Char} {c : Char} (h : c ∈ (trimEnd t).getLast?) :
    !isBlank c := by
  rw [trimEnd, List.getLast?_reverse] at h
  exact head?_trimStart h

theorem trimStart_eq_self {t : List Char} (h : ∀ c ∈ t.head?, !isBlank c) : trimStart t = t := by
  cases t with
  | nil => rfl
  | cons c t =>
    have hc : isBlank c = false := by simpa using h c rfl
    rw [trimStart, List.dropWhile_cons, hc]
    rfl

theorem trimEnd_eq_self {t : List Char} (h : ∀ c ∈ t.getLast?, !isBlank c) : trimEnd t = t := by
  rw [trimEnd, ← trimStart, trimStart_eq_self (by simpa using h), List.reverse_reverse]

theorem trimmed_trim (t : List Char) : Trimmed (trim t) := by
  refine ⟨fun c hc => ?_, fun c hc => getLast?_trimEnd hc⟩
  obtain ⟨v, -, hv⟩ := exists_trimEnd (trimStart t)
  have h := congrArg List.head? hv
  rw [List.head?_append, ← trim, Option.mem_def.mp hc] at h
  exact head?_trimStart h

theorem trim_eq_self_iff {t : List Char} : trim t = t ↔ Trimmed t := by
  refine ⟨fun h => h ▸ trimmed_trim t, fun ⟨h₁, h₂⟩ => ?_⟩
  rw [trim, trimStart_eq_self h₁, trimEnd_eq_self h₂]

theorem trim_trim (t : List Char) : trim (trim t) = trim t := trim_eq_self_iff.mpr (trimmed_trim t)

theorem mem_of_mem_trim {t : List Char} {c : Char} (h : c ∈ trim t) : c ∈ t := by
  obtain ⟨u, v, -, -, ht⟩ := exists_trim t
  rw [ht]
  simp [h]

theorem mem_trim {t : List Char} {c : Char} (h : c ∈ t) (hc : isBlank c = false) : c ∈ trim t := by
  obtain ⟨u, v, hu, hv, ht⟩ := exists_trim t
  rw [ht, List.mem_append, List.mem_append] at h
  rcases h with (h | h) | h
  · rw [hu c h] at hc
    contradiction
  · exact h
  · rw [hv c h] at hc
    contradiction

theorem trimStart_eq_nil_iff {t : List Char} : trimStart t = [] ↔ ∀ c ∈ t, isBlank c := by
  constructor
  · intro h
    obtain ⟨u, hu, ht⟩ := exists_trimStart t
    rw [h, List.append_nil] at ht
    exact ht ▸ hu
  · intro h
    have hd : (t ++ []).dropWhile isBlank = [].dropWhile isBlank := List.dropWhile_append_of_pos h
    simpa [trimStart] using hd

theorem trim_eq_nil_iff {t : List Char} : trim t = [] ↔ ∀ c ∈ t, isBlank c := by
  constructor
  · intro h
    obtain ⟨u, v, hu, hv, ht⟩ := exists_trim t
    rw [h, List.append_nil] at ht
    intro c hc
    rw [ht, List.mem_append] at hc
    exact hc.elim (hu c) (hv c)
  · intro h
    simp [trim, trimStart_eq_nil_iff.mpr h, trimEnd]

theorem trim_blank_append {u : List Char} (hu : ∀ c ∈ u, isBlank c) (t : List Char) :
    trim (u ++ t) = trim t := by
  simp [trim, trimStart, List.dropWhile_append_of_pos hu]

theorem trimEnd_append_blank {u : List Char} (hu : ∀ c ∈ u, isBlank c) (t : List Char) :
    trimEnd (t ++ u) = trimEnd t := by
  have hr : ∀ c ∈ u.reverse, isBlank c := fun c hc => hu c (List.mem_reverse.mp hc)
  simp [trimEnd, List.dropWhile_append_of_pos hr]

theorem trim_append_blank {u : List Char} (hu : ∀ c ∈ u, isBlank c) (t : List Char) :
    trim (t ++ u) = trim t := by
  by_cases ht : trimStart t = []
  · have hb : ∀ c ∈ t ++ u, isBlank c := fun c hc =>
      (List.mem_append.mp hc).elim (trimStart_eq_nil_iff.mp ht c) (hu c)
    rw [trim_eq_nil_iff.mpr hb, trim_eq_nil_iff.mpr (trimStart_eq_nil_iff.mp ht)]
  · have hs : trimStart (t ++ u) = trimStart t ++ u := by
      have hne : (t.dropWhile isBlank).isEmpty = false := by
        simpa [trimStart] using ht
      rw [trimStart, List.dropWhile_append, hne]
      rfl
    rw [trim, hs, trimEnd_append_blank hu, ← trim]

end RecordSearch.Text
