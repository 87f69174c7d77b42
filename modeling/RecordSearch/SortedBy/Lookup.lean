import Mathlib.Data.List.Dedup
import RecordSearch.SortedBy

set_option autoImplicit false

namespace RecordSearch

/-- The element is in the list, and none behind it has its key. -/
def LastIn {α κ : Type} (key : α → κ) (l : List α) (a : α) : Prop :=
  ∃ before after, l = before ++ a :: after ∧ ∀ b ∈ after, key b ≠ key a

namespace SortedBy
variable {α κ : Type} [Ord κ] {key : α → κ}

theorem mem_singleton {a b : α} : a ∈ (singleton b : SortedBy key).toList ↔ a = b := by
  simp [singleton]

theorem mem_filter {p : α → Bool} {s : SortedBy key} {a : α} :
    a ∈ (s.filter p).toList ↔ a ∈ s.toList ∧ p a :=
  List.mem_filter

section Members
variable [Std.LawfulEqOrd κ]

theorem eq_of_key_eq {s : SortedBy key} {a b : α} (ha : a ∈ s.toList) (hb : b ∈ s.toList)
    (h : key a = key b) : a = b := by
  have hs := s.ascending
  generalize s.toList = l at ha hb hs
  induction l with
  | nil => simp at ha
  | cons c l ih =>
    obtain ⟨hc, hl⟩ := List.pairwise_cons.mp hs
    have hne : ∀ d ∈ l, key c ≠ key d := fun d hd hcd => by
      have := hc d hd
      rw [hcd, Std.ReflOrd.compare_self] at this
      contradiction
    rcases List.mem_cons.mp ha with rfl | ha' <;> rcases List.mem_cons.mp hb with rfl | hb'
    · rfl
    · exact absurd h (hne b hb')
    · exact absurd h.symm (hne a ha')
    · exact ih ha' hb' hl

theorem length_place_of_fresh {a : α} {l : List α} (h : ∀ b ∈ l, key b ≠ key a) :
    (place key a l).length = l.length + 1 := by
  induction l with
  | nil => rfl
  | cons b l ih =>
    rw [place]
    split
    · rfl
    · next hab => exact absurd (Std.LawfulEqOrd.eq_of_compare hab).symm (h b List.mem_cons_self)
    · have hl := ih fun c hc => h c (List.mem_cons_of_mem b hc)
      simp only [List.length_cons, hl]

theorem nodup_keys (s : SortedBy key) : s.keys.Nodup := by
  refine List.pairwise_map.mpr (s.ascending.imp fun hlt heq => ?_)
  rw [heq, Std.ReflOrd.compare_self] at hlt
  contradiction

theorem nodup (s : SortedBy key) : s.toList.Nodup :=
  List.Pairwise.of_map key (fun _ _ hne heq => hne (congrArg key heq)) s.nodup_keys

/-- The order leaves no choice: the members alone determine the list. -/
theorem eq_of_mem_iff [Std.TransOrd κ] {s t : SortedBy key}
    (h : ∀ a, a ∈ s.toList ↔ a ∈ t.toList) : s = t := by
  have hp : s.toList.Perm t.toList := (List.perm_ext_iff_of_nodup s.nodup t.nodup).mpr h
  have ht : s.toList = t.toList := hp.eq_of_pairwise
    (fun a b _ _ hab hba => by
      rw [Std.OrientedOrd.eq_swap, hba] at hab
      contradiction)
    s.ascending t.ascending
  cases s; cases t; simpa using ht

/-- A map that keeps the order of the keys takes the members of one list to those of another only
if it takes the one list to the other. -/
theorem toList_eq_map [Std.TransOrd κ] {s t : SortedBy key} {f : α → α}
    (hf : ∀ a ∈ s.toList, ∀ b ∈ s.toList,
      compare (key (f a)) (key (f b)) = compare (key a) (key b))
    (h : ∀ b, b ∈ t.toList ↔ ∃ a ∈ s.toList, f a = b) : t.toList = s.toList.map f := by
  have hasc : (s.toList.map f).Pairwise fun a b => compare (key a) (key b) = .lt := by
    rw [List.pairwise_map]
    exact s.ascending.imp_of_mem fun ha hb hlt => (hf _ ha _ hb).trans hlt
  have ht : t = ⟨s.toList.map f, hasc⟩ := eq_of_mem_iff fun b => by rw [h b, List.mem_map]
  rw [ht]

end Members

section Span
variable [Std.TransOrd κ]

theorem dropWhile_eq_filter {l : List α} {p : α → Bool}
    (h : l.Pairwise fun a b => p b → p a) : l.dropWhile p = l.filter fun a => !p a := by
  induction l with
  | nil => rfl
  | cons a l ih =>
    obtain ⟨ha, hl⟩ := List.pairwise_cons.mp h
    by_cases hp : p a
    · simp [hp, ih hl]
    · have hb : ∀ b ∈ l, !p b := fun b hb => by simpa using mt (ha b hb) hp
      simp [hp, List.filter_eq_self.mpr hb]

theorem takeWhile_eq_filter {l : List α} {p : α → Bool}
    (h : l.Pairwise fun a b => p b → p a) : l.takeWhile p = l.filter p := by
  induction l with
  | nil => rfl
  | cons a l ih =>
    obtain ⟨ha, hl⟩ := List.pairwise_cons.mp h
    by_cases hp : p a
    · simp [hp, ih hl]
    · have hb : ∀ b ∈ l, ¬p b := fun b hb => mt (ha b hb) hp
      simp [hp, List.filter_eq_nil_iff.mpr hb]

theorem mem_within {span : Span κ} {s : SortedBy key} {a : α} :
    a ∈ (s.within span).toList ↔
      a ∈ s.toList ∧ (compare span.low (key a)).isLE ∧ (compare (key a) span.high).isLE := by
  have h₁ : s.toList.Pairwise fun a b =>
      (compare (key b) span.low).isLT → (compare (key a) span.low).isLT :=
    s.ascending.imp fun hab hb => by
      rw [Ordering.isLT_iff_eq_lt] at hb ⊢
      exact Std.TransCmp.lt_trans hab hb
  have h₂ : s.toList.Pairwise fun a b =>
      (compare (key b) span.high).isLE → (compare (key a) span.high).isLE :=
    s.ascending.imp fun hab hb => Std.TransCmp.isLE_trans (by simp [hab]) hb
  have h₃ : (s.within span).toList =
      (s.toList.filter fun a => !(compare (key a) span.low).isLT).filter fun a =>
        (compare (key a) span.high).isLE := by
    simp only [within]
    rw [dropWhile_eq_filter h₁, takeWhile_eq_filter (h₂.sublist List.filter_sublist)]
  rw [h₃, List.mem_filter, List.mem_filter, Ordering.not_isLT_eq_isGE,
    Std.OrientedCmp.isGE_eq_isLE, and_assoc]

end Span

section Lookup
variable [DecidableEq κ]

theorem find?_empty (k : κ) : (empty : SortedBy key).find? k = none := rfl

theorem find?_eq_none_iff {s : SortedBy key} {k : κ} :
    s.find? k = none ↔ ∀ a ∈ s.toList, key a ≠ k := by
  simp [find?]

variable [Std.LawfulEqOrd κ]

theorem find?_eq_some_iff {s : SortedBy key} {k : κ} {a : α} :
    s.find? k = some a ↔ a ∈ s.toList ∧ key a = k := by
  constructor
  · intro h
    exact ⟨List.mem_of_find?_eq_some h, by simpa using List.find?_some h⟩
  · intro h
    obtain ⟨ha, rfl⟩ := h
    cases h : s.find? (key a) with
    | none => simpa using List.find?_eq_none.mp h a ha
    | some b =>
      have hb : key b = key a := by simpa using List.find?_some h
      rw [eq_of_key_eq (List.mem_of_find?_eq_some h) ha hb]

theorem mem_toList_iff {s : SortedBy key} {a : α} : a ∈ s.toList ↔ s.find? (key a) = some a := by
  simp [find?_eq_some_iff]

theorem contains_iff {s : SortedBy key} {k : κ} : s.contains k ↔ k ∈ s.keys := by
  simp only [contains, Option.isSome_iff_exists, find?_eq_some_iff, keys, List.mem_map]

theorem find?_filter (p : α → Bool) (s : SortedBy key) (k : κ) :
    (s.filter p).find? k = (s.find? k).filter p := by
  apply Option.ext
  intro a
  simp only [find?_eq_some_iff, Option.filter_eq_some_iff, filter, List.mem_filter]
  constructor
  · exact fun ⟨⟨h₁, h₂⟩, h₃⟩ => ⟨⟨h₁, h₃⟩, h₂⟩
  · exact fun ⟨⟨h₁, h₃⟩, h₂⟩ => ⟨⟨h₁, h₂⟩, h₃⟩

/-- Where both have the key, the first element is kept. -/
theorem find?_inter (s t : SortedBy key) (k : κ) :
    (s.inter t).find? k = if t.contains k then s.find? k else none := by
  rw [inter, find?_filter]
  cases h : s.find? k with
  | none => simp
  | some a =>
    obtain ⟨_, rfl⟩ := find?_eq_some_iff.mp h
    by_cases h' : t.contains (key a) <;> simp [h']

theorem contains_inter (s t : SortedBy key) (k : κ) :
    (s.inter t).contains k = (s.contains k && t.contains k) := by
  rw [contains, find?_inter, contains, contains]
  cases t.find? k <;> simp

theorem mem_inter {s t : SortedBy key} {a : α} :
    a ∈ (s.inter t).toList ↔ a ∈ s.toList ∧ ∃ b ∈ t.toList, key b = key a := by
  rw [inter, mem_filter, contains_iff, keys, List.mem_map]

theorem find?_place (a : α) (l : List α) (k : κ) :
    (place key a l).find? (key · = k) = if key a = k then some a else l.find? (key · = k) := by
  induction l with
  | nil => by_cases h : key a = k <;> simp [place, h]
  | cons b l ih =>
    rw [place]
    split
    · by_cases h : key a = k <;> simp [h]
    · next hab =>
      have hab : key a = key b := Std.LawfulEqOrd.eq_of_compare hab
      by_cases h : key a = k
      · simp [h]
      · simp [h, hab ▸ h]
    · next hab =>
      have hab : key a ≠ key b := fun h => by
        rw [h, Std.ReflOrd.compare_self] at hab
        contradiction
      by_cases h : key b = k
      · have : key a ≠ k := h ▸ hab
        simp [h, this]
      · simp [h, ih]

theorem find?_reverse (s : SortedBy key) (k : κ) :
    s.toList.reverse.find? (key · = k) = s.find? k := by
  cases h : s.find? k with
  | none => simpa using find?_eq_none_iff.mp h
  | some a =>
    obtain ⟨ha, rfl⟩ := find?_eq_some_iff.mp h
    cases h' : s.toList.reverse.find? (key · = key a) with
    | none => simpa using List.find?_eq_none.mp h' a (List.mem_reverse.mpr ha)
    | some b =>
      have hb : b ∈ s.toList := List.mem_reverse.mp (List.mem_of_find?_eq_some h')
      rw [eq_of_key_eq hb ha (by simpa using List.find?_some h')]

variable [Std.TransOrd κ]

theorem eq_of_find?_eq {s t : SortedBy key} (h : ∀ k, s.find? k = t.find? k) : s = t := by
  refine eq_of_mem_iff fun a => ?_
  rw [mem_toList_iff, mem_toList_iff, h (key a)]

theorem eq_iff_find?_eq {s t : SortedBy key} : s = t ↔ ∀ k, s.find? k = t.find? k :=
  ⟨fun h _ => h ▸ rfl, eq_of_find?_eq⟩

theorem find?_insert (s : SortedBy key) (a : α) (k : κ) :
    (s.insert a).find? k = if key a = k then some a else s.find? k :=
  find?_place a s.toList k

theorem find?_foldl_insert (s : SortedBy key) (l : List α) (k : κ) :
    (l.foldl insert s).find? k = (l.reverse.find? (key · = k)).or (s.find? k) := by
  induction l generalizing s with
  | nil => simp
  | cons a l ih =>
    rw [List.foldl_cons, ih, find?_insert, List.reverse_cons, List.find?_append, Option.or_assoc]
    by_cases h : key a = k <;> simp [h]

theorem size_insert_of_fresh {s : SortedBy key} {a : α} (h : s.find? (key a) = none) :
    (s.insert a).size = s.size + 1 :=
  length_place_of_fresh (find?_eq_none_iff.mp h)

theorem find?_ofList (l : List α) (k : κ) :
    (ofList l : SortedBy key).find? k = l.reverse.find? (key · = k) := by
  rw [ofList, find?_foldl_insert, find?_empty, Option.or_none]

theorem mem_ofList {l : List α} {a : α} :
    a ∈ (ofList l : SortedBy key).toList ↔ LastIn key l a := by
  rw [mem_toList_iff, find?_ofList, List.find?_eq_some_iff_append]
  simp only [decide_true, true_and, Bool.not_eq_true', decide_eq_false_iff_not]
  constructor
  · intro h
    obtain ⟨after, before, hl, hk⟩ := h
    refine ⟨before.reverse, after.reverse, ?_, fun b hb => hk b (List.mem_reverse.mp hb)⟩
    rw [← List.reverse_reverse l, hl]
    simp
  · intro h
    obtain ⟨before, after, rfl, hk⟩ := h
    exact ⟨after.reverse, before.reverse, by simp, fun b hb => hk b (List.mem_reverse.mp hb)⟩

theorem contains_ofList {l : List α} {k : κ} :
    (ofList l : SortedBy key).contains k ↔ k ∈ l.map key := by
  rw [contains, find?_ofList, List.find?_isSome]
  simp

theorem perm_keys_ofList (l : List α) :
    (ofList l : SortedBy key).keys.Perm (l.map key).dedup := by
  refine (List.perm_ext_iff_of_nodup (nodup_keys _) (List.nodup_dedup _)).mpr fun k => ?_
  rw [List.mem_dedup, ← contains_ofList, contains_iff]

theorem ofList_eq_iff {l m : List α} :
    (ofList l : SortedBy key) = ofList m ↔ ∀ a, LastIn key l a ↔ LastIn key m a := by
  constructor
  · intro h a
    rw [← mem_ofList, h, mem_ofList]
  · intro h
    exact eq_of_mem_iff fun a => by rw [mem_ofList, mem_ofList, h a]

/-- Where both have the key, the second element is kept. -/
theorem find?_union (s t : SortedBy key) (k : κ) :
    (s.union t).find? k = (t.find? k).or (s.find? k) := by
  rw [union, find?_foldl_insert, find?_reverse]

theorem contains_union (s t : SortedBy key) (k : κ) :
    (s.union t).contains k = (s.contains k || t.contains k) := by
  rw [contains, find?_union, Option.isSome_or, Bool.or_comm]
  rfl

theorem mem_union {s t : SortedBy key} {a : α} :
    a ∈ (s.union t).toList ↔ a ∈ t.toList ∨ a ∈ s.toList ∧ ∀ b ∈ t.toList, key b ≠ key a := by
  rw [mem_toList_iff, find?_union, Option.or_eq_some_iff, ← mem_toList_iff, ← mem_toList_iff,
    find?_eq_none_iff, and_comm (a := a ∈ s.toList)]

end Lookup
end SortedBy

theorem lastIn_iff_mem {α κ : Type} {key : α → κ} {l : List α} (hl : (l.map key).Nodup) {a : α} :
    LastIn key l a ↔ a ∈ l := by
  constructor
  · intro h
    obtain ⟨before, after, rfl, -⟩ := h
    simp
  · intro h
    obtain ⟨before, after, rfl⟩ := List.append_of_mem h
    refine ⟨before, after, rfl, fun b hb heq => ?_⟩
    rw [List.map_append, List.map_cons] at hl
    exact (List.nodup_cons.mp hl.of_append_right).1 (List.mem_map.mpr ⟨b, hb, heq⟩)

end RecordSearch
