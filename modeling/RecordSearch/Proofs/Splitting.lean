import RecordSearch.Proofs.Words

set_option autoImplicit false

namespace RecordSearch.Text

/-- The parts in order, with `w` between neighbours and a gap on either side of it. -/
inductive Joined (gap : List Char → Prop) (w : List Char) : List (List Char) → List Char → Prop
  | single (p : List Char) : Joined gap w [p] p
  | cons {p u v t : List Char} {ps : List (List Char)} : gap u → gap v → Joined gap w ps t →
      Joined gap w (p :: ps) (p ++ u ++ w ++ (v ++ t))

/-- The parts joined, and blanks before the first and after the last. -/
def Spaced (gap : List Char → Prop) (w : List Char) (ps : List (List Char)) (t : List Char) :
    Prop :=
  ∃ u body v, AllBlank u ∧ AllBlank v ∧ Joined gap w ps body ∧ t = u ++ body ++ v

def IsGap (u : List Char) : Prop := u ≠ [] ∧ AllBlank u

instance (u : List Char) : Decidable (IsGap u) :=
  decidable_of_iff ((!u.isEmpty && u.all isBlank) = true) (by simp [IsGap, AllBlank])

section
variable {gap : List Char → Prop} {w : List Char}

theorem Joined.append {u v s t : List Char} {ps qs : List (List Char)} (hs : Joined gap w ps s)
    (hu : gap u) (hv : gap v) (ht : Joined gap w qs t) :
    Joined gap w (ps ++ qs) (s ++ u ++ w ++ (v ++ t)) := by
  induction hs with
  | single p => exact .cons hu hv ht
  | @cons p u' v' s ps hu' hv' hs ih =>
    have he : p ++ u' ++ w ++ (v' ++ s) ++ u ++ w ++ (v ++ t) =
        p ++ u' ++ w ++ (v' ++ (s ++ u ++ w ++ (v ++ t))) := by simp
    rw [he]
    exact .cons hu' hv' ih

theorem joined_intercalate (u v p : List Char) (ps : List (List Char)) (hu : gap u) (hv : gap v) :
    Joined gap w (p :: ps) ((u ++ w ++ v).intercalate (p :: ps)) := by
  induction ps generalizing p with
  | nil =>
    rw [List.intercalate_singleton]
    exact .single p
  | cons q ps ih =>
    have he : (u ++ w ++ v).intercalate (p :: q :: ps) =
        p ++ u ++ w ++ (v ++ (u ++ w ++ v).intercalate (q :: ps)) := by
      simp [List.intercalate_cons_cons]
    rw [he]
    exact .cons hu hv (ih q)

end

theorem intercalate_append_of_ne_nil {α : Type} {s : List α} {l m : List (List α)} (hl : l ≠ [])
    (hm : m ≠ []) : s.intercalate (l ++ m) = s.intercalate l ++ s ++ s.intercalate m := by
  induction l with
  | nil => contradiction
  | cons a l ih =>
    cases l with
    | nil => simp [List.intercalate_cons_of_ne_nil hm]
    | cons b l =>
      have hbl := ih (List.cons_ne_nil b l)
      simp only [List.cons_append, List.intercalate_cons_cons, List.append_assoc] at hbl ⊢
      rw [hbl]

section Cut
variable {w : List Char}

theorem spaced_splitAtWord (hw : IsWord w) (t : List Char) :
    Spaced AllBlank w (splitAtWord w t) t := by
  induction t using cutInduction hw with
  | whole t ht =>
    rw [splitAtWord_of_notMem ht]
    obtain ⟨u, v, hu, hv, ht⟩ := exists_trim t
    exact ⟨u, trim t, v, hu, hv, .single _, ht⟩
  | cut a b ha hb iha ihb =>
    obtain ⟨u, s, v, hu, hv, hs, rfl⟩ := iha
    obtain ⟨u', t, v', hu', hv', ht, rfl⟩ := ihb
    rw [splitAtWord_append_word hw ha hb]
    refine ⟨u, _, v', hu, hv', hs.append hv hu' ht, ?_⟩
    simp

theorem words_eq_intercalate (hw : IsWord w) (t : List Char) :
    words t = [w].intercalate ((splitAtWord w t).map words) := by
  induction t using cutInduction hw with
  | whole t ht => simp [splitAtWord_of_notMem ht, words_trim]
  | cut a b ha hb iha ihb =>
    have hne (t : List Char) : (splitAtWord w t).map words ≠ [] := by
      simp [splitAtWord_ne_nil]
    rw [splitAtWord_append_word hw ha hb, List.map_append,
      intercalate_append_of_ne_nil (hne a) (hne b), ← iha, ← ihb, words_append_word hw ha hb]
    simp

/-- Cutting a text at a word loses, doubles and reorders nothing: the parts are trimmed and free
of the word, there is one more of them than there are words of this spelling between the blanks
of the text, and the text and its words are those of the parts with the word between them. -/
theorem splitAtWord_partition (hw : IsWord w) (t : List Char) :
    let parts := splitAtWord w (trim t)
    words t = (t.splitOnP isBlank).filter (fun v => !v.isEmpty) ∧
      parts.length = (words t).count w + 1 ∧
      (∀ p ∈ parts, Trimmed p ∧ w ∉ words p) ∧
      Spaced AllBlank w parts t ∧
      words t = [w].intercalate (parts.map words) := by
  intro parts
  have hp : parts = splitAtWord w t := splitAtWord_trim hw t
  rw [hp]
  refine ⟨words_eq_filter_splitOnP t, length_splitAtWord hw t, fun p hm => ?_,
    spaced_splitAtWord hw t, words_eq_intercalate hw t⟩
  obtain ⟨hn, ht⟩ := notMem_words_of_mem_splitAtWord hw hm
  exact ⟨ht, hn⟩

theorem splitAtWord_partition_dangling :
    let w := "and".toList
    let t := "\tand brand=Rand and\u3000and x ".toList
    IsWord w ∧ (splitAtWord w (trim t)).length = 4 ∧
      (∀ p ∈ splitAtWord w (trim t), Trimmed p ∧ w ∉ words p) ∧
      Spaced AllBlank w (splitAtWord w (trim t)) t ∧
      ["and".toList, "brand=Rand".toList, "and".toList, "and".toList, "x".toList] =
        [w].intercalate ((splitAtWord w (trim t)).map words) := by
  intro w t
  have hw : IsWord w := by decide
  obtain ⟨-, hl, hp, hs, hj⟩ := splitAtWord_partition hw t
  exact ⟨hw, hl.trans (by decide), hp, hs, Eq.trans (by decide) hj⟩

end Cut

section Join
variable {w : List Char} {ps : List (List Char)} {t : List Char}

theorem Joined.splitAtWord (hw : IsWord w) (h : Joined IsGap w ps t) :
    splitAtWord w t = ps.flatMap (splitAtWord w) := by
  induction h with
  | single p => simp
  | cons hu hv _ ih =>
    rw [splitAtWord_join hw hu.2 hv.2 hu.1 hv.1, ih]
    simp only [List.flatMap_cons]

theorem Spaced.splitAtWord (hw : IsWord w) (h : Spaced IsGap w ps t) :
    splitAtWord w t = ps.flatMap (splitAtWord w) := by
  obtain ⟨u, body, v, hu, hv, hj, rfl⟩ := h
  rw [splitAtWord_append_blank hw hv, splitAtWord_blank_append hw hu, hj.splitAtWord hw]

theorem spaced_intercalate (w t : List Char) (ts : List (List Char)) :
    Spaced IsGap w (t :: ts) ((' ' :: w ++ [' ']).intercalate (t :: ts)) := by
  have hb : IsGap [' '] := by decide
  refine ⟨[], _, [], by decide, by decide, joined_intercalate [' '] [' '] t ts hb hb, ?_⟩
  rw [List.nil_append, List.append_nil]
  rfl

theorem Spaced.ne_nil {gap : List Char → Prop} (h : Spaced gap w ps t) : ps ≠ [] := by
  obtain ⟨_, _, _, -, -, hj, -⟩ := h
  cases hj <;> exact List.cons_ne_nil _ _

theorem Spaced.length_eq_one_of_allBlank {gap : List Char → Prop} (hw : IsWord w)
    (h : Spaced gap w ps t) (ht : AllBlank t) : ps.length = 1 ∧ ∀ p ∈ ps, AllBlank p := by
  obtain ⟨u, body, v, -, -, hj, rfl⟩ := h
  cases hj with
  | single p => exact ⟨rfl, fun q hq c hc => ht c (by simp_all)⟩
  | cons _ _ _ =>
    obtain ⟨c, w, rfl⟩ := List.exists_cons_of_ne_nil hw.1
    have hc := hw.2 c List.mem_cons_self
    rw [ht c (by simp)] at hc
    contradiction

end Join
end RecordSearch.Text
