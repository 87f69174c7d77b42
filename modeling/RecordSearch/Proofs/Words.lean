import Mathlib.Data.List.SplitBy
import RecordSearch.Text.Word

/-!
Words of a text, and cutting a text at its words of one spelling. Everything follows from one
equation: where a word stands between blanks, the runs of the text fall apart there.
-/

set_option autoImplicit false

namespace RecordSearch.Text

def IsWord (w : List Char) : Prop := w ≠ [] ∧ ∀ c ∈ w, isBlank c = false

def AllBlank (t : List Char) : Prop := ∀ c ∈ t, isBlank c

instance (w : List Char) : Decidable (IsWord w) :=
  decidable_of_iff ((!w.isEmpty && w.all fun c => !isBlank c) = true) (by simp [IsWord])

instance (t : List Char) : Decidable (AllBlank t) :=
  decidable_of_iff (t.all isBlank = true) List.all_eq_true

/-- The text is empty or begins with a blank, so that a word before it ends there. -/
def StartsBlank (t : List Char) : Prop := ∀ c ∈ t.head?, isBlank c

def EndsBlank (t : List Char) : Prop := ∀ c ∈ t.getLast?, isBlank c

theorem AllBlank.append {u v : List Char} (hu : AllBlank u) (hv : AllBlank v) :
    AllBlank (u ++ v) := fun c hc => (List.mem_append.mp hc).elim (hu c) (hv c)

theorem AllBlank.startsBlank {t : List Char} (h : AllBlank t) : StartsBlank t :=
  fun c hc => h c (List.mem_of_mem_head? hc)

theorem AllBlank.endsBlank {t : List Char} (h : AllBlank t) : EndsBlank t :=
  fun c hc => h c (List.mem_of_getLast? hc)

theorem StartsBlank.append {t u : List Char} (ht : StartsBlank t) (hu : StartsBlank u) :
    StartsBlank (t ++ u) := by
  cases t with
  | nil => exact hu
  | cons c t => exact ht

theorem EndsBlank.append {t u : List Char} (ht : EndsBlank t) (hu : EndsBlank u) :
    EndsBlank (t ++ u) := by
  cases u using List.reverseRecOn with
  | nil => simpa using ht
  | append_singleton u c =>
    rw [← List.append_assoc]
    simpa [EndsBlank] using hu

theorem StartsBlank.of_append {t u : List Char} (h : StartsBlank (t ++ u)) : StartsBlank t := by
  cases t with
  | nil => simp [StartsBlank]
  | cons c t => exact h

theorem EndsBlank.of_append {t u : List Char} (h : EndsBlank (t ++ u)) : EndsBlank u := by
  cases u using List.reverseRecOn with
  | nil => simp [EndsBlank]
  | append_singleton u c =>
    rw [← List.append_assoc] at h
    simpa [EndsBlank] using h

theorem IsWord.trimmed {w : List Char} (hw : IsWord w) : Trimmed w := by
  constructor
  · intro c hc
    simp [hw.2 c (List.mem_of_mem_head? hc)]
  · intro c hc
    simp [hw.2 c (List.mem_of_getLast? hc)]

theorem runs_word {w : List Char} (hw : IsWord w) : runs w = [w] := by
  refine List.splitBy_of_isChain hw.1 (List.Pairwise.isChain ?_)
  refine List.pairwise_of_forall_mem_list fun a ha b hb => ?_
  simp [hw.2 a ha, hw.2 b hb]

/-- The runs of a text fall apart at a word that stands between blanks. -/
theorem runs_append_word {w a b : List Char} (hw : IsWord w) (ha : EndsBlank a)
    (hb : StartsBlank b) : runs (a ++ w ++ b) = runs a ++ w :: runs b := by
  have h₁ : runs (a ++ w ++ b) = runs (a ++ w) ++ runs b := by
    refine List.splitBy_append fun x hx y hy => ?_
    have hx' : x ∈ w := by
      rw [List.getLast?_append_of_ne_nil _ hw.1] at hx
      exact List.mem_of_getLast? hx
    simp [hw.2 x hx', hb y hy]
  have h₂ : runs (a ++ w) = runs a ++ runs w := by
    refine List.splitBy_append fun x hx y hy => ?_
    simp [ha x hx, hw.2 y (List.mem_of_mem_head? hy)]
  rw [h₁, h₂, runs_word hw, List.append_assoc]
  rfl

theorem isWord_iff {w : List Char} : isWord w ↔ ∀ c ∈ w, isBlank c = false := by
  simp [isWord]

theorem mem_words_word {w v : List Char} (hw : IsWord w) : v ∈ words w ↔ v = w := by
  have hi : isWord w := isWord_iff.mpr hw.2
  simp [words, runs_word hw, hi]

theorem words_append_word {w a b : List Char} (hw : IsWord w) (ha : EndsBlank a)
    (hb : StartsBlank b) : words (a ++ w ++ b) = words a ++ w :: words b := by
  have hi : isWord w := isWord_iff.mpr hw.2
  rw [words, runs_append_word hw ha hb]
  simp [words, hi]

theorem splitAtWord_append_word {w a b : List Char} (hw : IsWord w) (ha : EndsBlank a)
    (hb : StartsBlank b) :
    splitAtWord w (a ++ w ++ b) = splitAtWord w a ++ splitAtWord w b := by
  have hp : (isWord w && w == w) = true := by simp [isWord_iff.mpr hw.2]
  have hs : (runs a ++ w :: runs b).splitOnP (fun run => isWord run && run == w) =
      (runs a).splitOnP (fun run => isWord run && run == w) ++
        (runs b).splitOnP (fun run => isWord run && run == w) :=
    List.splitOnP_append_cons _ _ hp
  rw [splitAtWord, runs_append_word hw ha hb, hs, List.map_append]
  rfl

theorem splitAtWord_of_notMem {w t : List Char} (h : w ∉ words t) : splitAtWord w t = [trim t] := by
  have hr : ∀ run ∈ runs t, (isWord run && run == w) = false := by
    intro run hrun
    by_cases he : run = w
    · subst he
      simp [words, hrun] at h
      simp [h]
    · simp [he]
  rw [splitAtWord, List.splitOnP_eq_singleton hr]
  simp [runs, List.flatten_splitBy]

section Neighbours
variable {w : List Char} {l m : List (List Char)}

/-- Runs that follow each other differ at their border, so what is before a word ends blank. -/
theorem endsBlank_flatten (hw : ∀ c ∈ w, isBlank c = false)
    (hc : (l ++ w :: m).IsChain fun x y =>
      ∃ hx hy, (isBlank (x.getLast hx) == isBlank (y.head hy)) = false) :
    EndsBlank l.flatten := by
  intro c hlast
  cases l using List.reverseRecOn with
  | nil => simp at hlast
  | append_singleton l x =>
    obtain ⟨hx, hne, hborder⟩ := (List.isChain_append.mp hc).2.2 x (by simp) w (by simp)
    have hcx : x.getLast hx = c := by
      simp [List.getLast?_append_of_ne_nil _ hx, List.getLast?_eq_some_getLast hx] at hlast
      exact hlast
    rw [hw _ (List.head_mem hne), hcx] at hborder
    simpa using hborder

theorem startsBlank_flatten (hw : ∀ c ∈ w, isBlank c = false)
    (hc : (l ++ w :: m).IsChain fun x y =>
      ∃ hx hy, (isBlank (x.getLast hx) == isBlank (y.head hy)) = false) :
    StartsBlank m.flatten := by
  intro c hhead
  cases m with
  | nil => simp at hhead
  | cons y m =>
    obtain ⟨hne, hy, hborder⟩ := (List.isChain_cons_cons.mp (List.isChain_append.mp hc).2.1).1
    have hcy : y.head hy = c := by
      simp [List.head?_append_of_ne_nil _ hy, List.head?_eq_some_head hy] at hhead
      exact hhead
    rw [hw _ (List.getLast_mem hne), hcy] at hborder
    simpa using hborder

end Neighbours

/-- A word of a text stands between blanks, or at an end of the text. -/
theorem mem_words_iff {w t : List Char} :
    w ∈ words t ↔ IsWord w ∧ ∃ a b, t = a ++ w ++ b ∧ EndsBlank a ∧ StartsBlank b := by
  constructor
  · intro h
    obtain ⟨hrun, hi⟩ := List.mem_filter.mp h
    have hw : IsWord w := ⟨List.ne_nil_of_mem_splitBy hrun, isWord_iff.mp hi⟩
    obtain ⟨l, m, hlm⟩ := List.append_of_mem hrun
    have hc := List.isChain_getLast_head_splitBy (fun a b => isBlank a == isBlank b) t
    have hf := List.flatten_splitBy (fun a b => isBlank a == isBlank b) t
    rw [← runs, hlm] at hc hf
    refine ⟨hw, l.flatten, m.flatten, ?_, endsBlank_flatten hw.2 hc, startsBlank_flatten hw.2 hc⟩
    rw [← hf]
    simp
  · intro h
    obtain ⟨hw, a, b, rfl, ha, hb⟩ := h
    rw [words_append_word hw ha hb]
    simp

/-- A text without the word, or two shorter texts with the word between them. -/
theorem cutInduction {w : List Char} (hw : IsWord w) {motive : List Char → Prop}
    (whole : ∀ t, w ∉ words t → motive t)
    (cut : ∀ a b, EndsBlank a → StartsBlank b → motive a → motive b → motive (a ++ w ++ b))
    (t : List Char) : motive t := by
  by_cases h : w ∈ words t
  · obtain ⟨-, a, b, hab, ha, hb⟩ := mem_words_iff.mp h
    -- Both texts are shorter than `t`, since a word is not empty.
    have hl : t.length = a.length + w.length + b.length := by
      rw [hab, List.length_append, List.length_append]
    have hpos := List.length_pos_iff.mpr hw.1
    rw [hab]
    exact cut a b ha hb (cutInduction hw whole cut a) (cutInduction hw whole cut b)
  · exact whole t h
termination_by t.length

theorem words_of_allBlank {u : List Char} (hu : AllBlank u) : words u = [] := by
  rw [List.eq_nil_iff_forall_not_mem]
  intro w hw
  obtain ⟨hword, a, b, rfl, -, -⟩ := mem_words_iff.mp hw
  obtain ⟨c, w, rfl⟩ := List.exists_cons_of_ne_nil hword.1
  have hc := hword.2 c List.mem_cons_self
  rw [hu c (by simp)] at hc
  contradiction

theorem exists_first_word (t : List Char) :
    AllBlank t ∨ ∃ u w b, AllBlank u ∧ IsWord w ∧ StartsBlank b ∧ t = u ++ w ++ b := by
  obtain ⟨u, hu, ht⟩ := exists_trimStart t
  cases hr : trimStart t with
  | nil =>
    rw [hr, List.append_nil] at ht
    exact .inl (ht ▸ hu)
  | cons c r =>
    have hc : isBlank c = false := by simpa using head?_trimStart (t := t) (by simp [hr])
    have hw : ∀ d ∈ c :: r.takeWhile (!isBlank ·), isBlank d = false := by
      intro d hd
      rcases List.mem_cons.mp hd with rfl | hd
      · exact hc
      · simpa using List.all_eq_true.mp List.all_takeWhile d hd
    have hb : StartsBlank (r.dropWhile (!isBlank ·)) := by
      intro d hd
      have h := List.head?_dropWhile_not (!isBlank ·) r
      rw [Option.mem_def.mp hd] at h
      simpa using h
    refine .inr ⟨u, _, _, hu, ⟨List.cons_ne_nil _ _, hw⟩, hb, ?_⟩
    rw [ht, hr, List.append_assoc, List.cons_append, List.takeWhile_append_dropWhile]

theorem words_first {u w b : List Char} (hu : AllBlank u) (hw : IsWord w) (hb : StartsBlank b) :
    words (u ++ w ++ b) = w :: words b := by
  rw [words_append_word hw hu.endsBlank hb, words_of_allBlank hu, List.nil_append]

/-- A text is blank, or blanks, a first word and a text that begins with a blank. -/
theorem wordInduction {motive : List Char → Prop} (blank : ∀ t, AllBlank t → motive t)
    (word : ∀ u w b, AllBlank u → IsWord w → StartsBlank b → motive b → motive (u ++ w ++ b))
    (t : List Char) : motive t := by
  rcases exists_first_word t with ht | ⟨u, w, b, hu, hw, hb, ht⟩
  · exact blank t ht
  · have hl : t.length = u.length + w.length + b.length := by
      rw [ht, List.length_append, List.length_append]
    have hpos := List.length_pos_iff.mpr hw.1
    rw [ht]
    exact word u w b hu hw hb (wordInduction blank word b)
termination_by t.length

section Blank
variable {w u : List Char}

theorem words_blank_append (hu : AllBlank u) (t : List Char) : words (u ++ t) = words t := by
  rcases exists_first_word t with ht | ⟨v, w, b, hv, hw, hb, rfl⟩
  · rw [words_of_allBlank (hu.append ht), words_of_allBlank ht]
  · have he : u ++ (v ++ w ++ b) = (u ++ v) ++ w ++ b := by simp
    rw [he, words_first (hu.append hv) hw hb, words_first hv hw hb]

theorem words_append_blank (hu : AllBlank u) (t : List Char) : words (t ++ u) = words t := by
  induction t using wordInduction with
  | blank t ht => rw [words_of_allBlank (ht.append hu), words_of_allBlank ht]
  | word v w b hv hw hb ih =>
    rw [List.append_assoc (v ++ w), words_first hv hw (hb.append hu.startsBlank), ih,
      words_first hv hw hb]

theorem words_trim (t : List Char) : words (trim t) = words t := by
  obtain ⟨u, v, hu, hv, ht⟩ := exists_trim t
  have h := words_append_blank hv (u ++ trim t)
  rw [← ht, words_blank_append hu] at h
  exact h.symm

theorem filter_splitOnP_blank_append (hu : AllBlank u) (t : List Char) :
    ((u ++ t).splitOnP isBlank).filter (fun v => !v.isEmpty) =
      (t.splitOnP isBlank).filter fun v => !v.isEmpty := by
  induction u with
  | nil => rfl
  | cons c u ih =>
    have hc : isBlank c := hu c List.mem_cons_self
    rw [List.cons_append, List.splitOnP_cons_eq_if_modifyHead, if_pos hc,
      List.filter_cons_of_neg (by simp)]
    exact ih fun d hd => hu d (List.mem_cons_of_mem c hd)

/-- The words are the pieces of a text between its blanks, without the empty ones. -/
theorem words_eq_filter_splitOnP (t : List Char) :
    words t = (t.splitOnP isBlank).filter fun v => !v.isEmpty := by
  induction t using wordInduction with
  | blank t ht =>
    have h := filter_splitOnP_blank_append ht []
    rw [List.append_nil] at h
    rw [words_of_allBlank ht, h]
    simp
  | word u w b hu hw hb ih =>
    have hne : w.isEmpty = false := by simpa using hw.1
    rw [words_first hu hw hb, ih, List.append_assoc, filter_splitOnP_blank_append hu]
    cases b with
    | nil => simp [List.splitOnP_eq_singleton hw.2, hne]
    | cons c b =>
      have hc : isBlank c := hb c rfl
      have hb' := filter_splitOnP_blank_append (u := [c]) (by simpa [AllBlank] using hc) b
      rw [List.singleton_append] at hb'
      rw [List.splitOnP_append_cons _ _ hc, List.splitOnP_eq_singleton hw.2, hb']
      simp [hne]

theorem splitAtWord_blank_append (hw : IsWord w) (hu : AllBlank u) (t : List Char) :
    splitAtWord w (u ++ t) = splitAtWord w t := by
  induction t using cutInduction hw with
  | whole t ht =>
    have ht' : w ∉ words (u ++ t) := by rwa [words_blank_append hu]
    rw [splitAtWord_of_notMem ht, splitAtWord_of_notMem ht', trim_blank_append hu]
  | cut a b ha hb iha ihb =>
    have he : u ++ (a ++ w ++ b) = (u ++ a) ++ w ++ b := by simp
    rw [he, splitAtWord_append_word hw (hu.endsBlank.append ha) hb, iha,
      splitAtWord_append_word hw ha hb]

theorem splitAtWord_append_blank (hw : IsWord w) (hu : AllBlank u) (t : List Char) :
    splitAtWord w (t ++ u) = splitAtWord w t := by
  induction t using cutInduction hw with
  | whole t ht =>
    have ht' : w ∉ words (t ++ u) := by rwa [words_append_blank hu]
    rw [splitAtWord_of_notMem ht, splitAtWord_of_notMem ht', trim_append_blank hu]
  | cut a b ha hb iha ihb =>
    rw [List.append_assoc (a ++ w), splitAtWord_append_word hw ha (hb.append hu.startsBlank), ihb,
      splitAtWord_append_word hw ha hb]

theorem splitAtWord_trim (hw : IsWord w) (t : List Char) :
    splitAtWord w (trim t) = splitAtWord w t := by
  obtain ⟨u, v, hu, hv, ht⟩ := exists_trim t
  have h := splitAtWord_append_blank hw hv (u ++ trim t)
  rw [← ht, splitAtWord_blank_append hw hu] at h
  exact h.symm

end Blank

theorem splitAtWord_join {w u v : List Char} (hw : IsWord w) (hu : AllBlank u) (hv : AllBlank v)
    (hu' : u ≠ []) (hv' : v ≠ []) (a b : List Char) :
    splitAtWord w (a ++ u ++ w ++ (v ++ b)) = splitAtWord w a ++ splitAtWord w b := by
  have ha : EndsBlank (a ++ u) := by
    intro c hc
    rw [List.getLast?_append_of_ne_nil _ hu'] at hc
    exact hu.endsBlank c hc
  have hb : StartsBlank (v ++ b) := by
    intro c hc
    rw [List.head?_append_of_ne_nil _ hv'] at hc
    exact hv.startsBlank c hc
  rw [splitAtWord_append_word hw ha hb, splitAtWord_append_blank hw hu,
    splitAtWord_blank_append hw hv]

theorem length_splitAtWord {w : List Char} (hw : IsWord w) (t : List Char) :
    (splitAtWord w t).length = (words t).count w + 1 := by
  induction t using cutInduction hw with
  | whole t ht => simp [splitAtWord_of_notMem ht, List.count_eq_zero.mpr ht]
  | cut a b ha hb iha ihb =>
    rw [splitAtWord_append_word hw ha hb, words_append_word hw ha hb, List.length_append, iha, ihb]
    simp only [List.count_append, List.count_cons_self]
    omega

theorem notMem_words_of_mem_splitAtWord {w t p : List Char} (hw : IsWord w)
    (hp : p ∈ splitAtWord w t) : w ∉ words p ∧ Trimmed p := by
  induction t using cutInduction hw with
  | whole t ht =>
    rw [splitAtWord_of_notMem ht, List.mem_singleton] at hp
    subst hp
    exact ⟨by rwa [words_trim], trimmed_trim t⟩
  | cut a b ha hb iha ihb =>
    rw [splitAtWord_append_word hw ha hb, List.mem_append] at hp
    exact hp.elim iha ihb

theorem length_flatMap_splitAtWord {w : List Char} (hw : IsWord w) (ts : List (List Char)) :
    (ts.flatMap (splitAtWord w)).length = ts.length + (ts.flatMap words).count w := by
  induction ts with
  | nil => rfl
  | cons t ts ih =>
    simp only [List.flatMap_cons, List.length_append, List.count_append, List.length_cons, ih,
      length_splitAtWord hw]
    omega

theorem flatMap_splitAtWord {w : List Char} {ts : List (List Char)}
    (h : ∀ t ∈ ts, w ∉ words t) : ts.flatMap (splitAtWord w) = ts.map trim := by
  induction ts with
  | nil => rfl
  | cons t ts ih =>
    rw [List.flatMap_cons, splitAtWord_of_notMem (h t List.mem_cons_self),
      ih fun t' ht' => h t' (List.mem_cons_of_mem t ht')]
    rfl

def StandsBefore (w t : List Char) : Prop :=
  ∃ a b, t = a ++ w ++ b ∧ EndsBlank a ∧ StartsBlank b ∧ b ≠ []

def StandsAfter (w t : List Char) : Prop :=
  ∃ a b, t = a ++ w ++ b ∧ EndsBlank a ∧ a ≠ [] ∧ StartsBlank b

theorem StandsBefore.of_trim {w t : List Char} (h : StandsBefore w (trim t)) :
    StandsBefore w t := by
  obtain ⟨u, v, hu, hv, ht⟩ := exists_trim t
  obtain ⟨a, b, hab, ha, hb, hne⟩ := h
  refine ⟨u ++ a, b ++ v, ?_, (AllBlank.endsBlank hu).append ha,
    hb.append (AllBlank.startsBlank hv), by simp [hne]⟩
  rw [ht, hab]
  simp

theorem StandsAfter.of_trim {w t : List Char} (h : StandsAfter w (trim t)) :
    StandsAfter w t := by
  obtain ⟨u, v, hu, hv, ht⟩ := exists_trim t
  obtain ⟨a, b, hab, ha, hne, hb⟩ := h
  refine ⟨u ++ a, b ++ v, ?_, (AllBlank.endsBlank hu).append ha, by simp [hne],
    hb.append (AllBlank.startsBlank hv)⟩
  rw [ht, hab]
  simp

theorem StandsAfter.exists_blank {w t : List Char} (h : StandsAfter w t) :
    ∃ c ∈ t, isBlank c := by
  obtain ⟨a, b, rfl, ha, hne, -⟩ := h
  have hc := List.getLast?_eq_some_getLast hne
  exact ⟨a.getLast hne, by simp, ha _ hc⟩

theorem not_startsBlank_cons {c : Char} {t : List Char} (h : isBlank c = false) :
    ¬StartsBlank (c :: t) := by
  simp [StartsBlank, h]

theorem not_endsBlank_singleton {c : Char} (h : isBlank c = false) : ¬EndsBlank [c] := by
  simp [EndsBlank, h]

/-- A stretch of a text that does not hold a symbol stands on one side of the symbol. -/
theorem append_glue_cases {op : Char} {w f v a b : List Char} (hop : op ∉ w)
    (h : f ++ op :: v = a ++ w ++ b) :
    (∃ s, f = a ++ w ++ s ∧ b = s ++ op :: v) ∨ ∃ s, a = f ++ op :: s ∧ v = s ++ w ++ b := by
  rw [List.append_eq_append_iff] at h
  rcases h with ⟨s, hs, hv⟩ | ⟨s, hf, hb⟩
  · cases s with
    | nil => exact .inl ⟨[], by simpa using hs.symm, hv.symm⟩
    | cons c s =>
      obtain ⟨rfl, rfl⟩ := List.cons.inj hv
      rw [List.append_eq_append_iff] at hs
      rcases hs with ⟨x, -, hx⟩ | ⟨y, rfl, hy⟩
      · exact absurd (by simp [hx]) hop
      · cases y with
        | nil =>
          obtain rfl : op :: s = w := hy
          exact absurd List.mem_cons_self hop
        | cons d y =>
          obtain ⟨rfl, rfl⟩ := List.cons.inj hy
          exact .inr ⟨y, rfl, rfl⟩
  · exact .inl ⟨s, hf, hb⟩

/-- Two texts with a symbol between them have the words of each that the symbol does not touch. -/
theorem mem_words_glue {op : Char} {w f v : List Char} (ho : isBlank op = false) (hop : op ∉ w) :
    w ∈ words (f ++ op :: v) ↔ IsWord w ∧ (StandsBefore w f ∨ StandsAfter w v) := by
  rw [mem_words_iff]
  refine and_congr_right fun hw => ?_
  constructor
  · intro h
    obtain ⟨a, b, hab, ha, hb⟩ := h
    rcases append_glue_cases hop hab with ⟨s, hf, rfl⟩ | ⟨s, rfl, hv⟩
    · have hne : s ≠ [] := fun hs => not_startsBlank_cons ho (by simpa [hs] using hb)
      exact .inl ⟨a, s, hf, ha, hb.of_append, hne⟩
    · have ha' : EndsBlank ([op] ++ s) := ha.of_append
      have hne : s ≠ [] := fun hs => not_endsBlank_singleton ho (by simpa [hs] using ha')
      exact .inr ⟨s, b, hv, ha'.of_append, hne, hb⟩
  · intro h
    rcases h with ⟨a, b, rfl, ha, hb, hne⟩ | ⟨a, b, rfl, ha, hne, hb⟩
    · refine ⟨a, b ++ op :: v, by simp, ha, fun c hc => hb c ?_⟩
      rwa [List.head?_append_of_ne_nil _ hne] at hc
    · refine ⟨f ++ op :: a, b, by simp, fun c hc => ha c ?_, hb⟩
      rw [List.getLast?_append_of_ne_nil _ (List.cons_ne_nil _ _)] at hc
      rwa [List.getLast?_cons_of_ne_nil hne] at hc

end RecordSearch.Text
