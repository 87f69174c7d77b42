import RecordSearch.Proofs.Conjunction
import RecordSearch.Proofs.Legibility

/-!
Reading the display of a query. Joining the clauses makes one word fewer than there are clauses,
so the query comes back when no clause holds the keyword as a word of its own. A query that was
read has no such clause, except the lookup of an id whose decimal text is the keyword.
-/

set_option autoImplicit false

namespace RecordSearch
open Text

theorem repr_ne_of_not_isDigits {n : Nat} {word : String} (h : ¬isDigits word.toList) :
    n.repr ≠ word := by
  intro heq
  subst heq
  exact h (by simpa using isDigits_toDigits n)

theorem Clause.ofText_blank {idField text : String} (h : trim text.toList = []) :
    ofText idField text = .malformedId "" := by
  rw [ofText, h]
  exact (Spells.noId (by simp) (by simp) (by decide)).ofTrimmed

namespace Query

theorem toList_displayWith (q : Query) (word : String) :
    (q.displayWith word).toList =
      (' ' :: word.toList ++ [' ']).intercalate (q.clauses.map fun c => c.display.toList) := by
  simp [displayWith, String.toList_intercalate, Function.comp_def]

/-- What survives display and reading: clauses that do by themselves, none of which holds the
conjunction. A blank display is read as no clause, not as one. -/
structure Rereadable (d : Dialect) (q : Query) : Prop where
  read : ∀ c ∈ q.clauses, Clause.ofText d.idField c.display = c
  unsplit : ∀ c ∈ q.clauses, d.conjunction.toList ∉ words c.display.toList
  shown : q ≠ ⟨[.malformedId ""]⟩

end Query

namespace Dialect
variable {d : Dialect}

theorem Accepted.notMem_conjunction (h : d.Accepted) {c : Char} (hc : Operator.isSymbol c) :
    c ∉ d.conjunction.toList := by
  intro hm
  obtain ⟨-, he, hp⟩ := (wordFault?_eq_none_iff.mp h.1).2 c hm
  cases Operator.isSymbol_iff.mp hc with
  | inl h => exact he h
  | inr h => exact hp h

end Dialect

namespace Query
variable {d : Dialect} {q : Query}

theorem spaced_displayWith (word : String) (hq : q.clauses ≠ []) :
    Spaced IsGap word.toList ((q.clauses.map Clause.display).map String.toList)
      (q.displayWith word).toList :=
  spaced_toList_intercalate word (mt List.map_eq_nil_iff.mp hq)

theorem splitAtWord_displayWith {word : String} (hw : IsWord word.toList) (hq : q.clauses ≠ []) :
    splitAtWord word.toList (q.displayWith word).toList =
      (q.clauses.map fun c => c.display.toList).flatMap (splitAtWord word.toList) := by
  rw [(spaced_displayWith word hq).splitAtWord hw, List.map_map]
  rfl

theorem trim_displayWith_empty {word : String} (hq : q.clauses = []) :
    trim (q.displayWith word).toList = [] := by
  rw [toList_displayWith, hq]
  rfl

theorem length_le_one_of_blank {word : String} (hw : IsWord word.toList)
    (h : trim (q.displayWith word).toList = []) :
    q.clauses = [] ∨ ∃ c, q.clauses = [c] ∧ trim c.display.toList = [] := by
  by_cases hq : q.clauses = []
  · exact .inl hq
  · obtain ⟨hl, hb⟩ :=
      (spaced_displayWith word hq).length_eq_one_of_allBlank hw (trim_eq_nil_iff.mp h)
    obtain ⟨c, hc⟩ := List.length_eq_one_iff.mp (by simpa using hl)
    exact .inr ⟨c, hc, trim_eq_nil_iff.mpr (hb _ (by simp [hc]))⟩

theorem parse_displayWith_of_unsplit (hd : d.Accepted)
    (hb : trim (q.displayWith d.conjunction).toList ≠ [])
    (hu : ∀ c ∈ q.clauses, d.conjunction.toList ∉ words c.display.toList) :
    (d.parse (some (q.displayWith d.conjunction))).clauses =
      q.clauses.map fun c => Clause.ofText d.idField c.display := by
  have hs := spaced_displayWith d.conjunction (mt trim_displayWith_empty hb)
  have hw : ∀ t ∈ q.clauses.map Clause.display, d.conjunction.toList ∉ words t.toList := by
    simpa using hu
  rw [Dialect.parse_spaced_of_notMem hd hs hw hb]
  simp only [List.map_map, Function.comp_def]

theorem Rereadable.parse_displayWith (hd : d.Accepted) (h : q.Rereadable d) :
    d.parse (some (q.displayWith d.conjunction)) = q := by
  by_cases hb : trim (q.displayWith d.conjunction).toList = []
  · rw [d.parse_of_blank hb]
    rcases length_le_one_of_blank hd.isWord hb with hn | ⟨c, hc, hb⟩
    · rw [empty, ← hn]
    · have hr := h.read c (by simp [hc])
      rw [Clause.ofText_blank hb] at hr
      exact absurd (by rw [hr, ← hc]) h.shown
  · have hcs := parse_displayWith_of_unsplit hd hb h.unsplit
    rw [List.map_congr_left h.read, List.map_id'] at hcs
    exact congrArg Query.mk hcs

/-- Any other keyword in the display would have added a clause. -/
theorem Rereadable.of_parse_displayWith (hd : d.Accepted)
    (h : d.parse (some (q.displayWith d.conjunction)) = q) : q.Rereadable d := by
  by_cases hb : trim (q.displayWith d.conjunction).toList = []
  · rw [d.parse_of_blank hb] at h
    subst h
    exact ⟨by simp [empty], by simp [empty], by simp [empty]⟩
  · have hu : ∀ c ∈ q.clauses, d.conjunction.toList ∉ words c.display.toList := by
      -- Each keyword within a clause makes one part more than there are clauses.
      have hlen := congrArg (fun q : Query => q.clauses.length) h
      rw [Dialect.parse_of_not_blank hd hb,
        splitAtWord_displayWith hd.isWord (mt trim_displayWith_empty hb)] at hlen
      simp only [List.length_map, length_flatMap_splitAtWord hd.isWord] at hlen
      have hw : d.conjunction.toList ∉ (q.clauses.map fun c => c.display.toList).flatMap words :=
        List.count_eq_zero.mp (by omega)
      intro c hc hm
      exact hw (List.mem_flatMap.mpr ⟨_, List.mem_map_of_mem hc, hm⟩)
    have hcs := parse_displayWith_of_unsplit hd hb hu
    rw [h] at hcs
    refine ⟨fun c hc => ?_, hu, ?_⟩
    · exact (List.map_inj_left.mp ((List.map_id _).trans hcs) c hc).symm
    · intro heq
      subst heq
      exact hb rfl

/-- A query survives display and reading exactly when its clauses do by themselves, none of them
holds the conjunction as a word, and the display is not blank for a single clause. -/
theorem parse_displayWith_eq_self_iff (hd : d.Accepted) (q : Query) :
    d.parse (some (q.displayWith d.conjunction)) = q ↔
      (∀ c ∈ q.clauses, Clause.ofText d.idField c.display = c) ∧
      (∀ c ∈ q.clauses, d.conjunction.toList ∉ words c.display.toList) ∧
      q ≠ ⟨[.malformedId ""]⟩ := by
  constructor
  · intro h
    have hr := Rereadable.of_parse_displayWith hd h
    exact ⟨hr.read, hr.unsplit, hr.shown⟩
  · intro h
    exact Rereadable.parse_displayWith hd ⟨h.1, h.2.1, h.2.2⟩

theorem parse_displayWith_eq_self_iff_two_queries :
    Dialect.standard.Accepted ∧
      Dialect.standard.parse (some (displayWith ⟨[.idLookup 7, .fieldEquals "name" "Ada"]⟩ "and")) =
        ⟨[.idLookup 7, .fieldEquals "name" "Ada"]⟩ ∧
      Dialect.standard.parse (some (displayWith ⟨[.fieldEquals "name" "you and me"]⟩ "and")) ≠
        ⟨[.fieldEquals "name" "you and me"]⟩ := by
  have hd := Dialect.standard_accepted
  refine ⟨hd, ?_, fun h => ?_⟩
  · exact (parse_displayWith_eq_self_iff hd _).mpr ⟨by decide, by decide, by decide⟩
  · exact absurd ((parse_displayWith_eq_self_iff hd _).mp h).2.1 (by decide)

end Query

namespace Dialect
variable {d : Dialect}

theorem parse_eq_empty_or (hd : d.Accepted) (expression : Option String) :
    d.parse expression = .empty ∨ ∃ text : String, trim text.toList ≠ [] ∧
      d.parse expression = ⟨(splitAtWord d.conjunction.toList text.toList).map fun part =>
        Clause.ofText d.idField (String.ofList part)⟩ := by
  cases expression with
  | none => exact .inl rfl
  | some text =>
    by_cases hb : trim text.toList = []
    · exact .inl (parse_of_blank d hb)
    · exact .inr ⟨text, hb, parse_of_not_blank hd hb⟩

theorem exists_part_of_mem_parse (hd : d.Accepted) {expression : Option String} {c : Clause}
    (hc : c ∈ (d.parse expression).clauses) :
    ∃ part, Trimmed part ∧ d.conjunction.toList ∉ words part ∧
      Clause.ofText d.idField (String.ofList part) = c := by
  rcases parse_eq_empty_or hd expression with he | ⟨text, -, he⟩
  · simp [he, Query.empty] at hc
  · simp only [he, List.mem_map] at hc
    obtain ⟨part, hp, hc⟩ := hc
    obtain ⟨hw, ht⟩ := notMem_words_of_mem_splitAtWord hd.isWord hp
    exact ⟨part, ht, hw, hc⟩

/-- No expression is read as one clause with a blank text. -/
theorem parse_ne_malformedId (hd : d.Accepted) (expression : Option String) :
    d.parse expression ≠ ⟨[.malformedId ""]⟩ := by
  intro h
  rcases parse_eq_empty_or hd expression with he | ⟨text, hb, he⟩
  · rw [he] at h
    simp [Query.empty] at h
  · rw [he, Query.mk.injEq] at h
    have hlen := congrArg List.length h
    rw [List.length_map, length_splitAtWord hd.isWord] at hlen
    simp only [List.length_singleton, Nat.add_eq_right, List.count_eq_zero] at hlen
    rw [splitAtWord_of_notMem hlen, List.map_singleton, Clause.ofText_trim] at h
    have hs := (Clause.spells_iff (trimmed_trim _)).mpr (List.cons.inj h).1
    exact hb (hs.eq_nil_of_display rfl)

theorem rereadable_parse_iff (hd : d.Accepted) (expression : Option String) :
    (d.parse expression).Rereadable d ↔
      ∀ id, .idLookup id ∈ (d.parse expression).clauses → id.toNat.repr ≠ d.conjunction := by
  constructor
  · intro h id hid heq
    apply h.unsplit _ hid
    rw [Clause.display, heq, mem_words_word hd.isWord]
  · intro h
    refine ⟨fun c hc => ?_, fun c hc => ?_, parse_ne_malformedId hd expression⟩
    · obtain ⟨part, -, -, rfl⟩ := exists_part_of_mem_parse hd hc
      exact Clause.ofText_display_ofText _ _
    · obtain ⟨part, ht, hw, hp⟩ := exists_part_of_mem_parse hd hc
      rw [Clause.ofText, String.toList_ofList, trim_eq_self_iff.mpr ht] at hp
      have hs := (Clause.spells_iff ht).mpr hp
      refine hs.notMem_words_display hw (fun _ => hd.notMem_conjunction) ?_
      intro id hid heq
      subst hid
      apply h id hc
      rw [← String.toList_inj, ← heq]
      simp

/-- Reading, displaying and reading again gives the same query, unless an id is looked up whose
decimal text is the conjunction, as in `007` where the clauses are joined by `7`. -/
theorem parse_displayWith_parse (hd : d.Accepted) (expression : Option String) :
    (d.parse (some ((d.parse expression).displayWith d.conjunction)) = d.parse expression ↔
      ∀ id, .idLookup id ∈ (d.parse expression).clauses → id.toNat.repr ≠ d.conjunction) ∧
    (d = standard ∨ (∀ n : Nat, n.repr ≠ d.conjunction) →
      d.parse (some ((d.parse expression).displayWith d.conjunction)) = d.parse expression) := by
  have hiff := rereadable_parse_iff hd expression
  constructor
  · rw [← hiff]
    exact ⟨Query.Rereadable.of_parse_displayWith hd, Query.Rereadable.parse_displayWith hd⟩
  · intro h
    refine (hiff.mpr fun id _ => ?_).parse_displayWith hd
    cases h with
    | inl h =>
      subst h
      exact repr_ne_of_not_isDigits (by decide)
    | inr h => exact h id.toNat

theorem parse_displayWith_parse_and_seven :
    (standard.Accepted ∧
      standard.parse (some ((standard.parse (some "id = 007 and 7 ")).displayWith "and")) =
        standard.parse (some "id = 007 and 7 ")) ∧
    ((⟨"07", "id"⟩ : Dialect).Accepted ∧
      parse ⟨"07", "id"⟩ (some ((parse ⟨"07", "id"⟩ (some "7 07 a~ 07")).displayWith "07")) =
        parse ⟨"07", "id"⟩ (some "7 07 a~ 07")) ∧
    ((⟨"7", "id"⟩ : Dialect).Accepted ∧
      parse ⟨"7", "id"⟩ (some ((parse ⟨"7", "id"⟩ (some "007")).displayWith "7")) ≠
        parse ⟨"7", "id"⟩ (some "007")) := by
  have h₁ : (⟨"07", "id"⟩ : Dialect).Accepted := by decide
  have h₂ : (⟨"7", "id"⟩ : Dialect).Accepted := by decide
  refine ⟨⟨standard_accepted, ?_⟩, ⟨h₁, ?_⟩, h₂, fun h => ?_⟩
  · exact (parse_displayWith_parse standard_accepted _).2 (.inl rfl)
  · refine (parse_displayWith_parse h₁ _).2 (.inr fun n hn => ?_)
    -- The text is read as seven, whose decimal text is another one.
    have hl : Nat.toDigits 10 n = ['0', '7'] := by simpa using congrArg String.toList hn
    have hv : n = 7 := by
      rw [← Nat.ofDigitChars_ten_toDigits (n := n), hl]
      rfl
    subst hv
    exact absurd hl (by decide)
  · exact (parse_displayWith_parse h₂ _).1.mp h 7 (by decide) (by decide)

end Dialect
end RecordSearch
