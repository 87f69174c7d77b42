import RecordSearch.Proofs.Splitting
import RecordSearch.Query

set_option autoImplicit false

namespace RecordSearch
open Text

theorem spaced_toList_intercalate (word : String) {ts : List String} (hne : ts ≠ []) :
    Spaced IsGap word.toList (ts.map String.toList)
      ((" " ++ word ++ " ").intercalate ts).toList := by
  obtain ⟨t, ts, rfl⟩ := List.exists_cons_of_ne_nil hne
  simpa [String.toList_intercalate] using
    spaced_intercalate word.toList t.toList (ts.map String.toList)

theorem Clause.ofText_trim (idField text : String) :
    ofText idField (String.ofList (trim text.toList)) = ofText idField text := by
  simp [ofText, trim_trim]

namespace Dialect
variable {d : Dialect} {parts : List String} {expression : String}

theorem Accepted.isWord (h : d.Accepted) : IsWord d.conjunction.toList := by
  obtain ⟨hne, hc⟩ := wordFault?_eq_none_iff.mp h.1
  exact ⟨hne, fun c hm => by simpa using (hc c hm).1⟩

theorem parse_of_blank (d : Dialect) {text : String} (h : trim text.toList = []) :
    d.parse (some text) = .empty := by
  simp [parse, conjuncts, h, Option.filter_some, Query.empty]

def IsBlank (expression : Option String) : Prop := ∀ text ∈ expression, AllBlank text.toList

theorem clauses_parse_eq_nil_iff (d : Dialect) (expression : Option String) :
    (d.parse expression).clauses = [] ↔ IsBlank expression := by
  cases expression with
  | none => simp [parse, conjuncts, IsBlank]
  | some text =>
    have hb : trim text.toList = [] ↔ AllBlank text.toList := trim_eq_nil_iff
    by_cases ht : trim text.toList = []
    · simp [d.parse_of_blank ht, Query.empty, IsBlank, hb.mp ht]
    · simp [parse, conjuncts, ht, Option.filter_some, splitAtWord_ne_nil, IsBlank, mt hb.mpr ht]

theorem parse_of_not_blank (h : d.Accepted) {text : String} (ht : trim text.toList ≠ []) :
    d.parse (some text) = ⟨(splitAtWord d.conjunction.toList text.toList).map fun part =>
      Clause.ofText d.idField (String.ofList part)⟩ := by
  simp [parse, conjuncts, ht, Option.filter_some, splitAtWord_trim h.isWord, Function.comp_def]

theorem trim_ne_nil_of_spaced (hd : d.Accepted)
    (hs : Spaced IsGap d.conjunction.toList (parts.map String.toList) expression.toList)
    (hp : 2 ≤ parts.length ∨ ∃ p ∈ parts, ¬AllBlank p.toList) : trim expression.toList ≠ [] := by
  intro hb
  obtain ⟨hl, ha⟩ := hs.length_eq_one_of_allBlank hd.isWord (trim_eq_nil_iff.mp hb)
  rw [List.length_map] at hl
  rcases hp with h₂ | ⟨p, hp, hne⟩
  · omega
  · exact hne (ha _ (List.mem_map_of_mem hp))

theorem clauses_parse_of_not_blank (hd : d.Accepted) {text : String} (ht : ¬AllBlank text.toList) :
    (d.parse (some text)).clauses = (splitAtWord d.conjunction.toList text.toList).map fun part =>
      Clause.ofText d.idField (String.ofList part) := by
  rw [parse_of_not_blank hd (mt trim_eq_nil_iff.mp ht)]

theorem parse_spaced_of_not_blank (hd : d.Accepted)
    (hs : Spaced IsGap d.conjunction.toList (parts.map String.toList) expression.toList)
    (hp : ∀ p ∈ parts, ¬AllBlank p.toList) :
    (d.parse (some expression)).clauses = parts.flatMap fun p => (d.parse (some p)).clauses := by
  obtain ⟨p, hm⟩ := List.exists_mem_of_ne_nil _ (mt List.map_eq_nil_iff.mpr hs.ne_nil)
  have hb := trim_ne_nil_of_spaced hd hs (.inr ⟨p, hm, hp p hm⟩)
  rw [parse_of_not_blank hd hb, hs.splitAtWord hd.isWord, List.flatMap_map, List.map_flatMap]
  exact List.flatMap_congr fun p hm => (clauses_parse_of_not_blank hd (hp p hm)).symm

theorem parse_spaced_of_notMem (hd : d.Accepted)
    (hs : Spaced IsGap d.conjunction.toList (parts.map String.toList) expression.toList)
    (hw : ∀ p ∈ parts, d.conjunction.toList ∉ words p.toList) (hb : trim expression.toList ≠ []) :
    d.parse (some expression) = ⟨parts.map (Clause.ofText d.idField)⟩ := by
  have hw' : ∀ t ∈ parts.map String.toList, d.conjunction.toList ∉ words t := by
    simpa using hw
  rw [parse_of_not_blank hd hb, hs.splitAtWord hd.isWord, flatMap_splitAtWord hw']
  simp only [List.map_map, Function.comp_def, Clause.ofText_trim]

/-- Texts that are joined by the conjunction, with any blanks around it, are read as one clause
each, as long as none of them holds the conjunction as a word and they are not one blank text;
and two expressions that are joined are read as the clauses of the first and then those of the
second. -/
theorem parse_conjunction (hd : d.Accepted) :
    (∀ (parts : List String) (expression : String),
      Spaced IsGap d.conjunction.toList (parts.map String.toList) expression.toList →
      (∀ p ∈ parts, d.conjunction.toList ∉ words p.toList) →
      (2 ≤ parts.length ∨ ∃ p ∈ parts, ¬AllBlank p.toList) →
      d.parse (some expression) = ⟨parts.map (Clause.ofText d.idField)⟩) ∧
    ∀ e₁ e₂ u v : String, ¬AllBlank e₁.toList → ¬AllBlank e₂.toList →
      IsGap u.toList → IsGap v.toList →
      d.parse (some (e₁ ++ u ++ d.conjunction ++ v ++ e₂)) =
        ⟨(d.parse (some e₁)).clauses ++ (d.parse (some e₂)).clauses⟩ := by
  refine ⟨fun parts expression hs hw hp => ?_, ?_⟩
  · exact parse_spaced_of_notMem hd hs hw (trim_ne_nil_of_spaced hd hs hp)
  intro e₁ e₂ u v h₁ h₂ hu hv
  have hs : Spaced IsGap d.conjunction.toList ([e₁, e₂].map String.toList)
      (e₁ ++ u ++ d.conjunction ++ v ++ e₂).toList := by
    refine ⟨[], _, [], by simp [AllBlank], by simp [AllBlank], .cons hu hv (.single _), ?_⟩
    simp
  have hp := parse_spaced_of_not_blank hd hs (by simp [h₁, h₂])
  simp only [List.flatMap_cons, List.flatMap_nil, List.append_nil] at hp
  rw [← hp]

theorem parse_conjunction_blank_part :
    standard.Accepted ∧
      standard.parse (some "\ta=1 and\u3000 and\n b~x ") =
        ⟨[.fieldEquals "a" "1", .malformedId "", .fieldStartsWith "b" "x"]⟩ ∧
      standard.parse (some ("a=1 and 07" ++ " " ++ "and" ++ "\n" ++ "and b~x")) =
        ⟨[.fieldEquals "a" "1", .idLookup 7, .malformedId "", .fieldStartsWith "b" "x"]⟩ := by
  have hd := standard_accepted
  obtain ⟨h₁, h₂⟩ := parse_conjunction hd
  have hs : Spaced IsGap "and".toList (["a=1", "", " b~x"].map String.toList)
      "\ta=1 and\u3000 and\n b~x ".toList := by
    have hb : Joined IsGap "and".toList ([" b~x"].map String.toList) " b~x".toList := .single _
    have hab : Joined IsGap "and".toList (["", " b~x"].map String.toList)
        " and\n b~x".toList := .cons (u := [' ']) (v := ['\n']) (by decide) (by decide) hb
    exact ⟨['\t'], _, [' '], by decide, by decide,
      .cons (u := [' ']) (v := ['\u3000']) (by decide) (by decide) hab, by decide⟩
  refine ⟨hd, ?_, ?_⟩
  · rw [h₁ _ _ hs (by decide) (.inl (by decide))]
    decide
  · exact (h₂ _ _ _ _ (by decide) (by decide) (by decide) (by decide)).trans
      (by decide)

end Dialect
end RecordSearch
