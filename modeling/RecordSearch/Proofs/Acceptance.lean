import RecordSearch.Proofs.Rereading

set_option autoImplicit false

namespace RecordSearch
open Text

def IsPlain (word : String) : Prop :=
  word ≠ "" ∧ ∀ c ∈ word.toList, isBlank c = false ∧ c ≠ '=' ∧ c ≠ '~'

/-- The fault is what keeps the word from being plain. A blank counts before an operator. -/
def WordFault.Spoils (word : String) : WordFault → Prop
  | .empty => word = ""
  | .blank => ∃ c ∈ word.toList, isBlank c
  | .operator => (∀ c ∈ word.toList, isBlank c = false) ∧ ∃ c ∈ word.toList, c = '=' ∨ c = '~'

theorem isPlain_iff {word : String} : IsPlain word ↔ wordFault? word = none := by
  rw [wordFault?_eq_none_iff, IsPlain, ne_eq, ne_eq, String.toList_eq_nil_iff]
  simp only [Bool.not_eq_true']

theorem spoils_of_wordFault? {word : String} {fault : WordFault}
    (h : wordFault? word = some fault) : fault.Spoils word := by
  unfold wordFault? at h
  split at h
  · next he =>
    obtain rfl := Option.some.inj h
    simpa [WordFault.Spoils] using he
  · split at h
    · next hb =>
      obtain rfl := Option.some.inj h
      simpa [WordFault.Spoils] using hb
    · next hb =>
      split at h
      · next ho =>
        obtain rfl := Option.some.inj h
        simp only [List.any_eq_true, Operator.isSymbol_iff, not_exists, not_and] at hb ho
        exact ⟨fun c hc => Bool.eq_false_iff.mpr (hb c hc), ho⟩
      · contradiction

theorem exists_spoils {word : String} (h : ¬IsPlain word) :
    ∃ fault, wordFault? word = some fault ∧ fault.Spoils word := by
  rw [isPlain_iff, ← ne_eq, Option.ne_none_iff_exists'] at h
  obtain ⟨fault, hf⟩ := h
  exact ⟨fault, hf, spoils_of_wordFault? hf⟩

namespace Text

theorem isWord_glue {op : Char} (ho : Operator.isSymbol op) {a b : List Char} (ha : IsWord a)
    (hb : ∀ c ∈ b, isBlank c = false) : IsWord (a ++ op :: b) := by
  have ho := Clause.isBlank_of_isSymbol ho
  refine ⟨by simp, fun c hc => ?_⟩
  simp only [List.mem_append, List.mem_cons] at hc
  rcases hc with hc | rfl | hc
  · exact ha.2 c hc
  · exact ho
  · exact hb c hc

theorem exists_cut_iff {word : String} :
    (∃ text : String, 2 ≤ (splitAtWord word.toList text.toList).length) ↔ IsWord word.toList := by
  constructor
  · intro h
    obtain ⟨text, ht⟩ := h
    by_contra hw
    have hm : word.toList ∉ words text.toList := fun hm => hw (mem_words_iff.mp hm).1
    rw [splitAtWord_of_notMem hm, List.length_singleton] at ht
    omega
  · intro hw
    have hc := List.count_pos_iff.mpr ((mem_words_word hw).mpr rfl)
    have hl := length_splitAtWord hw word.toList
    exact ⟨word, by omega⟩

end Text

namespace Dialect
variable {d : Dialect}

theorem Accepted.isWord_idField (hd : d.Accepted) : IsWord d.idField.toList := by
  obtain ⟨hne, hc⟩ := wordFault?_eq_none_iff.mp hd.2
  exact ⟨hne, fun c hm => by simpa using (hc c hm).1⟩

theorem Accepted.isFieldName (hd : d.Accepted) : IsFieldName d.idField.toList := by
  obtain ⟨hne, hc⟩ := wordFault?_eq_none_iff.mp hd.2
  exact ⟨hne, hd.isWord_idField.trimmed, fun hm => (hc _ hm).2.1 rfl⟩

/-- A clause that is displayed as one word with an operator in it is asked for by its display, for
the conjunction holds no operator. -/
theorem parse_display_of_legible (hd : d.Accepted) {c : Clause} (hc : c.Legible d.idField)
    (hw : IsWord c.display.toList) {op : Char} (ho : Operator.isSymbol op)
    (hop : op ∈ c.display.toList) : d.parse (some c.display) = ⟨[c]⟩ := by
  have hb : trim c.display.toList ≠ [] := by
    rw [trim_eq_self_iff.mpr hw.trimmed]
    exact hw.1
  have hk : d.conjunction.toList ∉ words c.display.toList := by
    rw [mem_words_word hw]
    intro heq
    exact hd.notMem_conjunction ho (heq ▸ hop)
  rw [parse_of_not_blank hd hb, splitAtWord_of_notMem hk, List.map_singleton, Clause.ofText_trim,
    Clause.ofText_display_iff.mpr hc]

theorem parse_idEquals (hd : d.Accepted) (n : LocalId) :
    d.parse (some (d.idField ++ "=" ++ n.toNat.repr)) = ⟨[.idEquals d.idField n]⟩ := by
  have hshown := Clause.toList_display_idEquals d.idField n
  have hw : IsWord (Clause.idEquals d.idField n).display.toList := by
    rw [hshown]
    exact isWord_glue rfl hd.isWord_idField (Clause.isWord_of_isDigits (isDigits_toDigits _)).2
  have hc : (Clause.idEquals d.idField n).Legible d.idField := ⟨rfl, hd.isFieldName⟩
  have hop : '=' ∈ (Clause.idEquals d.idField n).display.toList := by simp [hshown]
  have hp := parse_display_of_legible hd hc hw rfl hop
  rwa [Clause.display] at hp

theorem parse_idRange (hd : d.Accepted) {low high : LocalId} (hle : low ≤ high) :
    d.parse (some (d.idField ++ "=[" ++ low.toNat.repr ++ "," ++ high.toNat.repr ++ "]")) =
      ⟨[.idRange d.idField low high]⟩ := by
  have hshown := Clause.toList_display_idRange d.idField low high
  have hw : IsWord (Clause.idRange d.idField low high).display.toList := by
    rw [hshown]
    exact isWord_glue rfl hd.isWord_idField (Clause.isBlank_of_mem_range _ _)
  have hc : (Clause.idRange d.idField low high).Legible d.idField := ⟨rfl, hd.isFieldName, hle⟩
  have hop : '=' ∈ (Clause.idRange d.idField low high).display.toList := by simp [hshown]
  have hp := parse_display_of_legible hd hc hw rfl hop
  rwa [Clause.display] at hp

theorem choose_eq_ok_iff : choose (some d) = .ok d ↔ d.Accepted := by
  rw [← check_eq_ok_iff, choose]
  cases d.check <;> simp [Except.map]

/-- A dialect is accepted if both words are plain; else the error names a word that is not, with its
fault, and the id field only if the conjunction is plain. In an accepted dialect, each id and each
range of ids is read as what it says when it is typed for the id field. And a text can be cut at a
word, whatever the word, exactly if the word is not empty and holds no blank. -/
theorem choose_honours (d : Dialect) :
    ((choose (some d) = .ok d ↔ IsPlain d.conjunction ∧ IsPlain d.idField) ∧
      (¬IsPlain d.conjunction → ∃ fault, fault.Spoils d.conjunction ∧
        choose (some d) = .error (.invalidConjunction d.conjunction fault)) ∧
      (IsPlain d.conjunction → ¬IsPlain d.idField → ∃ fault, fault.Spoils d.idField ∧
        choose (some d) = .error (.invalidIdField d.idField fault))) ∧
    (choose (some d) = .ok d →
      (∀ n : LocalId,
        d.parse (some (d.idField ++ "=" ++ n.toNat.repr)) = ⟨[.idEquals d.idField n]⟩) ∧
      ∀ low high : LocalId, low ≤ high →
        d.parse (some (d.idField ++ "=[" ++ low.toNat.repr ++ "," ++ high.toNat.repr ++ "]")) =
          ⟨[.idRange d.idField low high]⟩) ∧
    ∀ word : String, (∃ text : String, 2 ≤ (splitAtWord word.toList text.toList).length) ↔
      word ≠ "" ∧ ∀ c ∈ word.toList, isBlank c = false := by
  refine ⟨⟨?_, fun hk => ?_, fun hk hi => ?_⟩, fun hd => ?_, fun word => ?_⟩
  · rw [choose_eq_ok_iff, isPlain_iff, isPlain_iff]
    rfl
  · obtain ⟨fault, hf, hs⟩ := exists_spoils hk
    exact ⟨fault, hs, by simp [choose, check, hf, Except.map]⟩
  · obtain ⟨fault, hf, hs⟩ := exists_spoils hi
    exact ⟨fault, hs, by simp [choose, check, isPlain_iff.mp hk, hf, Except.map]⟩
  · have hd := choose_eq_ok_iff.mp hd
    exact ⟨parse_idEquals hd, fun _ _ => parse_idRange hd⟩
  · rw [exists_cut_iff, IsWord, ne_eq, ne_eq, String.toList_eq_nil_iff]

theorem choose_honours_same_word :
    let d : Dialect := ⟨"7", "7"⟩
    choose (some d) = .ok d ∧
      d.parse (some ("7" ++ "=" ++ (7 : LocalId).toNat.repr)) = ⟨[.idEquals "7" 7]⟩ ∧
      d.parse (some ("7" ++ "=[" ++ (0 : LocalId).toNat.repr ++ "," ++
        LocalId.greatest.toNat.repr ++ "]")) = ⟨[.idRange "7" 0 .greatest]⟩ ∧
      (∃ fault, fault.Spoils "a b=" ∧
        choose (some ⟨"a b=", ""⟩) = .error (.invalidConjunction "a b=" fault)) ∧
      ∃ text : String, 2 ≤ (splitAtWord "a=".toList text.toList).length := by
  intro d
  have hd : choose (some d) = .ok d := by decide
  obtain ⟨-, hread, hcut⟩ := choose_honours d
  obtain ⟨hequals, hrange⟩ := hread hd
  obtain ⟨⟨-, hkeyword, -⟩, -⟩ := choose_honours ⟨"a b=", ""⟩
  have hbad : ¬IsPlain "a b=" := fun h => by simpa using (h.2 '=' (by decide)).2.1
  have hplain : ∀ c ∈ "a=".toList, isBlank c = false := by simp [isBlank, blankRanges]
  exact ⟨hd, hequals 7, hrange 0 .greatest (by decide), hkeyword hbad,
    (hcut "a=").mpr ⟨by decide, hplain⟩⟩

end Dialect
end RecordSearch
