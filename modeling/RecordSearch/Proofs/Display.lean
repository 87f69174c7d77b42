import RecordSearch.Proofs.Grammar
import RecordSearch.Proofs.Words
import RecordSearch.Query

set_option autoImplicit false

namespace RecordSearch
open Text

namespace Clause

theorem isBlank_of_isDigit {c : Char} (h : c.isDigit) : isBlank c = false := by
  have hc : 48 ≤ c.toNat ∧ c.toNat ≤ 57 := by
    simpa [Char.isDigit, UInt32.le_iff_toNat_le] using h
  simp [isBlank, blankRanges]
  omega

theorem isBlank_of_isSymbol {c : Char} (h : Operator.isSymbol c) : isBlank c = false := by
  cases Operator.isSymbol_iff.mp h with
  | inl h =>
    subst h
    decide
  | inr h =>
    subst h
    decide

theorem isWord_of_isDigits {t : List Char} (h : isDigits t) : IsWord t := by
  simp only [isDigits, Bool.and_eq_true, List.all_eq_true] at h
  exact ⟨by simpa using h.1, fun c hc => isBlank_of_isDigit (h.2 c hc)⟩

theorem trimmed_of_isDigits {t : List Char} (h : isDigits t) : Trimmed t :=
  (isWord_of_isDigits h).trimmed

theorem isBlank_of_mem_range (low high : Nat) :
    ∀ c ∈ '[' :: Nat.toDigits 10 low ++ ',' :: Nat.toDigits 10 high ++ [']'],
      isBlank c = false := by
  have hlow := (isWord_of_isDigits (isDigits_toDigits low)).2
  have hhigh := (isWord_of_isDigits (isDigits_toDigits high)).2
  have hopen : isBlank '[' = false := by decide
  have hcomma : isBlank ',' = false := by decide
  have hclose : isBlank ']' = false := by decide
  grind

theorem Falls.notMem_words_glue {op : Char} {t field value : List Char}
    (h : Falls op t field value) (ho : Operator.isSymbol op) {w : List Char} (hop : op ∉ w)
    (hw : w ∉ words t) (shown : List Char) (hs : StandsAfter w shown → StandsAfter w value) :
    w ∉ words (trim field ++ op :: shown) := by
  have ho := isBlank_of_isSymbol ho
  intro hm
  obtain ⟨hword, hm⟩ := (mem_words_glue ho hop).mp hm
  apply hw
  rw [h.eq]
  exact (mem_words_glue ho hop).mpr ⟨hword, hm.imp StandsBefore.of_trim hs⟩

section Shown
variable (field : String)

theorem toList_display_idLookup (id : LocalId) :
    (idLookup id).display.toList = Nat.toDigits 10 id.toNat := by
  simp [Clause.display]

theorem toList_display_idEquals (id : LocalId) :
    (idEquals field id).display.toList = field.toList ++ '=' :: Nat.toDigits 10 id.toNat := by
  simp [Clause.display]

theorem toList_display_idRange (low high : LocalId) :
    (idRange field low high).display.toList = field.toList ++ '=' ::
      ('[' :: Nat.toDigits 10 low.toNat ++ ',' :: Nat.toDigits 10 high.toNat ++ [']']) := by
  simp [Clause.display]

theorem toList_display_fieldEquals (value : String) :
    (fieldEquals field value).display.toList = field.toList ++ '=' :: value.toList := by
  simp [Clause.display]

theorem toList_display_fieldStartsWith (start : String) :
    (fieldStartsWith field start).display.toList = field.toList ++ '~' :: start.toList := by
  simp [Clause.display]

end Shown

theorem Spells.eq_nil_of_display {idField : String} {t : List Char} {c : Clause}
    (h : Spells idField t c) (hc : c.display.toList = []) : t = [] := by
  cases h with
  | lookup hid => simp [Clause.display, Nat.toDigits_ne_nil] at hc
  | noId | noField | noIdValue => simpa [Clause.display] using hc
  | start | equals | idEquals | idRange => simp [Clause.display] at hc

theorem not_standsAfter {w t : List Char} (h : ∀ c ∈ t, isBlank c = false) :
    ¬StandsAfter w t := by
  intro hs
  obtain ⟨c, hc, hb⟩ := hs.exists_blank
  rw [h c hc] at hb
  contradiction

/-- No word of a display is new, if it holds no operator and no id is looked up. -/
theorem Spells.notMem_words_display {idField : String} {w t : List Char} {c : Clause}
    (h : Spells idField t c) (hw : w ∉ words t) (hop : ∀ op, Operator.isSymbol op → op ∉ w)
    (hc : ∀ id, c = .idLookup id → Nat.toDigits 10 id.toNat ≠ w) :
    w ∉ words c.display.toList := by
  have hdigit : ∀ n : Nat, ∀ c ∈ Nat.toDigits 10 n, isBlank c = false := fun n =>
    (isWord_of_isDigits (isDigits_toDigits n)).2
  cases h with
  | @lookup id hid =>
    rw [toList_display_idLookup, mem_words_word (isWord_of_isDigits (isDigits_toDigits _))]
    exact Ne.symm (hc id rfl)
  | noId | noField | noIdValue => simpa [Clause.display] using hw
  | start hf =>
    rw [toList_display_fieldStartsWith, String.toList_ofList, String.toList_ofList]
    exact hf.notMem_words_glue rfl (hop _ rfl) hw _ StandsAfter.of_trim
  | equals hf =>
    rw [toList_display_fieldEquals, String.toList_ofList, String.toList_ofList]
    exact hf.notMem_words_glue rfl (hop _ rfl) hw _ StandsAfter.of_trim
  | idEquals hf hi =>
    rw [toList_display_idEquals, ← hi]
    exact hf.notMem_words_glue rfl (hop _ rfl) hw _ fun hs => absurd hs (not_standsAfter (hdigit _))
  | @idRange field value low high hf hi =>
    rw [toList_display_idRange, ← hi]
    exact hf.notMem_words_glue rfl (hop _ rfl) hw _ fun hs =>
      absurd hs (not_standsAfter (isBlank_of_mem_range _ _))

end Clause
end RecordSearch
