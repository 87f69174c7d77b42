import Mathlib.Tactic.TFAE
import RecordSearch.Proofs.Classification
import RecordSearch.Proofs.Display

set_option autoImplicit false

namespace RecordSearch.Clause
open Text

/-- What a clause holds if it can be typed. A malformed one holds a text that is nothing else. -/
def Legible (idField : String) : Clause → Prop
  | .malformedId s => Trimmed s.toList ∧ (IsNoId s.toList ∨
      ∃ value, (idField ≠ "" ∧ Sides '=' s.toList idField value) ∧ IsNoIdValue value.toList)
  | .malformedClause s => Trimmed s.toList ∧ LacksField s.toList
  | c => c.Shaped idField

theorem Spells.legible {idField : String} {t : List Char} {c : Clause} (h : Spells idField t c)
    (ht : Trimmed t) : c.Legible idField := by
  cases c with
  | malformedId s =>
    obtain ⟨rfl, hs⟩ := spells_malformedId_iff.mp h
    exact ⟨ht, hs⟩
  | malformedClause s =>
    obtain ⟨rfl, hs⟩ := spells_malformedClause_iff.mp h
    exact ⟨ht, hs⟩
  | _ => exact h.shaped

theorem trimmed_glue {op : Char} (ho : Operator.isSymbol op) {a b : List Char} (ha : Trimmed a)
    (hne : a ≠ []) (hb : Trimmed b) : Trimmed (a ++ op :: b) := by
  constructor
  · intro c hc
    rw [List.head?_append_of_ne_nil _ hne] at hc
    exact ha.1 c hc
  · intro c hc
    rw [List.getLast?_append_of_ne_nil _ (List.cons_ne_nil _ _), List.getLast?_cons] at hc
    cases hl : b.getLast? with
    | none =>
      simp [hl] at hc
      simp [← hc, isBlank_of_isSymbol ho]
    | some d =>
      simp [hl] at hc
      subst hc
      exact hb.2 d hl

theorem sides_glue {op : Char} {field : String} {value : List Char} (hf : IsFieldName field.toList)
    (hop : op ∉ field.toList) (hv : Trimmed value) :
    field ≠ "" ∧ Sides op (field.toList ++ op :: value) field (String.ofList value) := by
  refine ⟨fun h => hf.ne_nil (String.toList_eq_nil_iff.mpr h), _, _, rfl, hop, ?_, ?_⟩
  · exact trim_eq_self_iff.mpr hf.trimmed
  · rw [trim_eq_self_iff.mpr hv, String.toList_ofList]

theorem isRange_toDigits {low high : LocalId} (hle : low ≤ high) :
    IsRange ('[' :: Nat.toDigits 10 low.toNat ++ ',' :: Nat.toDigits 10 high.toNat ++ [']'])
      low.toNat high.toNat :=
  ⟨_, _, rfl, isNumeral_toDigits _, isNumeral_toDigits _, UInt64.le_iff_toNat_le.mp hle⟩

theorem trimmed_of_isBracketed {t : List Char} (h : IsBracketed t) : Trimmed t := by
  simp [Trimmed, h.1, h.2, isBlank, blankRanges]

theorem Legible.spells_display {idField : String} {c : Clause} (h : c.Legible idField) :
    Trimmed c.display.toList ∧ Spells idField c.display.toList c := by
  cases c with
  | malformedId s => exact ⟨h.1, spells_malformedId_iff.mpr ⟨rfl, h.2⟩⟩
  | malformedClause s => exact ⟨h.1, spells_malformedClause_iff.mpr ⟨rfl, h.2⟩⟩
  | idLookup n =>
    rw [toList_display_idLookup]
    exact ⟨trimmed_of_isDigits (isDigits_toDigits _),
      spells_idLookup_iff.mpr (isNumeral_toDigits _)⟩
  | idEquals field n =>
    obtain ⟨rfl, hf⟩ := h
    have hv := trimmed_of_isDigits (isDigits_toDigits n.toNat)
    rw [toList_display_idEquals]
    refine ⟨trimmed_glue rfl hf.trimmed hf.ne_nil hv, ?_⟩
    refine spells_idEquals_iff.mpr ⟨rfl, _, sides_glue hf hf.notMem hv, ?_⟩
    rw [String.toList_ofList]
    exact isNumeral_toDigits _
  | idRange field low high =>
    obtain ⟨rfl, hf, hle⟩ := h
    have hv := trimmed_of_isBracketed (t := '[' :: Nat.toDigits 10 low.toNat ++
      ',' :: Nat.toDigits 10 high.toNat ++ [']']) ⟨by simp, List.getLast?_concat⟩
    rw [toList_display_idRange]
    refine ⟨trimmed_glue rfl hf.trimmed hf.ne_nil hv, ?_⟩
    refine spells_idRange_iff.mpr ⟨rfl, _, sides_glue hf hf.notMem hv, ?_⟩
    rw [String.toList_ofList]
    exact isRange_toDigits hle
  | fieldEquals field value =>
    obtain ⟨hf, hv, hid⟩ := h
    rw [toList_display_fieldEquals]
    have hs := sides_glue hf hf.notMem hv
    rw [String.ofList_toList] at hs
    exact ⟨trimmed_glue rfl hf.trimmed hf.ne_nil hv, spells_fieldEquals_iff.mpr ⟨hs, hid⟩⟩
  | fieldStartsWith field start =>
    obtain ⟨hf, hop, hv, he⟩ := h
    rw [toList_display_fieldStartsWith]
    have hs := sides_glue hf hop hv
    rw [String.ofList_toList] at hs
    refine ⟨trimmed_glue rfl hf.trimmed hf.ne_nil hv, spells_fieldStartsWith_iff.mpr ⟨hs, ?_⟩⟩
    simp [hf.notMem, he]

theorem ofText_display_iff {idField : String} {c : Clause} :
    ofText idField c.display = c ↔ c.Legible idField := by
  constructor
  · intro h
    exact (ofText_eq_iff_spells.mp h).legible (trimmed_trim _)
  · intro h
    obtain ⟨ht, hs⟩ := h.spells_display
    rw [ofText_eq_iff_spells, trim_eq_self_iff.mpr ht]
    exact hs

theorem ofText_display_ofText (idField text : String) :
    ofText idField (ofText idField text).display = ofText idField text :=
  ofText_display_iff.mpr ((ofText_eq_iff_spells.mp rfl).legible (trimmed_trim _))

/-- Some text is read as a clause just if its display is, and just if the clause holds what its
kind allows, whatever the id field. -/
theorem legible_tfae (idField : String) (c : Clause) :
    [∃ text, c = ofText idField text, ofText idField c.display = c, c.Legible idField].TFAE := by
  tfae_have 1 → 2 := by
    intro h
    obtain ⟨text, rfl⟩ := h
    exact ofText_display_ofText idField text
  tfae_have 2 → 1 := fun h => ⟨_, h.symm⟩
  tfae_have 2 ↔ 3 := ofText_display_iff
  tfae_finish

end RecordSearch.Clause
