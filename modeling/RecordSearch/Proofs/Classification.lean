import RecordSearch.Proofs.Shape

set_option autoImplicit false

namespace RecordSearch
open Text

def Text.IsRange (t : List Char) (low high : Nat) : Prop :=
  ∃ a b, t = '[' :: a ++ ',' :: b ++ [']'] ∧ IsNumeral a low ∧ IsNumeral b high ∧ low ≤ high

namespace Clause

/-- The trimmed texts before and after the first `op`. -/
def Sides (op : Char) (t : List Char) (field value : String) : Prop :=
  ∃ a b, t = a ++ op :: b ∧ op ∉ a ∧ trim a = field.toList ∧ trim b = value.toList

def IsNoId (t : List Char) : Prop := '=' ∉ t ∧ '~' ∉ t ∧ ∀ n : LocalId, ¬IsNumeral t n.toNat

def LacksField (t : List Char) : Prop := t.head? = some '=' ∨ t.head? = some '~' ∧ '=' ∉ t

/-- A value that looks like an id or like a range of ids, and is neither. -/
structure IsNoIdValue (value : List Char) : Prop where
  resembles : IsBracketed value ∨ IsNumeric value
  noId : ∀ n : LocalId, ¬IsNumeral value n.toNat
  noRange : ∀ low high : LocalId, ¬IsRange value low.toNat high.toNat

theorem ofText?_eq_none_iff {t : List Char} :
    LocalId.ofText? t = none ↔ ∀ n : LocalId, ¬IsNumeral t n.toNat := by
  simp only [Option.eq_none_iff_forall_ne_some, ne_eq, LocalId.ofText?_eq_some_iff]

theorem isIdRange_iff {value : List Char} {low high : LocalId} :
    IsIdRange value low high ↔ IsRange value low.toNat high.toNat := by
  simp only [IsIdRange, IsRange, LocalId.ofText?_eq_some_iff, UInt64.le_iff_toNat_le]

theorem isNoIdValue_iff {value : List Char} :
    IsNoIdValue value ↔ LocalId.ofText? value = none ∧
      (¬∃ low high, IsIdRange value low high) ∧ resemblesId value := by
  simp only [ofText?_eq_none_iff, isIdRange_iff, resemblesId_iff, not_exists]
  exact ⟨fun h => ⟨h.noId, h.noRange, h.resembles⟩, fun h => ⟨h.2.2, h.1, h.2.1⟩⟩

theorem not_resemblesId_iff {value : List Char} :
    LocalId.ofText? value = none ∧ ¬resemblesId value ↔ ¬IsBracketed value ∧ ¬IsNumeric value := by
  rw [resemblesId_iff, not_or, and_iff_right_iff_imp, ofText?_eq_none_iff]
  intro h n hn
  exact h.2 ⟨[], value, by simp, hn.ne_nil, hn.digits, rfl⟩

section Sides
variable {op : Char} {t : List Char} {field value : String}

theorem exists_falls_iff :
    (∃ a b, Falls op t a b ∧ trim a = field.toList ∧ trim b = value.toList) ↔
      field ≠ "" ∧ Sides op t field value := by
  constructor
  · intro h
    obtain ⟨a, b, hf, ha, hb⟩ := h
    refine ⟨fun hne => hf.named ?_, a, b, hf.eq, hf.first, ha, hb⟩
    rw [ha, hne, String.toList_empty]
  · intro h
    obtain ⟨hne, a, b, ht, hop, ha, hb⟩ := h
    have hn : trim a ≠ [] := by rwa [ha, ne_eq, String.toList_eq_nil_iff]
    exact ⟨a, b, ⟨ht, hop, hn⟩, ha, hb⟩

theorem exists_falls_and_iff (p : List Char → Prop) :
    (∃ a b, Falls op t a b ∧ trim a = field.toList ∧ p (trim b)) ↔
      ∃ value, (field ≠ "" ∧ Sides op t field value) ∧ p value.toList := by
  simp only [← exists_falls_iff]
  constructor
  · intro h
    obtain ⟨a, b, hf, ha, hb⟩ := h
    refine ⟨String.ofList (trim b), ⟨a, b, hf, ha, String.toList_ofList.symm⟩, ?_⟩
    rwa [String.toList_ofList]
  · intro h
    obtain ⟨value, ⟨a, b, hf, ha, hb⟩, hv⟩ := h
    exact ⟨a, b, hf, ha, hb ▸ hv⟩

end Sides

section Spelling
variable {idField : String} {t : List Char}

theorem spells_idLookup_iff {n : LocalId} :
    Spells idField t (.idLookup n) ↔ IsNumeral t n.toNat := by
  rw [← LocalId.ofText?_eq_some_iff]
  constructor
  · intro h
    cases h with
    | lookup hid => exact hid
  · exact .lookup

theorem spells_malformedClause_iff {s : String} :
    Spells idField t (.malformedClause s) ↔ s.toList = t ∧ LacksField t := by
  constructor
  · intro h
    cases h with
    | noField hh => exact ⟨String.toList_ofList, hh⟩
  · intro h
    obtain ⟨rfl, hh⟩ := h
    have hsp : Spells idField s.toList _ := .noField hh
    rwa [String.ofList_toList] at hsp

theorem spells_fieldStartsWith_iff {field start : String} :
    Spells idField t (.fieldStartsWith field start) ↔
      (field ≠ "" ∧ Sides '~' t field start) ∧ '=' ∉ t := by
  rw [← exists_falls_iff]
  constructor
  · intro h
    cases h with
    | start hf he =>
      exact ⟨⟨_, _, hf, String.toList_ofList.symm, String.toList_ofList.symm⟩, he⟩
  · intro h
    obtain ⟨⟨a, b, hf, ha, hb⟩, he⟩ := h
    have hsp : Spells idField t _ := .start hf he
    rwa [ha, hb, String.ofList_toList, String.ofList_toList] at hsp

theorem spells_fieldEquals_iff {field value : String} :
    Spells idField t (.fieldEquals field value) ↔ (field ≠ "" ∧ Sides '=' t field value) ∧
      (field = idField → ¬IsBracketed value.toList ∧ ¬IsNumeric value.toList) := by
  simp only [← exists_falls_iff, ← not_resemblesId_iff]
  constructor
  · intro h
    cases h with
    | equals hf hid =>
      refine ⟨⟨_, _, hf, String.toList_ofList.symm, String.toList_ofList.symm⟩, fun hi => ?_⟩
      rw [String.toList_ofList]
      exact hid (by rw [← hi, String.toList_ofList])
  · intro h
    obtain ⟨⟨a, b, hf, ha, hb⟩, hid⟩ := h
    have hsp : Spells idField t _ := .equals hf fun hi => by
      rw [hb]
      exact hid (String.toList_inj.mp (ha.symm.trans hi))
    rwa [ha, hb, String.ofList_toList, String.ofList_toList] at hsp

theorem spells_idEquals_iff {field : String} {n : LocalId} :
    Spells idField t (.idEquals field n) ↔ field = idField ∧
      ∃ value, (idField ≠ "" ∧ Sides '=' t idField value) ∧ IsNumeral value.toList n.toNat := by
  simp only [← LocalId.ofText?_eq_some_iff]
  rw [← exists_falls_and_iff fun v => LocalId.ofText? v = some n]
  constructor
  · intro h
    cases h with
    | idEquals hf hi hid => exact ⟨rfl, _, _, hf, hi, hid⟩
  · intro h
    obtain ⟨rfl, a, b, hf, hi, hid⟩ := h
    exact .idEquals hf hi hid

theorem spells_idRange_iff {field : String} {low high : LocalId} :
    Spells idField t (.idRange field low high) ↔ field = idField ∧
      ∃ value, (idField ≠ "" ∧ Sides '=' t idField value) ∧
        IsRange value.toList low.toNat high.toNat := by
  simp only [← isIdRange_iff]
  rw [← exists_falls_and_iff fun v => IsIdRange v low high]
  constructor
  · intro h
    cases h with
    | idRange hf hi hr => exact ⟨rfl, _, _, hf, hi, hr⟩
  · intro h
    obtain ⟨rfl, a, b, hf, hi, hr⟩ := h
    exact .idRange hf hi hr

theorem spells_malformedId_iff {s : String} :
    Spells idField t (.malformedId s) ↔ s.toList = t ∧
      (IsNoId t ∨
        ∃ value, (idField ≠ "" ∧ Sides '=' t idField value) ∧ IsNoIdValue value.toList) := by
  rw [← exists_falls_and_iff IsNoIdValue]
  simp only [isNoIdValue_iff, IsNoId, ← ofText?_eq_none_iff]
  constructor
  · intro h
    cases h with
    | noId he hp hid => exact ⟨String.toList_ofList, .inl ⟨he, hp, hid⟩⟩
    | noIdValue hf hi hid hr hs =>
      exact ⟨String.toList_ofList, .inr ⟨_, _, hf, hi, hid, hr, hs⟩⟩
  · intro h
    obtain ⟨rfl, ⟨he, hp, hid⟩ | ⟨a, b, hf, hi, hid, hr, hs⟩⟩ := h
    · have hsp : Spells idField s.toList _ := .noId he hp hid
      rwa [String.ofList_toList] at hsp
    · have hsp : Spells idField s.toList _ := .noIdValue hf hi hid hr hs
      rwa [String.ofList_toList] at hsp

end Spelling

theorem ofText_eq_iff_spells {idField text : String} {c : Clause} :
    ofText idField text = c ↔ Spells idField (trim text.toList) c :=
  (spells_iff (trimmed_trim _)).symm

example : ofText "id" "~x=y" = .fieldEquals "~x" "y" ∧
    ofText "id" "=a~b" = .malformedClause "=a~b" ∧
    ofText "id" "id=[" = .fieldEquals "id" "[" ∧ ofText "id" "id=[]" = .malformedId "id=[]" := by
  decide

end Clause
end RecordSearch
