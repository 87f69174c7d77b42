import RecordSearch.Proofs.Grammar
import RecordSearch.Query

set_option autoImplicit false

namespace RecordSearch
open Text

namespace Text

def IsNumeric (t : List Char) : Prop :=
  ∃ sign digits, sign ∈ [[], ['+'], ['-']] ∧ digits ≠ [] ∧ (∀ c ∈ digits, c.isDigit) ∧
    t = sign ++ digits

def IsBracketed (t : List Char) : Prop := t.head? = some '[' ∧ t.getLast? = some ']'

structure IsFieldName (t : List Char) : Prop where
  ne_nil : t ≠ []
  trimmed : Trimmed t
  notMem : '=' ∉ t

theorem isSignedDigits_iff {t : List Char} : isSignedDigits t ↔ IsNumeric t := by
  constructor
  · intro h
    unfold isSignedDigits at h
    split at h
    · exact ⟨['+'], _, by simp, (isDigits_iff.mp h).1, (isDigits_iff.mp h).2, rfl⟩
    · exact ⟨['-'], _, by simp, (isDigits_iff.mp h).1, (isDigits_iff.mp h).2, rfl⟩
    · exact ⟨[], _, by simp, (isDigits_iff.mp h).1, (isDigits_iff.mp h).2, rfl⟩
  · intro h
    obtain ⟨sign, digits, hs, hne, hd, rfl⟩ := h
    have h := isDigits_iff.mpr ⟨hne, hd⟩
    simp only [List.mem_cons, List.not_mem_nil, or_false] at hs
    rcases hs with rfl | rfl | rfl
    · -- The first digit is no sign.
      unfold isSignedDigits
      split
      · exact absurd (hd '+' (by simp_all)) (by decide)
      · exact absurd (hd '-' (by simp_all)) (by decide)
      · exact h
    · exact h
    · exact h

end Text

namespace Clause

theorem resemblesId_iff {t : List Char} : resemblesId t ↔ IsBracketed t ∨ IsNumeric t := by
  simp [resemblesId, isSignedDigits_iff, IsBracketed]

/-- What the text of a clause can put into it. -/
def Shaped (idField : String) : Clause → Prop
  | .malformedId _ | .malformedClause _ | .idLookup _ => True
  | .idEquals field _ => field = idField ∧ IsFieldName field.toList
  | .idRange field low high => field = idField ∧ IsFieldName field.toList ∧ low ≤ high
  | .fieldEquals field value =>
      IsFieldName field.toList ∧ Trimmed value.toList ∧
        (field = idField → ¬IsBracketed value.toList ∧ ¬IsNumeric value.toList)
  | .fieldStartsWith field start =>
      IsFieldName field.toList ∧ '~' ∉ field.toList ∧ Trimmed start.toList ∧
        '=' ∉ start.toList

theorem Falls.isFieldName {t field value : List Char} (h : Falls '=' t field value) :
    IsFieldName (trim field) where
  ne_nil := h.named
  trimmed := trimmed_trim field
  notMem hm := h.first (mem_of_mem_trim hm)

theorem Spells.shaped {idField : String} {t : List Char} {c : Clause} (h : Spells idField t c) :
    c.Shaped idField := by
  cases h with
  | lookup | noId | noField | noIdValue => trivial
  | @start field value hf he =>
    simp only [hf.eq, List.mem_append, List.mem_cons, not_or] at he
    simp only [Shaped, String.toList_ofList]
    exact ⟨⟨hf.named, trimmed_trim field, mt mem_of_mem_trim he.1⟩,
      mt mem_of_mem_trim hf.first, trimmed_trim value, mt mem_of_mem_trim he.2.2⟩
  | @equals field value hf hid =>
    simp only [Shaped, String.toList_ofList]
    refine ⟨hf.isFieldName, trimmed_trim value, fun hi => ?_⟩
    obtain ⟨-, hr⟩ := hid (by rw [← hi, String.toList_ofList])
    rw [resemblesId_iff, not_or] at hr
    exact hr
  | idEquals hf hi => exact ⟨rfl, hi ▸ hf.isFieldName⟩
  | idRange hf hi hr =>
    obtain ⟨-, -, -, -, -, hle⟩ := hr
    exact ⟨rfl, hi ▸ hf.isFieldName, hle⟩

theorem shaped_ofText (idField text : String) : (ofText idField text).Shaped idField := by
  have hs : Spells idField (trim text.toList) (ofText idField text) :=
    (spells_iff (trimmed_trim _)).mpr rfl
  exact hs.shaped

end Clause

theorem Dialect.shaped_of_mem_parse {d : Dialect} {expression : Option String} {c : Clause}
    (hc : c ∈ (d.parse expression).clauses) : c.Shaped d.idField := by
  obtain ⟨part, -, rfl⟩ := List.mem_map.mp hc
  exact Clause.shaped_ofText d.idField part

end RecordSearch
