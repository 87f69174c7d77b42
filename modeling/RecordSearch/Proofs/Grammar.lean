import RecordSearch.Clause.Reading

/-!
The grammar of clauses: which texts spell which clause, by shape and without an order in which
the shapes are tried. Every trimmed text spells exactly one clause, the one that is read.
-/

set_option autoImplicit false

namespace RecordSearch.Clause
open Text

def IsIdRange (value : List Char) (low high : LocalId) : Prop :=
  ∃ lowText highText, value = '[' :: lowText ++ ',' :: highText ++ [']'] ∧
    LocalId.ofText? lowText = some low ∧ LocalId.ofText? highText = some high ∧ low ≤ high

structure Falls (op : Char) (t field value : List Char) : Prop where
  eq : t = field ++ op :: value
  first : op ∉ field
  named : trim field ≠ []

inductive Spells (idField : String) (t : List Char) : Clause → Prop where
  | lookup {id : LocalId} : LocalId.ofText? t = some id → Spells idField t (.idLookup id)
  | noId : '=' ∉ t → '~' ∉ t → LocalId.ofText? t = none →
      Spells idField t (.malformedId (String.ofList t))
  | noField : t.head? = some '=' ∨ t.head? = some '~' ∧ '=' ∉ t →
      Spells idField t (.malformedClause (String.ofList t))
  | start {field value : List Char} : Falls '~' t field value → '=' ∉ t →
      Spells idField t (.fieldStartsWith (String.ofList (trim field)) (String.ofList (trim value)))
  | equals {field value : List Char} : Falls '=' t field value →
      (trim field = idField.toList → LocalId.ofText? (trim value) = none ∧
        ¬resemblesId (trim value)) →
      Spells idField t (.fieldEquals (String.ofList (trim field)) (String.ofList (trim value)))
  | idEquals {field value : List Char} {id : LocalId} : Falls '=' t field value →
      trim field = idField.toList → LocalId.ofText? (trim value) = some id →
      Spells idField t (.idEquals idField id)
  | idRange {field value : List Char} {low high : LocalId} : Falls '=' t field value →
      trim field = idField.toList → IsIdRange (trim value) low high →
      Spells idField t (.idRange idField low high)
  | noIdValue {field value : List Char} : Falls '=' t field value →
      trim field = idField.toList → LocalId.ofText? (trim value) = none →
      (¬∃ low high, IsIdRange (trim value) low high) → resemblesId (trim value) →
      Spells idField t (.malformedId (String.ofList t))

theorem isDigits_of_ofText? {t : List Char} {id : LocalId} (h : LocalId.ofText? t = some id) :
    isDigits t := by
  obtain ⟨n, hn, -⟩ := Option.map_eq_some_iff.mp h
  exact (readBelow?_eq_some_iff.mp hn).1

theorem notMem_of_isDigits {t : List Char} (h : isDigits t) {c : Char} (hc : c.isDigit = false) :
    c ∉ t := by
  intro hm
  simp only [isDigits, Bool.and_eq_true, List.all_eq_true] at h
  rw [h.2 c hm] at hc
  contradiction

theorem any_isSymbol_eq_false {t : List Char} :
    t.any Operator.isSymbol = false ↔ '=' ∉ t ∧ '~' ∉ t := by
  simp only [List.any_eq_false, Operator.isSymbol_iff]
  constructor
  · intro h
    exact ⟨fun hm => h _ hm (.inl rfl), fun hm => h _ hm (.inr rfl)⟩
  · intro h c hm hc
    cases hc with
    | inl hc => exact h.1 (hc ▸ hm)
    | inr hc => exact h.2 (hc ▸ hm)

theorem Falls.sides? {op : Char} {t field value : List Char} (h : Falls op t field value) :
    sides? op t = some (trim field, trim value) := by
  have hn : (trim field).isEmpty = false := by simp [h.named]
  simp [Clause.sides?, h.eq, cut?_append h.first, hn]

theorem sides?_of_notMem {op : Char} {t : List Char} (h : op ∉ t) : sides? op t = none := by
  simp [Clause.sides?, cut?_eq_none_iff.mpr h]

theorem sides?_of_head (op : Char) (t : List Char) : sides? op (op :: t) = none := by
  simp [Clause.sides?, cut?, trim, trimStart, trimEnd]

theorem mem_field_of_sides? {op c : Char} {t : List Char} {sides : List Char × List Char}
    (h : sides? op (c :: t) = some sides) (hc : isBlank c = false) (hne : c ≠ op) :
    c ∈ sides.1 := by
  unfold Clause.sides? at h
  split at h
  · contradiction
  · next field value hcut =>
    obtain ⟨heq, -⟩ := cut?_eq_some_iff.mp hcut
    cases field with
    | nil => simp [hne] at heq
    | cons d field =>
      have hd : c = d := by simpa using congrArg List.head? heq
      subst hd
      split at h
      · contradiction
      · obtain rfl := Option.some.inj h
        exact mem_trim List.mem_cons_self hc

theorem bounds?_eq_some_iff {t low high : List Char} :
    bounds? t = some (low, high) ↔
      t = '[' :: low ++ ',' :: high ++ [']'] ∧ isDigits low ∧ isDigits high := by
  constructor
  · intro h
    unfold bounds? at h
    split at h
    · split at h
      · contradiction
      · next lowText rest hlow =>
        split at h
        · next highText hhigh =>
          obtain ⟨rfl, -⟩ := cut?_eq_some_iff.mp hlow
          obtain ⟨rfl, -⟩ := cut?_eq_some_iff.mp hhigh
          by_cases hd : isDigits lowText && isDigits highText
          · simp [hd] at h
            obtain ⟨rfl, rfl⟩ := h
            simpa using hd
          · simp [hd] at h
        · contradiction
    · contradiction
  · intro h
    obtain ⟨rfl, hl, hh⟩ := h
    have hc : ',' ∉ low := notMem_of_isDigits hl (by decide)
    have hb : ']' ∉ high := notMem_of_isDigits hh (by decide)
    simp [bounds?, cut?_append hc, cut?_append hb, hl, hh]

theorem IsIdRange.bounds? {value : List Char} {low high : LocalId}
    (h : IsIdRange value low high) :
    ∃ lowText highText, bounds? value = some (lowText, highText) ∧
      LocalId.ofText? lowText = some low ∧ LocalId.ofText? highText = some high ∧ low ≤ high := by
  obtain ⟨lowText, highText, rfl, hl, hh, hle⟩ := h
  have hb := bounds?_eq_some_iff.mpr ⟨rfl, isDigits_of_ofText? hl, isDigits_of_ofText? hh⟩
  exact ⟨lowText, highText, hb, hl, hh, hle⟩

theorem bounds?_of_isDigits {value : List Char} (h : isDigits value) : bounds? value = none := by
  cases hb : bounds? value with
  | none => rfl
  | some bounds =>
    obtain ⟨rfl, -⟩ := bounds?_eq_some_iff.mp hb
    exact absurd (by simp) (notMem_of_isDigits h (by decide : '['.isDigit = false))

theorem bounds?_of_not_resemblesId {value : List Char} (h : ¬resemblesId value) :
    bounds? value = none := by
  cases hb : bounds? value with
  | none => rfl
  | some bounds =>
    obtain ⟨rfl, -⟩ := bounds?_eq_some_iff.mp hb
    exact absurd (by simp only [resemblesId, List.getLast?_concat]; rfl) h

section IdValue
variable {t field value : List Char}

theorem ofIdValue_idRange {low high : LocalId} (h : IsIdRange value low high) :
    ofIdValue t field value = .idRange (String.ofList field) low high := by
  obtain ⟨lowText, highText, hb, hl, hh, hle⟩ := h.bounds?
  simp [ofIdValue, hb, hl, hh, hle]

theorem ofIdValue_idEquals {id : LocalId} (h : LocalId.ofText? value = some id) :
    ofIdValue t field value = .idEquals (String.ofList field) id := by
  simp [ofIdValue, bounds?_of_isDigits (isDigits_of_ofText? h), h]

theorem ofIdValue_malformedId (h : LocalId.ofText? value = none)
    (hr : ¬∃ low high, IsIdRange value low high) (hs : resemblesId value) :
    ofIdValue t field value = .malformedId (String.ofList t) := by
  unfold ofIdValue
  split
  · next lowText highText hb =>
    obtain ⟨hv, -⟩ := bounds?_eq_some_iff.mp hb
    split
    · next low high hl hh =>
      have hle : ¬low ≤ high := fun hle => hr ⟨low, high, lowText, highText, hv, hl, hh, hle⟩
      simp [hle]
    · rfl
  · simp [h, hs]

theorem ofIdValue_fieldEquals (h : LocalId.ofText? value = none) (hs : ¬resemblesId value) :
    ofIdValue t field value = .fieldEquals (String.ofList field) (String.ofList value) := by
  simp [ofIdValue, bounds?_of_not_resemblesId hs, h, hs]

end IdValue

theorem ofTrimmed_of_falls_equals {idField : String} {t field value : List Char}
    (h : Falls '=' t field value) :
    ofTrimmed idField t =
      if trim field = idField.toList then ofIdValue t (trim field) (trim value)
      else .fieldEquals (String.ofList (trim field)) (String.ofList (trim value)) := by
  have hs : t.any Operator.isSymbol = true := by
    rw [← Bool.not_eq_false, any_isSymbol_eq_false]
    simp [h.eq]
  simp [ofTrimmed, hs, h.sides?]

theorem Spells.ofTrimmed {idField : String} {t : List Char} {c : Clause}
    (h : Spells idField t c) : ofTrimmed idField t = c := by
  cases h with
  | lookup hid =>
    have hd := isDigits_of_ofText? hid
    have hs : t.any Operator.isSymbol = false := any_isSymbol_eq_false.mpr
      ⟨notMem_of_isDigits hd (by decide), notMem_of_isDigits hd (by decide)⟩
    simp [Clause.ofTrimmed, hs, ofBare, hid]
  | noId he hp hid =>
    simp [Clause.ofTrimmed, any_isSymbol_eq_false.mpr ⟨he, hp⟩, ofBare, hid]
  | noField hh =>
    rcases hh with hh | ⟨hh, he⟩
    · obtain ⟨t', rfl⟩ := List.head?_eq_some_iff.mp hh
      have hs : ('=' :: t').any Operator.isSymbol = true := by simp [Operator.isSymbol_iff.mpr]
      simp only [Clause.ofTrimmed, hs, sides?_of_head]
      cases hp : sides? '~' ('=' :: t') with
      | none => rfl
      | some sides => simp [mem_field_of_sides? hp (by decide) (by decide)]
    · obtain ⟨t', rfl⟩ := List.head?_eq_some_iff.mp hh
      have hs : ('~' :: t').any Operator.isSymbol = true := by simp [Operator.isSymbol_iff.mpr]
      simp [Clause.ofTrimmed, hs, sides?_of_notMem he, sides?_of_head]
  | @start field value hf he =>
    have hs : t.any Operator.isSymbol = true := by
      rw [← Bool.not_eq_false, any_isSymbol_eq_false]
      simp [hf.eq]
    have hm : '=' ∉ trim field := by
      intro hm
      apply he
      rw [hf.eq]
      exact List.mem_append_left _ (mem_of_mem_trim hm)
    simp [Clause.ofTrimmed, hs, sides?_of_notMem he, hf.sides?, hm]
  | equals hf hid =>
    rw [ofTrimmed_of_falls_equals hf]
    split
    · next hi =>
      obtain ⟨hv, hs⟩ := hid hi
      rw [ofIdValue_fieldEquals hv hs]
    · rfl
  | idEquals hf hi hid =>
    rw [ofTrimmed_of_falls_equals hf, if_pos hi, ofIdValue_idEquals hid, hi, String.ofList_toList]
  | idRange hf hi hr =>
    rw [ofTrimmed_of_falls_equals hf, if_pos hi, ofIdValue_idRange hr, hi, String.ofList_toList]
  | noIdValue hf hi hid hr hs =>
    rw [ofTrimmed_of_falls_equals hf, if_pos hi, ofIdValue_malformedId hid hr hs]

theorem exists_falls_or {op : Char} {t : List Char} (ht : Trimmed t) (h : op ∈ t) :
    t.head? = some op ∨ ∃ field value, Falls op t field value := by
  cases hc : cut? op t with
  | none => exact absurd h (cut?_eq_none_iff.mp hc)
  | some sides =>
    obtain ⟨field, value⟩ := sides
    obtain ⟨heq, hf⟩ := cut?_eq_some_iff.mp hc
    by_cases hn : trim field = []
    · cases field with
      | nil => exact .inl (by simp [heq])
      | cons c field =>
        have hb := ht.1 c (by simp [heq])
        rw [trim_eq_nil_iff.mp hn c List.mem_cons_self] at hb
        contradiction
    · exact .inr ⟨field, value, heq, hf, hn⟩

theorem exists_spells (idField : String) {t : List Char} (ht : Trimmed t) :
    ∃ c, Spells idField t c := by
  by_cases he : '=' ∈ t
  · rcases exists_falls_or ht he with hh | ⟨field, value, hf⟩
    · exact ⟨_, .noField (.inl hh)⟩
    · by_cases hi : trim field = idField.toList
      · cases hid : LocalId.ofText? (trim value) with
        | some id => exact ⟨_, .idEquals hf hi hid⟩
        | none =>
          by_cases hr : ∃ low high, IsIdRange (trim value) low high
          · obtain ⟨low, high, hr⟩ := hr
            exact ⟨_, .idRange hf hi hr⟩
          · by_cases hs : resemblesId (trim value)
            · exact ⟨_, .noIdValue hf hi hid hr hs⟩
            · exact ⟨_, .equals hf fun _ => ⟨hid, hs⟩⟩
      · exact ⟨_, .equals hf fun hi' => absurd hi' hi⟩
  · by_cases hp : '~' ∈ t
    · rcases exists_falls_or ht hp with hh | ⟨field, value, hf⟩
      · exact ⟨_, .noField (.inr ⟨hh, he⟩)⟩
      · exact ⟨_, .start hf he⟩
    · cases hid : LocalId.ofText? t with
      | some id => exact ⟨_, .lookup hid⟩
      | none => exact ⟨_, .noId he hp hid⟩

theorem spells_iff {idField : String} {t : List Char} (ht : Trimmed t) {c : Clause} :
    Spells idField t c ↔ Clause.ofTrimmed idField t = c := by
  constructor
  · exact Spells.ofTrimmed
  · intro heq
    subst heq
    obtain ⟨c, hc⟩ := exists_spells idField ht
    rw [hc.ofTrimmed]
    exact hc

end RecordSearch.Clause
