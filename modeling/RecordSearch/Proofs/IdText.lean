import RecordSearch.RecordId

set_option autoImplicit false

namespace RecordSearch

namespace Text

/-- The digits without the zeros in front of them; the last digit stays, also as a zero. -/
def unpadded : List Char → List Char
  | '0' :: c :: t => unpadded (c :: t)
  | t => t

def digitValue (c : Char) : Nat := c.toNat - '0'.toNat

theorem digitValue_lt {c : Char} (hc : c.isDigit) : digitValue c < 10 := by
  have h := (Char.isDigit_iff_toNat.mp hc).2
  have h9 : '9'.toNat = 57 := rfl
  have h0 : '0'.toNat = 48 := rfl
  unfold digitValue
  omega

theorem toDigits_digitValue {c : Char} (hc : c.isDigit) : Nat.toDigits 10 (digitValue c) = [c] := by
  have hlt := digitValue_lt hc
  have h := (Char.isDigit_iff_toNat.mp hc).1
  have h0 : '0'.toNat = 48 := rfl
  have hback : (Nat.digitChar (digitValue c)).toNat = c.toNat := by
    rw [Nat.toNat_digitChar_of_lt_ten hlt, digitValue]
    omega
  rw [Nat.toDigits_of_lt_base hlt, Char.toNat_inj.mp hback]

theorem value_cons (c : Char) (t : List Char) :
    value (c :: t) = Nat.ofDigitChars 10 t (digitValue c) := by
  rw [value, Nat.ofDigitChars_cons, Nat.mul_zero, Nat.zero_add]
  rfl

theorem toDigits_append_digits {n : Nat} {t : List Char} (hn : 0 < n) (ht : ∀ c ∈ t, c.isDigit) :
    Nat.toDigits 10 n ++ t = Nat.toDigits 10 (Nat.ofDigitChars 10 t n) := by
  induction t generalizing n with
  | nil => simp
  | cons c t ih =>
    have hc := ht c List.mem_cons_self
    calc Nat.toDigits 10 n ++ c :: t
        = (Nat.toDigits 10 n ++ Nat.toDigits 10 (digitValue c)) ++ t := by
          rw [toDigits_digitValue hc, List.append_assoc, List.singleton_append]
      _ = Nat.toDigits 10 (10 * n + digitValue c) ++ t := by
          rw [Nat.toDigits_append_toDigits (by decide) hn (digitValue_lt hc)]
      _ = Nat.toDigits 10 (Nat.ofDigitChars 10 (c :: t) n) := by
          rw [Nat.ofDigitChars_cons]
          exact ih (by omega) fun d hd => ht d (List.mem_cons_of_mem c hd)

theorem toDigits_value {t : List Char} (hne : t ≠ []) (ht : ∀ c ∈ t, c.isDigit) :
    Nat.toDigits 10 (value t) = unpadded t := by
  fun_induction unpadded t with
  | case1 c t ih =>
    rw [← ih (List.cons_ne_nil c t) fun d hd => ht d (List.mem_cons_of_mem '0' hd)]
    rfl
  | case2 t hpad =>
    obtain ⟨c, t, rfl⟩ := List.exists_cons_of_ne_nil hne
    have hc := ht c List.mem_cons_self
    rw [value_cons]
    cases t with
    | nil => exact toDigits_digitValue hc
    | cons d t =>
      -- The first digit counts, so the digits behind it only follow it.
      have hpos : 0 < digitValue c := by
        refine Nat.pos_of_ne_zero fun hz => hpad d t ?_
        have h0 := toDigits_digitValue hc
        rw [hz, Nat.toDigits_zero, List.singleton_inj] at h0
        rw [h0]
      calc Nat.toDigits 10 (Nat.ofDigitChars 10 (d :: t) (digitValue c))
          = Nat.toDigits 10 (digitValue c) ++ d :: t :=
            (toDigits_append_digits hpos fun e he => ht e (List.mem_cons_of_mem c he)).symm
        _ = c :: d :: t := by rw [toDigits_digitValue hc, List.singleton_append]

end Text

namespace RecordId
open Text

/-- The text is the numerals `a` and `b` with a dash between them, and both fit an id. -/
structure IsText (text : String) (a b : List Char) : Prop where
  toList_eq : text.toList = a ++ '-' :: b
  typeDigits : a ≠ [] ∧ ∀ c ∈ a, c.isDigit
  localDigits : b ≠ [] ∧ ∀ c ∈ b, c.isDigit
  type_lt : Nat.ofDigitChars 10 a 0 < UInt32.size
  local_lt : Nat.ofDigitChars 10 b 0 < UInt64.size

theorem ofText?_eq_some_iff {t : List Char} {id : RecordId} :
    ofText? t = some id ↔ ∃ a b, t = a ++ '-' :: b ∧
      IsNumeral a id.typeId.toNat ∧ IsNumeral b id.localId.toNat := by
  simp only [ofText?, Option.bind_eq_bind, Option.bind_eq_some_iff, Prod.exists, Option.pure_def,
    Option.some.injEq, readBelow?_eq_some_iff, LocalId.ofText?_eq_some_iff, cut?_eq_some_iff]
  constructor
  · intro h
    obtain ⟨a, b, ⟨rfl, -⟩, m, ⟨hd, hv, hlt⟩, n, hn, rfl⟩ := h
    refine ⟨a, b, rfl, isNumeral_iff.mpr ⟨hd, ?_⟩, hn⟩
    rw [hv, UInt32.toNat_ofNat_of_lt' hlt]
  · intro h
    obtain ⟨a, b, rfl, ha, hb⟩ := h
    have hdash : '-' ∉ a := fun h => absurd (ha.digits '-' h) (by decide)
    obtain ⟨hd, hv⟩ := isNumeral_iff.mp ha
    exact ⟨a, b, ⟨rfl, hdash⟩, id.typeId.toNat, ⟨hd, hv, id.typeId.toNat_lt_size⟩, id.localId, hb,
      by simp⟩

theorem parse_eq_ok_iff {text : String} {id : RecordId} :
    parse text = .ok id ↔
      ∃ a b, IsText text a b ∧ id.typeId.toNat = Nat.ofDigitChars 10 a 0 ∧
        id.localId.toNat = Nat.ofDigitChars 10 b 0 := by
  have hok : parse text = .ok id ↔ ofText? text.toList = some id := by
    rw [parse]
    cases ofText? text.toList <;> simp
  rw [hok, ofText?_eq_some_iff]
  constructor
  · intro h
    obtain ⟨a, b, ht, ha, hb⟩ := h
    have h₁ := id.typeId.toNat_lt_size
    have h₂ := id.localId.toNat_lt_size
    exact ⟨a, b, ⟨ht, ⟨ha.ne_nil, ha.digits⟩, ⟨hb.ne_nil, hb.digits⟩, ha.value_eq ▸ h₁,
      hb.value_eq ▸ h₂⟩, ha.value_eq.symm, hb.value_eq.symm⟩
  · intro h
    obtain ⟨a, b, ht, ha, hb⟩ := h
    exact ⟨a, b, ht.toList_eq, ⟨ht.typeDigits.1, ht.typeDigits.2, ha.symm⟩,
      ⟨ht.localDigits.1, ht.localDigits.2, hb.symm⟩⟩

theorem parse_eq_error_iff {text : String} {e : SearchError} :
    parse text = .error e ↔ e = .invalidRecordId text ∧ ¬∃ id, parse text = .ok id := by
  rw [parse]
  cases ofText? text.toList <;> simp [eq_comm]

theorem IsText.exists_parse {text : String} {a b : List Char} (h : IsText text a b) :
    ∃ id, parse text = .ok id ∧ id.display.toList = unpadded a ++ '-' :: unpadded b := by
  have ha : (UInt32.ofNat (value a)).toNat = value a := UInt32.toNat_ofNat_of_lt' h.type_lt
  have hb : (UInt64.ofNat (value b)).toNat = value b := UInt64.toNat_ofNat_of_lt' h.local_lt
  refine ⟨⟨.ofNat (value a), .ofNat (value b)⟩, parse_eq_ok_iff.mpr ⟨a, b, h, ha, hb⟩, ?_⟩
  rw [toList_display, ha, hb, toDigits_value h.typeDigits.1 h.typeDigits.2,
    toDigits_value h.localDigits.1 h.localDigits.2]

theorem exists_parse_iff {text : String} :
    (∃ id, parse text = .ok id) ↔ ∃ a b, IsText text a b := by
  constructor
  · intro h
    obtain ⟨id, hid⟩ := h
    obtain ⟨a, b, ht, -⟩ := parse_eq_ok_iff.mp hid
    exact ⟨a, b, ht⟩
  · intro h
    obtain ⟨a, b, ht⟩ := h
    obtain ⟨id, hid, -⟩ := ht.exists_parse
    exact ⟨id, hid⟩

theorem display_inj {i j : RecordId} : i.display = j.display ↔ i = j := by
  constructor
  · intro h
    have hij := parse_display i
    rw [h, parse_display j] at hij
    exact (Except.ok.inj hij).symm
  · exact congrArg display

/-- A text is read as the id with the values of its two numerals if they fit, and else the error
keeps it as it is. What is displayed is read back, is the text without its padding, and is the
same for two texts if they name one id. -/
theorem parse_display_laws :
    (∀ text, (∃ id, parse text = .ok id) ↔ ∃ a b, IsText text a b) ∧
    (∀ text id, parse text = .ok id ↔
      ∃ a b, IsText text a b ∧ id.typeId.toNat = Nat.ofDigitChars 10 a 0 ∧
        id.localId.toNat = Nat.ofDigitChars 10 b 0) ∧
    (∀ text e, parse text = .error e ↔ e = .invalidRecordId text ∧ ¬∃ a b, IsText text a b) ∧
    (∀ id, parse id.display = .ok id) ∧
    (∀ text a b, IsText text a b →
      ∃ id, parse text = .ok id ∧ id.display.toList = unpadded a ++ '-' :: unpadded b) ∧
    (∀ s t i j, parse s = .ok i → parse t = .ok j → (i = j ↔ i.display = j.display)) := by
  refine ⟨fun _ => exists_parse_iff, fun _ _ => parse_eq_ok_iff, fun text e => ?_, parse_display,
    fun _ _ _ h => h.exists_parse, fun _ _ _ _ _ _ => display_inj.symm⟩
  rw [parse_eq_error_iff, exists_parse_iff]

theorem parse_display_laws_padded :
    let a := "007".toList
    let b := "000".toList
    IsText "007-000" a b ∧ (∃ id, parse "007-000" = .ok id ∧ id.display.toList = "7-0".toList) ∧
      parse "007-000" = .ok ⟨7, 0⟩ ∧ parse "7-01" = .ok ⟨7, 1⟩ ∧
      display ⟨7, 0⟩ ≠ display ⟨7, 1⟩ := by
  intro a b
  obtain ⟨-, -, -, -, hunpadded, hsame⟩ := parse_display_laws
  have h : IsText "007-000" a b :=
    ⟨by decide, isDigits_iff.mp (by decide), isDigits_iff.mp (by decide), by decide, by decide⟩
  have h₁ : parse "007-000" = .ok ⟨7, 0⟩ := rfl
  have h₂ : parse "7-01" = .ok ⟨7, 1⟩ := rfl
  exact ⟨h, hunpadded _ a b h, h₁, h₂, mt (hsame _ _ _ _ h₁ h₂).mpr (by decide)⟩

end RecordId
end RecordSearch
