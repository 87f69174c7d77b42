set_option autoImplicit false

namespace RecordSearch.Text

/-- The digits are the ASCII ones, so a numeral has one reading. -/
def isDigits (t : List Char) : Bool := !t.isEmpty && t.all Char.isDigit

/-- Digits after an optional sign: numeric to a reader, if not always an id. -/
def isSignedDigits : List Char → Bool
  | '+' :: t => isDigits t
  | '-' :: t => isDigits t
  | t => isDigits t

def value (t : List Char) : Nat := Nat.ofDigitChars 10 t 0

def readBelow? (bound : Nat) (t : List Char) : Option Nat :=
  if isDigits t && value t < bound then some (value t) else none

theorem readBelow?_eq_some_iff {bound n : Nat} {t : List Char} :
    readBelow? bound t = some n ↔ isDigits t ∧ value t = n ∧ n < bound := by
  simp only [readBelow?, Bool.and_eq_true, decide_eq_true_eq]
  split <;> grind

/-- A run of digits with this value, however many zeros it begins with. -/
structure IsNumeral (t : List Char) (n : Nat) : Prop where
  ne_nil : t ≠ []
  digits : ∀ c ∈ t, c.isDigit
  value_eq : Nat.ofDigitChars 10 t 0 = n

theorem isDigits_iff {t : List Char} : isDigits t ↔ t ≠ [] ∧ ∀ c ∈ t, c.isDigit := by
  simp [isDigits]

theorem isNumeral_iff {t : List Char} {n : Nat} : IsNumeral t n ↔ isDigits t ∧ value t = n := by
  rw [isDigits_iff]
  exact ⟨fun h => ⟨⟨h.ne_nil, h.digits⟩, h.value_eq⟩, fun h => ⟨h.1.1, h.1.2, h.2⟩⟩

theorem isDigits_toDigits (n : Nat) : isDigits (Nat.toDigits 10 n) := by
  have h : ∀ c ∈ Nat.toDigits 10 n, c.isDigit := fun _ hc =>
    Nat.isDigit_of_mem_toDigits (by decide) (by decide) hc
  simp [isDigits, Nat.toDigits_ne_nil, List.all_eq_true.mpr h]

theorem isNumeral_toDigits (n : Nat) : IsNumeral (Nat.toDigits 10 n) n :=
  isNumeral_iff.mpr ⟨isDigits_toDigits n, Nat.ofDigitChars_ten_toDigits⟩

theorem readBelow?_toDigits {bound n : Nat} (h : n < bound) :
    readBelow? bound (Nat.toDigits 10 n) = some n :=
  readBelow?_eq_some_iff.mpr ⟨isDigits_toDigits n, Nat.ofDigitChars_ten_toDigits, h⟩

end RecordSearch.Text
