import RecordSearch.Error
import RecordSearch.Text.Cut
import RecordSearch.Text.Numeral

/-!
Record ids: a type id of 32 bits and a local id of 64 bits, ordered by type first. The text
form is `<type>-<local>`, two decimal numerals with a dash between them.
-/

set_option autoImplicit false

namespace RecordSearch
open Text

abbrev TypeId := UInt32

abbrev LocalId := UInt64

def LocalId.greatest : LocalId := 0xFFFFFFFFFFFFFFFF

def LocalId.ofText? (t : List Char) : Option LocalId := (readBelow? UInt64.size t).map .ofNat

theorem LocalId.ofText?_eq_some_iff {t : List Char} {n : LocalId} :
    LocalId.ofText? t = some n ↔ IsNumeral t n.toNat := by
  rw [LocalId.ofText?, Option.map_eq_some_iff, isNumeral_iff]
  constructor
  · intro h
    obtain ⟨m, hm, rfl⟩ := h
    obtain ⟨hd, hv, hlt⟩ := readBelow?_eq_some_iff.mp hm
    exact ⟨hd, by rw [UInt64.toNat_ofNat_of_lt' hlt, hv]⟩
  · intro h
    exact ⟨n.toNat, readBelow?_eq_some_iff.mpr ⟨h.1, h.2, n.toNat_lt_size⟩, UInt64.ofNat_toNat⟩

theorem LocalId.ofText?_toDigits (n : LocalId) :
    LocalId.ofText? (Nat.toDigits 10 n.toNat) = some n := by
  simp [LocalId.ofText?, readBelow?_toDigits n.toNat_lt_size]

/-- A record type: the name under which a store lists it, and the id in its records' ids. -/
structure RecordType where
  name : String
  id : TypeId
  deriving DecidableEq, Repr

structure RecordId where
  typeId : TypeId
  localId : LocalId
  deriving DecidableEq, Repr

namespace RecordId

instance : Ord RecordId := ⟨compareLex (compareOn typeId) (compareOn localId)⟩

instance : Std.TransOrd RecordId :=
  inferInstanceAs (Std.TransCmp (compareLex (compareOn typeId) (compareOn localId)))

instance : Std.LawfulEqOrd RecordId where
  compare_self := Std.ReflOrd.compare_self
  eq_of_compare {a b} h := by
    obtain ⟨h₁, h₂⟩ := compareLex_eq_eq.mp h
    have h₁ : a.typeId = b.typeId := Std.LawfulEqOrd.eq_of_compare h₁
    have h₂ : a.localId = b.localId := Std.LawfulEqOrd.eq_of_compare h₂
    cases a; cases b; simp_all

theorem compare_mk (typeId : TypeId) (a b : LocalId) :
    compare (RecordId.mk typeId a) (RecordId.mk typeId b) = compare a b := by
  have h : compare (RecordId.mk typeId a) (RecordId.mk typeId b)
      = (compare typeId typeId).then (compare a b) := rfl
  rw [h, Std.ReflOrd.compare_self]
  rfl

theorem isLE_compare_iff {a b : RecordId} :
    (compare a b).isLE ↔ a.typeId < b.typeId ∨ a.typeId = b.typeId ∧ a.localId ≤ b.localId := by
  have h : compare a b = (compare a.typeId b.typeId).then (compare a.localId b.localId) := rfl
  rw [h, Ordering.isLE_then_iff_or, Std.compare_eq_lt, Std.LawfulEqOrd.compare_eq_iff_eq,
    Std.isLE_compare]

def sorted (ids : List RecordId) : List RecordId := ids.mergeSort fun a b => (compare a b).isLE

def display (id : RecordId) : String :=
  id.typeId.toNat.repr ++ "-" ++ id.localId.toNat.repr

def ofText? (t : List Char) : Option RecordId := do
  let (typeText, localText) ← cut? '-' t
  let typeId ← readBelow? UInt32.size typeText
  let localId ← LocalId.ofText? localText
  return ⟨.ofNat typeId, localId⟩

/-- Reads `<type>-<local>`; the error keeps the text as it was given. -/
def parse (text : String) : Except SearchError RecordId :=
  match ofText? text.toList with
  | some id => .ok id
  | none => .error (.invalidRecordId text)

theorem toList_display (id : RecordId) :
    id.display.toList =
      Nat.toDigits 10 id.typeId.toNat ++ '-' :: Nat.toDigits 10 id.localId.toNat := by
  simp [display]

theorem parse_display (id : RecordId) : parse id.display = .ok id := by
  have h : '-' ∉ Nat.toDigits 10 id.typeId.toNat := fun h => by
    simpa using Nat.isDigit_of_mem_toDigits (by decide) (by decide) h
  simp [parse, ofText?, toList_display, cut?_append h, readBelow?_toDigits id.typeId.toNat_lt_size,
    LocalId.ofText?_toDigits]

end RecordId
end RecordSearch
