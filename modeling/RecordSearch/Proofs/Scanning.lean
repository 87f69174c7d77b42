import RecordSearch.Proofs.Outcome
import RecordSearch.Proofs.Selection

/-!
Scans of a store. The records lie in an ordered map, which refuses a range that starts above its
end. No call of a store asks for such a range, and a scan from one key to another gives what is
found by going through all the records, of whatever type.
-/

set_option autoImplicit false

namespace RecordSearch

/-- The elements with keys from `low` to `high`, unless the range starts above its end. -/
def SortedBy.range {α κ : Type} [Ord κ] {key : α → κ} (s : SortedBy key) (low high : κ) :
    Except (κ × κ) (SortedBy key) :=
  if h : (compare low high).isLE then .ok (s.within ⟨low, high, h⟩) else .error (low, high)

namespace Store

abbrev Refusal := RecordId × RecordId

def scan (s : Store) (typeName : String) (low high : LocalId) : Except Refusal RecordSet :=
  match s.typeId? typeName with
  | none => .ok .empty
  | some typeId => s.records.range ⟨typeId, low⟩ ⟨typeId, high⟩

def scanField (s : Store) (typeName field : String) (condition : Condition) :
    Except Refusal RecordSet :=
  return (← s.scan typeName 0 .greatest).filter fun r => (r.property? field).any condition.holds

/-- Answers by scans. Only the bounds that come from a call are looked at before. -/
def scanning (s : Store) : Transaction Record RecordSet Refusal where
  fetch id := .ok (s.find? id)
  select
    | .all typeName => s.scan typeName 0 .greatest
    | .singleton record => .ok (.singleton record)
    | .equals typeName field value => s.scanField typeName field (.equals value)
    | .startsWith typeName field start => s.scanField typeName field (.startsWith start)
    | .idsWithin typeName low high =>
        if high < low then .ok .empty else s.scan typeName low high
    | .valuesWithin typeName field low high => s.scanField typeName field (.within low high)

open History

section Scans
variable (s : Store) (name : String) {low high : LocalId}

theorem scan_of_le (h : low ≤ high) : s.scan name low high = .ok (s.idsWithin name low high) := by
  unfold scan idsWithin span?
  cases s.typeId? name with
  | none => rfl
  | some typeId =>
    have hle : (compare (RecordId.mk typeId low) (RecordId.mk typeId high)).isLE := by
      rw [RecordId.compare_mk]
      exact Std.isLE_compare.mpr h
    simp [SortedBy.range, h, hle]

theorem scan_of_lt (h : high < low) :
    s.scan name low high =
      match s.typeId? name with
      | none => .ok .empty
      | some typeId => .error (⟨typeId, low⟩, ⟨typeId, high⟩) := by
  unfold scan
  cases s.typeId? name with
  | none => rfl
  | some typeId =>
    have hle : ¬(compare (RecordId.mk typeId low) (RecordId.mk typeId high)).isLE := by
      rw [RecordId.compare_mk, Std.isLE_compare]
      exact UInt64.not_le.mpr h
    simp [SortedBy.range, hle]

theorem scan_eq_error_iff :
    (∃ refused, s.scan name low high = .error refused) ↔
      (s.typeId? name).isSome ∧ high < low := by
  by_cases h : high < low
  · rw [scan_of_lt s name h]
    cases s.typeId? name <;> simp [h]
  · rw [scan_of_le s name (UInt64.not_lt.mp h)]
    simp [h]

theorem idsWithin_of_lt (h : high < low) : s.idsWithin name low high = .empty := by
  unfold idsWithin span?
  cases s.typeId? name with
  | none => rfl
  | some typeId => simp [UInt64.not_le.mpr h]

theorem scan_all : s.scan name 0 .greatest = .ok (s.allOf name) := scan_of_le s name (by decide)

theorem scanField_eq (field : String) (condition : Condition) :
    s.scanField name field condition = .ok (s.withField name field condition) := by
  rw [scanField, scan_all]
  rfl

theorem select_scanning (selection : Selection Record) :
    s.scanning.select selection = .ok (s.select selection) := by
  cases selection with
  | all name => exact scan_all s name
  | singleton record => rfl
  | equals name field value => exact scanField_eq s name field _
  | startsWith name field start => exact scanField_eq s name field _
  | idsWithin name low high =>
    simp only [scanning, select]
    split
    · next h => rw [idsWithin_of_lt s name h]
    · next h => exact scan_of_le s name (UInt64.not_lt.mp h)
  | valuesWithin name field low high => exact scanField_eq s name field _

theorem scanning_eq : s.scanning = .ofAnswers s.find? s.select := by
  have h : s.scanning.select = fun selection => .ok (s.select selection) :=
    funext s.select_scanning
  rw [Transaction.ofAnswers, ← h]
  rfl

theorem answer_compile_scanning (type : RecordType) (q : Query) :
    (q.compile type).answer s.scanning = .ok (s.run (q.compile type)).value := by
  have hr : (s.run (q.compile type)).result = .ok (q.set type s.find? s.select) :=
    (Program.result_run _ _ _).trans (answer_compile type s.find? s.select q)
  rw [scanning_eq, answer_compile, Run.value, hr]

end Scans

theorem Selects.eq_filter {s : Store} {p : Record → Prop} [DecidablePred p] {a : RecordSet}
    (ha : s.Selects p a) : a = s.records.filter fun r => p r :=
  ha.eq fun r => by rw [SortedBy.mem_filter, decide_eq_true_iff]

/-- What is scanned between two ids of a type is what going through all records finds: the records
of the type with local ids between the two, and over the whole span all of its records. The bounds
are in any order, and yet no call has a range refused, though a scan from above would. -/
theorem select_eq_filter {h : History} (hf : Fits h) :
    let s := ofActions h
    (∀ name low high, s.select (.idsWithin name low high) = s.records.filter fun r =>
      r.typeName = name ∧ low ≤ r.id.localId ∧ r.id.localId ≤ high) ∧
    (∀ name, s.select (.all name) = s.records.filter fun r => r.typeName = name) ∧
    (∀ selection, s.scanning.select selection = .ok (s.select selection)) ∧
    (∀ {α : Type} (p : Program Record RecordSet Refusal α) turn,
      p.run s.scanning.session turn =
        p.run (.ofAnswers s.find? s.select : Transaction _ _ _).session turn) ∧
    (∀ type (q : Query), (q.compile type).answer s.scanning =
      .ok (s.run (q.compile type)).value) ∧
    ∀ name low high, (∃ refused, s.scan name low high = .error refused) ↔
      (s.typeId? name).isSome ∧ high < low := by
  intro s
  have hs : s.Typed := (reflects_ofActions hf).typed
  exact ⟨fun name low high => (selects_idsWithin hs name low high).eq_filter,
    fun name => (selects_allOf hs name).eq_filter, select_scanning s,
    fun p turn => by rw [scanning_eq], answer_compile_scanning s,
    fun name _ _ => scan_eq_error_iff s name⟩

theorem select_eq_filter_extreme_bounds :
    let h : History := [.insert "User" [], .insert "Team" [], .insert "User" []]
    let s := ofActions h
    Fits h ∧ (s.select (.idsWithin "User" 0 .greatest)).toList.map Record.id = [⟨0, 0⟩, ⟨0, 1⟩] ∧
      (s.select (.idsWithin "User" 1 1)).toList.map Record.id = [⟨0, 1⟩] ∧
      (s.select (.idsWithin "Ticket" 0 .greatest)).toList = [] ∧
      (s.select (.all "Team")).toList.map Record.id = [⟨1, 0⟩] ∧
      s.scanning.select (.idsWithin "User" .greatest 0) = .ok .empty ∧
      ∃ refused, s.scan "User" .greatest 0 = .error refused := by
  intro h s
  have hf : Fits h := .of_length_lt (by decide)
  obtain ⟨hids, hall, hselect, -, -, hrefused⟩ := select_eq_filter hf
  refine ⟨hf, ?_, ?_, ?_, ?_, ?_, (hrefused _ _ _).mpr (by decide)⟩
  · rw [hids]
    decide
  · rw [hids]
    decide
  · rw [hids]
    decide
  · rw [hall]
    decide
  · rw [hselect, hids]
    exact congrArg Except.ok (by decide)

end Store
end RecordSearch
