import RecordSearch.Matching
import RecordSearch.Proofs.Outcome
import RecordSearch.Proofs.Selection
import RecordSearch.Record.Binding

set_option autoImplicit false

namespace RecordSearch
namespace Store

/-- The program answers with the stored records that have the property. -/
def Finds (s : Store) (p : Record → Prop) (program : Program Record RecordSet Empty RecordSet) :
    Prop :=
  ∃ set, program.answer s.transaction = .ok set ∧ s.Selects p set

variable {s : Store} {p q : Record → Prop}

theorem Finds.congr {program : Program Record RecordSet Empty RecordSet} (hp : s.Finds p program)
    (h : ∀ r ∈ s.records.toList, p r ↔ q r) : s.Finds q program := by
  obtain ⟨set, hset, hsel⟩ := hp
  exact ⟨set, hset, hsel.congr h⟩

theorem Finds.selects_value {program : Program Record RecordSet Empty RecordSet}
    (h : s.Finds p program) : s.Selects p (s.run program).value := by
  obtain ⟨set, hset, hsel⟩ := h
  have hr : (s.run program).result = .ok set := (Program.result_run _ _ _).trans hset
  rw [Run.value, hr]
  exact hsel

theorem finds_selectRecords {selection : Selection Record} (h : s.Selects p (s.select selection)) :
    s.Finds p (Program.selectRecords selection) :=
  ⟨_, Program.answer_selectRecords _ _, h⟩

theorem finds_lookUp (s : Store) (id : RecordId) : s.Finds (fun r => r.id = id) (lookUp id) := by
  refine ⟨_, answer_lookUp s.find? s.select id, ?_⟩
  unfold lookUpSet
  cases hf : s.find? id with
  | none =>
    have hnone := SortedBy.find?_eq_none_iff.mp hf
    exact selects_empty.congr fun r hr => iff_of_false not_false (hnone r hr)
  | some r =>
    obtain ⟨hr, rfl⟩ := SortedBy.find?_eq_some_iff.mp hf
    exact selects_singleton hr

theorem Finds.report {a : Program Record RecordSet Empty RecordSet} (ha : s.Finds p a)
    (event : Event) : s.Finds p (do
      Program.report event
      a) := by
  obtain ⟨x, hx, hxs⟩ := ha
  refine ⟨x, ?_, hxs⟩
  rw [Program.answer_bind, Program.answer_report]
  exact hx

theorem Finds.union {a b : Program Record RecordSet Empty RecordSet} (ha : s.Finds p a)
    (hb : s.Finds q b) :
    s.Finds (fun r => p r ∨ q r) (do
      let x ← a
      let y ← b
      return ResultSet.union x y) := by
  obtain ⟨x, hx, hxs⟩ := ha
  obtain ⟨y, hy, hys⟩ := hb
  refine ⟨x.union y, ?_, hxs.union hys⟩
  simp only [Program.answer_bind, Program.answer_pure, hx, hy]
  rfl

end Store

open Store

theorem finds_compileClause {s : Store} (hs : s.Typed) (type : RecordType) (c : Clause) :
    s.Finds (fun r => c.Matches type r) (c.compile type) := by
  refine Finds.report ?_ (.compilingClause c)
  cases c with
  | malformedId text => exact ⟨.empty, rfl, selects_empty⟩
  | malformedClause text => exact ⟨.empty, rfl, selects_empty⟩
  | idLookup id => exact finds_lookUp s _
  | idEquals field id =>
    refine (finds_lookUp s _).union (finds_selectRecords ?_)
    refine (selects_withField hs type.name field _).congr fun r _ => ?_
    rw [Condition.any_holds_equals, Record.property?_eq_some_iff]
  | idRange field low high =>
    have hid := selects_idsWithin hs type.name low high
    have hfield := selects_withField hs type.name field (.within low high)
    refine ((finds_selectRecords hid).union (finds_selectRecords hfield)).congr fun r _ => ?_
    simp only [Condition.any_holds_within, Record.property?_eq_some_iff, ← and_or_left]
    rfl
  | fieldEquals field value =>
    refine finds_selectRecords ((selects_withField hs type.name field _).congr fun r _ => ?_)
    rw [Condition.any_holds_equals, Record.property?_eq_some_iff]
    rfl
  | fieldStartsWith field start =>
    refine finds_selectRecords ((selects_withField hs type.name field _).congr fun r _ => ?_)
    simp only [Condition.any_holds_startsWith, Record.property?_eq_some_iff]
    rfl

section Query
variable {s : Store} {type : RecordType} {P : Clause → Record → Prop}

theorem finds_foldlM {cs : List Clause} (hcs : ∀ c ∈ cs, s.Finds (P c) (c.compile type))
    {p : Record → Prop} {set : RecordSet} (hset : s.Selects p set) :
    s.Finds (fun r => p r ∧ ∀ c ∈ cs, P c r)
      (cs.foldlM (fun found c => return ResultSet.inter found (← c.compile type)) set) := by
  induction cs generalizing p set with
  | nil => exact ⟨set, rfl, hset.congr fun r _ => by simp⟩
  | cons c cs ih =>
    obtain ⟨found, hfound, hsel⟩ := hcs c List.mem_cons_self
    obtain ⟨all, hall, hsel'⟩ := ih (fun c' hc' => hcs c' (List.mem_cons_of_mem c hc'))
      (hset.inter hsel)
    refine ⟨all, ?_, hsel'.congr fun r _ => by simp [and_assoc]⟩
    rw [List.foldlM_cons, Program.answer_bind, Program.answer_bind, hfound]
    exact hall

theorem finds_compile_of_ne_nil {q : Query} (hq : q.clauses ≠ [])
    (hcs : ∀ c ∈ q.clauses, s.Finds (P c) (c.compile type)) :
    s.Finds (fun r => ∀ c ∈ q.clauses, P c r) (q.compile type) := by
  refine Finds.report ?_ (.compilingQuery type q.size)
  obtain ⟨clauses⟩ := q
  cases clauses with
  | nil => contradiction
  | cons c cs =>
    obtain ⟨first, hfirst, hsel⟩ := hcs c List.mem_cons_self
    obtain ⟨all, hall, hsel'⟩ := finds_foldlM (fun c' hc' =>
      hcs c' (List.mem_cons_of_mem c hc')) hsel
    refine ⟨all, ?_, hsel'.congr fun r _ => by simp⟩
    rw [Program.answer_bind, hfirst]
    exact hall

end Query

theorem finds_compile {s : Store} (hs : s.Typed) (type : RecordType) (q : Query) :
    s.Finds (fun r => q.Matches type r) (q.compile type) := by
  by_cases hq : q.clauses = []
  · obtain ⟨clauses⟩ := q
    subst hq
    refine Finds.report (finds_selectRecords ?_) (.compilingQuery type 0)
    exact (selects_allOf hs type.name).congr fun r _ => by simp [Query.Matches]
  · refine (finds_compile_of_ne_nil hq fun c _ => finds_compileClause hs type c).congr
      fun r _ => ?_
    exact (and_iff_right fun h => absurd h hq).symm

theorem Store.Finds.search {s : Store} {p : Record → Prop} {d : Dialect}
    {expression : Option String} {type : RecordType}
    (h : s.Finds p ((d.parse expression).compile type)) :
    s.Finds p (d.search expression type) := by
  obtain ⟨set, hset, hsel⟩ := h
  exact ⟨set, (d.answer_search _ _ _).trans hset, hsel⟩

open History

/-- A query that is run on a store gives the stored records that match it, each of them once
and in the order of the ids, whatever type name and type id are searched. -/
theorem mem_run_compile_iff {h : History} (hf : Fits h) (type : RecordType) (q : Query) :
    ∃ set, ((ofActions h).run (q.compile type)).result = .ok set ∧
      (set.toList.Pairwise fun a b => compare a.id b.id = .lt) ∧
      ∀ r, r ∈ set.toList ↔ r ∈ (ofActions h).records.toList ∧ q.Matches type r := by
  obtain ⟨set, hset, hsel⟩ := finds_compile (reflects_ofActions hf).typed type q
  refine ⟨set, ?_, set.ascending, hsel⟩
  rw [Store.run, Program.result_run]
  exact hset

theorem mem_run_compile_iff_two_types :
    let h : History := [.insert "User" [("name", .text "Ann"), ("age", .integer 7)],
      .insert "Issue" [("name", .text "Anton"), ("age", .integer 3)],
      .insert "User" [("name", .text "Bob"), ("age", .integer 5)],
      .insert "User" [("name", .text "Anita"), ("age", .integer (-2))]]
    let type : RecordType := ⟨"User", 1⟩
    let q : Query := ⟨[.fieldStartsWith "name" "An", .idRange "age" 2 7]⟩
    Fits h ∧ ∃ set, ((ofActions h).run (q.compile type)).result = .ok set ∧
      set.keys = [⟨0, 0⟩, ⟨0, 2⟩] ∧
      (set.toList.Pairwise fun a b => compare a.id b.id = .lt) ∧
      ∀ r, r ∈ set.toList ↔ r ∈ (ofActions h).records.toList ∧ q.Matches type r := by
  intro h type q
  have hf : Fits h := .of_length_lt (by decide)
  obtain ⟨set, hset, hasc, hmem⟩ := mem_run_compile_iff hf type q
  have hkeys : ((ofActions h).run (q.compile type)).value.keys = [⟨0, 0⟩, ⟨0, 2⟩] := by decide
  rw [Run.value, hset] at hkeys
  exact ⟨hf, set, hset, hkeys, hasc, hmem⟩

end RecordSearch
