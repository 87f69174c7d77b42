import RecordSearch.Proofs.Compilation
import RecordSearch.Proofs.Conjunction

/-!
Searching for a conjunction. Expressions that are joined find what each of them finds, so the
result is the intersection of their results. Whatever a clause finds is stored in the one store
that is searched, so that the results agree on every record; which is why neither the order of the
expressions counts, nor how they are grouped, nor how often one is repeated.
-/

set_option autoImplicit false

namespace RecordSearch
open Text

def Dialect.join (d : Dialect) (expressions : List String) : String :=
  (" " ++ d.conjunction ++ " ").intercalate expressions

def Store.found (s : Store) (d : Dialect) (type : RecordType) (expression : String) : RecordSet :=
  (s.run (d.search (some expression) type)).value

/-- Expressions whose results are intersected two at a time, in some order and grouping. -/
inductive Meet where
  | one (expression : String)
  | both (left right : Meet)

namespace Meet

def expressions : Meet → List String
  | one e => [e]
  | both left right => left.expressions ++ right.expressions

def result (found : String → RecordSet) : Meet → RecordSet
  | one e => found e
  | both left right => (left.result found).inter (right.result found)

end Meet

namespace Store
variable {s : Store}

theorem mem_records_of_mem_idsWithin {name : String} {low high : LocalId} {r : Record}
    (hr : r ∈ (s.idsWithin name low high).toList) : r ∈ s.records.toList := by
  unfold idsWithin at hr
  split at hr
  · exact absurd hr List.not_mem_nil
  · exact (SortedBy.mem_within.mp hr).1

/-- Only the record of a singleton can come from elsewhere. -/
theorem mem_records_of_mem_select {selection : Selection Record}
    (hs : ∀ record, selection ≠ .singleton record) {r : Record}
    (hr : r ∈ (s.select selection).toList) : r ∈ s.records.toList := by
  have hfield {name field : String} {condition : Condition}
      (hr : r ∈ (s.withField name field condition).toList) : r ∈ s.records.toList :=
    mem_records_of_mem_idsWithin (SortedBy.mem_filter.mp hr).1
  cases selection with
  | all name => exact mem_records_of_mem_idsWithin hr
  | singleton record => exact absurd rfl (hs record)
  | equals name field value => exact hfield hr
  | startsWith name field start => exact hfield hr
  | idsWithin name low high => exact mem_records_of_mem_idsWithin hr
  | valuesWithin name field low high => exact hfield hr

theorem exists_finds_selectRecords (s : Store) (selection : Selection Record)
    (hs : ∀ record, selection ≠ .singleton record) :
    ∃ p, s.Finds p (Program.selectRecords selection) :=
  ⟨(· ∈ (s.select selection).toList), finds_selectRecords fun _ =>
    ⟨fun hr => ⟨mem_records_of_mem_select hs hr, hr⟩, And.right⟩⟩

/-- A clause finds stored records, in whatever state the store is. -/
theorem exists_finds_compileClause (s : Store) (type : RecordType) (c : Clause) :
    ∃ p, s.Finds p (c.compile type) := by
  suffices h : ∃ p, s.Finds p _ by
    obtain ⟨p, hp⟩ := h
    exact ⟨p, hp.report (.compilingClause c)⟩
  cases c with
  | malformedId text => exact ⟨_, .empty, rfl, selects_empty⟩
  | malformedClause text => exact ⟨_, .empty, rfl, selects_empty⟩
  | idLookup id => exact ⟨_, finds_lookUp s _⟩
  | idEquals field id =>
    obtain ⟨p, hp⟩ := s.exists_finds_selectRecords (.equals type.name field id.toNat.repr)
      (by simp)
    exact ⟨_, (finds_lookUp s _).union hp⟩
  | idRange field low high =>
    obtain ⟨p, hp⟩ := s.exists_finds_selectRecords (.idsWithin type.name low high) (by simp)
    obtain ⟨q, hq⟩ := s.exists_finds_selectRecords (.valuesWithin type.name field low high)
      (by simp)
    exact ⟨_, hp.union hq⟩
  | fieldEquals field value => exact s.exists_finds_selectRecords _ (by simp)
  | fieldStartsWith field start => exact s.exists_finds_selectRecords _ (by simp)

def FoundBy (s : Store) (type : RecordType) (r : Record) (c : Clause) : Prop :=
  r ∈ (s.run (c.compile type)).value.toList

theorem finds_foundBy (s : Store) (type : RecordType) (c : Clause) :
    s.Finds (fun r => s.FoundBy type r c) (c.compile type) := by
  obtain ⟨p, hp⟩ := exists_finds_compileClause s type c
  exact hp.congr fun r hr => ((hp.selects_value r).trans (and_iff_right hr)).symm

section Expressions
variable {d : Dialect} {es : List String}

theorem selects_found (s : Store) (type : RecordType) {e : String}
    (he : (d.parse (some e)).clauses ≠ []) :
    s.Selects (fun r => ∀ c ∈ (d.parse (some e)).clauses, s.FoundBy type r c)
      (s.found d type e) :=
  (finds_compile_of_ne_nil he fun c _ => finds_foundBy s type c).search.selects_value

theorem clauses_parse_ne_nil {e : String} (he : ¬AllBlank e.toList) :
    (d.parse (some e)).clauses ≠ [] := fun hnil =>
  he ((d.clauses_parse_eq_nil_iff (some e)).mp hnil e rfl)

theorem selects_found_join (s : Store) (hd : d.Accepted) (type : RecordType) (hne : es ≠ [])
    (hb : ∀ e ∈ es, ¬AllBlank e.toList) :
    s.Selects (fun r => ∀ e ∈ es, r ∈ (s.found d type e).toList) (s.found d type (d.join es)) := by
  have hp : (d.parse (some (d.join es))).clauses = es.flatMap fun e =>
      (d.parse (some e)).clauses :=
    Dialect.parse_spaced_of_not_blank hd (spaced_toList_intercalate d.conjunction hne) hb
  -- A query without clauses is not found by its clauses: it finds the whole type.
  have hjoin : (d.parse (some (d.join es))).clauses ≠ [] := by
    obtain ⟨e, he⟩ := List.exists_mem_of_ne_nil es hne
    rw [hp]
    exact fun hnil => clauses_parse_ne_nil (hb e he) (List.flatMap_eq_nil_iff.mp hnil e he)
  refine (selects_found s type hjoin).congr fun r hr => ?_
  rw [hp, List.forall_mem_flatMap]
  refine forall₂_congr fun e he => ?_
  rw [selects_found s type (clauses_parse_ne_nil (hb e he)) r, and_iff_right hr]

theorem selects_meet (s : Store) (type : RecordType) {m : Meet}
    (hb : ∀ e ∈ m.expressions, ¬AllBlank e.toList) :
    s.Selects (fun r => ∀ e ∈ m.expressions, r ∈ (s.found d type e).toList)
      (m.result (s.found d type)) := by
  induction m with
  | one e =>
    have hb : ¬AllBlank e.toList := hb e (by simp [Meet.expressions])
    have hsel := selects_found (d := d) s type (clauses_parse_ne_nil hb)
    intro r
    simp only [Meet.expressions, List.mem_singleton, forall_eq, Meet.result]
    exact ⟨fun hr => ⟨((hsel r).mp hr).1, hr⟩, And.right⟩
  | both left right ihl ihr =>
    rw [Meet.expressions, List.forall_mem_append] at hb
    refine ((ihl hb.1).inter (ihr hb.2)).congr fun r _ => ?_
    rw [Meet.expressions, List.forall_mem_append]

/-- In any store, a search for expressions joined by the conjunction finds the intersection of
what the expressions find by themselves, however they are ordered, grouped and repeated there; and
it finds the same for every other list with the same expressions in it. -/
theorem found_join (s : Store) (hd : d.Accepted) (type : RecordType) (hne : es ≠ [])
    (hb : ∀ e ∈ es, ¬AllBlank e.toList) :
    (∀ m : Meet, (∀ e, e ∈ m.expressions ↔ e ∈ es) →
      s.found d type (d.join es) = m.result (s.found d type)) ∧
    ∀ es' : List String, (∀ e, e ∈ es' ↔ e ∈ es) →
      s.found d type (d.join es') = s.found d type (d.join es) := by
  have hjoin := selects_found_join s hd type hne hb
  constructor
  · intro m hm
    have hmeet := selects_meet (d := d) s type fun e he => hb e ((hm e).mp he)
    refine hjoin.eq (hmeet.congr fun r _ => ?_)
    simp only [hm]
  · intro es' hes
    have hne' : es' ≠ [] := by
      obtain ⟨e, he⟩ := List.exists_mem_of_ne_nil es hne
      exact List.ne_nil_of_mem ((hes e).mpr he)
    have hjoin' := selects_found_join s hd type hne' fun e he => hb e ((hes e).mp he)
    refine (hjoin'.congr fun r _ => ?_).eq hjoin
    simp only [hes]

theorem found_join_repeated :
    let s := ofActions [.insert "User" [("name", .text "Ann")], .insert "Team" [],
      .insert "User" [("name", .text "Anita")]]
    let found := s.found .standard ⟨"User", 0⟩
    let e := "name~An and id=[0,1]"
    Dialect.standard.Accepted ∧
      found "name~An and id=[0,1] and 01" = (found "01").inter ((found e).inter (found "01")) ∧
      found "01 and name~An and id=[0,1] and 01" = found "name~An and id=[0,1] and 01" ∧
      (found "name~An and id=[0,1] and 01").keys = [⟨0, 1⟩] := by
  intro s found e
  have hd := Dialect.standard_accepted
  obtain ⟨hm, hl⟩ := found_join s hd ⟨"User", 0⟩ (List.cons_ne_nil e ["01"]) (by decide)
  have hjoin : Dialect.standard.join [e, "01"] = "name~An and id=[0,1] and 01" := by decide
  rw [hjoin] at hm hl
  refine ⟨hd, ?_, ?_, by decide⟩
  · exact hm (.both (.one "01") (.both (.one e) (.one "01"))) (by simp [Meet.expressions])
  · exact hl ["01", e, "01"] (by simp)

end Expressions
end Store
end RecordSearch
