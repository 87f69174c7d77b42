import RecordSearch.Proofs.Growth

/-!
Types do not see each other. Which records a type has is read off the actions that name it; what
else a store goes through shows in the id of the type alone. A query asks nothing of a record that
changes with that id, so it finds the same in every store in which the type has the same history.
-/

set_option autoImplicit false

namespace RecordSearch

namespace Record

def withTypeId (r : Record) (typeId : TypeId) : Record := { r with id := ⟨typeId, r.id.localId⟩ }

/-- All that a record tells but the id of its type. -/
def content (r : Record) : LocalId × String × Properties := (r.id.localId, r.typeName, r.properties)

theorem content_withTypeId (r : Record) (i : TypeId) : (r.withTypeId i).content = r.content := rfl

theorem withTypeId_withTypeId (r : Record) (i j : TypeId) :
    (r.withTypeId i).withTypeId j = r.withTypeId j := rfl

theorem withTypeId_eq_self {r : Record} {i : TypeId} (h : r.id.typeId = i) :
    r.withTypeId i = r := by
  subst h
  rfl

theorem compare_withTypeId {r t : Record} (h : r.id.typeId = t.id.typeId) (i : TypeId) :
    compare (r.withTypeId i).id (t.withTypeId i).id = compare r.id t.id := by
  have hr : r.id = ⟨t.id.typeId, r.id.localId⟩ := congrArg (RecordId.mk · r.id.localId) h
  calc compare (r.withTypeId i).id (t.withTypeId i).id
      = compare r.id.localId t.id.localId := RecordId.compare_mk i _ _
    _ = compare r.id t.id := by rw [hr, RecordId.compare_mk]

end Record

section Matching
variable {r : Record} {type : RecordType}

/-- Only the clauses that look an id up mention the type id, and they follow the record. -/
theorem Clause.matches_withTypeId (h : r.id.typeId = type.id) (i : TypeId) (c : Clause) :
    c.Matches ⟨type.name, i⟩ (r.withTypeId i) ↔ c.Matches type r := by
  have hid (n : LocalId) : (r.withTypeId i).id = ⟨i, n⟩ ↔ r.id = ⟨type.id, n⟩ := by
    obtain ⟨⟨typeId, localId⟩, name, properties⟩ := r
    obtain rfl : typeId = type.id := h
    simp [Record.withTypeId]
  cases c with
  | malformedId text => rfl
  | malformedClause text => rfl
  | idLookup n => exact hid n
  | idEquals field n => exact or_congr_left (hid n)
  | idRange field low high => rfl
  | fieldEquals field value => rfl
  | fieldStartsWith field start => rfl

theorem Query.matches_withTypeId (h : r.id.typeId = type.id) (i : TypeId) (q : Query) :
    q.Matches ⟨type.name, i⟩ (r.withTypeId i) ↔ q.Matches type r :=
  and_congr Iff.rfl (forall₂_congr fun c _ => c.matches_withTypeId h i)

end Matching

namespace Store

def History.ofType (h : History) (name : String) : History := h.filter (·.typeName = name)

theorem History.insertedInto_ofType (h : History) (name : String) :
    insertedInto (h.ofType name) name = insertedInto h name := by
  rw [ofType, insertedInto, List.filterMap_filter, insertedInto]
  refine List.filterMap_congr fun a _ => ?_
  cases a with
  | register other => simp [Action.insertedInto?]
  | insert other properties =>
    by_cases hn : other = name <;> simp [Action.insertedInto?, Action.typeName, hn]

open History

section TwoStores
variable {s t : Store} {h k : History} {name : String} {i j : TypeId}

theorem Reflects.exists_typeId (hs : Reflects s h) (hne : h.ofType name ≠ []) :
    ∃ i, s.typeId? name = some i := by
  obtain ⟨a, ha⟩ := List.exists_mem_of_ne_nil _ hne
  simp only [ofType, List.mem_filter, decide_eq_true_eq] at ha
  have hn := (hs.mem_typeNames name).mp (History.mem_typeNames.mpr ⟨a, ha⟩)
  exact Option.isSome_iff_exists.mp hn

theorem Reflects.mem_records_withTypeId (hs : Reflects s h) (ht : Reflects t k)
    (hj : t.typeId? name = some j) (he : h.ofType name = k.ofType name) {r : Record}
    (hr : r ∈ s.records.toList) (hn : r.typeName = name) : r.withTypeId j ∈ t.records.toList := by
  subst hn
  obtain ⟨-, properties, hp, hrp⟩ := hs.mem_records.mp hr
  rw [← insertedInto_ofType, he, insertedInto_ofType] at hp
  exact ht.mem_records.mpr ⟨(ht.types _ _).mp hj, properties, hp, hrp⟩

theorem Reflects.found_withTypeId (hs : Reflects s h) (ht : Reflects t k)
    (hi : s.typeId? name = some i) (hj : t.typeId? name = some j)
    (he : h.ofType name = k.ofType name) {q : Query} {r : Record} (hr : r ∈ s.records.toList)
    (hm : q.Matches ⟨name, i⟩ r) :
    r.id.typeId = i ∧ r.withTypeId j ∈ t.records.toList ∧ q.Matches ⟨name, j⟩ (r.withTypeId j) := by
  have hn : r.typeName = name := hm.typeName_eq hs.typed hi hr
  have hid : r.id.typeId = i := (hs.typed.typeName_eq_iff hr hi).mp hn
  exact ⟨hid, hs.mem_records_withTypeId ht hj he hr hn, (Query.matches_withTypeId hid j q).mpr hm⟩

theorem Reflects.toList_run_compile_eq_map (hs : Reflects s h) (ht : Reflects t k)
    (hi : s.typeId? name = some i) (hj : t.typeId? name = some j)
    (he : h.ofType name = k.ofType name) (q : Query) :
    (t.run (q.compile ⟨name, j⟩)).value.toList =
      (s.run (q.compile ⟨name, i⟩)).value.toList.map (·.withTypeId j) := by
  have hfs := (finds_compile hs.typed ⟨name, i⟩ q).selects_value
  have hft := (finds_compile ht.typed ⟨name, j⟩ q).selects_value
  refine SortedBy.toList_eq_map (fun a ha b hb => ?_) fun r => ?_
  · obtain ⟨ha, hma⟩ := (hfs a).mp ha
    obtain ⟨hb, hmb⟩ := (hfs b).mp hb
    have hia := (hs.found_withTypeId ht hi hj he ha hma).1
    have hib := (hs.found_withTypeId ht hi hj he hb hmb).1
    exact Record.compare_withTypeId (hia.trans hib.symm) j
  · constructor
    · intro hr
      -- The two stores change places: the record found in `t` has its like in `s`.
      obtain ⟨hr, hm⟩ := (hft r).mp hr
      obtain ⟨hid, hrs, hms⟩ := ht.found_withTypeId hs hj hi he.symm hr hm
      refine ⟨r.withTypeId i, (hfs _).mpr ⟨hrs, hms⟩, ?_⟩
      rw [Record.withTypeId_withTypeId, Record.withTypeId_eq_self hid]
    · intro hr
      obtain ⟨a, ha, rfl⟩ := hr
      obtain ⟨ha, hm⟩ := (hfs a).mp ha
      exact (hft _).mpr (hs.found_withTypeId ht hi hj he ha hm).2

/-- What a query finds of a type depends on no action but those that name the type: whatever else
two stores have gone through, the records found have the same local ids, names and properties, in
the same order, although the type may have another id. -/
theorem map_content_run_compile (hh : Fits h) (hk : Fits k) (hne : h.ofType name ≠ [])
    (he : h.ofType name = k.ofType name) (q : Query) :
    ∃ i j, (ofActions h).typeId? name = some i ∧ (ofActions k).typeId? name = some j ∧
      ((ofActions h).run (q.compile ⟨name, i⟩)).value.toList.map Record.content =
        ((ofActions k).run (q.compile ⟨name, j⟩)).value.toList.map Record.content := by
  have hs := reflects_ofActions hh
  have ht := reflects_ofActions hk
  obtain ⟨i, hi⟩ := hs.exists_typeId hne
  obtain ⟨j, hj⟩ := ht.exists_typeId (he ▸ hne)
  refine ⟨i, j, hi, hj, ?_⟩
  rw [hs.toList_run_compile_eq_map ht hi hj he q, List.map_map]
  exact List.map_congr_left fun r _ => (r.content_withTypeId j).symm

theorem map_content_run_compile_interleaved :
    let ann : Action := .insert "User" [("name", .text "Ann")]
    let anita : Action := .insert "User" [("name", .text "Anita"), ("id", .text "0")]
    let h : History := [ann, .insert "Team" [("name", .text "Anton")], .register "User", anita]
    let k : History := [.register "Issue", .insert "Team" [], ann, .insert "Issue" [],
      .register "User", anita, .insert "Team" [("id", .text "0")]]
    let q : Query := ⟨[.fieldStartsWith "name" "An", .idEquals "id" 0]⟩
    let found := fun h i => ((ofActions h).run (q.compile ⟨"User", i⟩)).value.toList
    (Fits h ∧ Fits k ∧ h.ofType "User" ≠ [] ∧ h.ofType "User" = k.ofType "User") ∧
      (ofActions h).typeId? "User" = some 0 ∧ (ofActions k).typeId? "User" = some 2 ∧
      (found h 0).map Record.content = (found k 2).map Record.content ∧
      (found k 2).map Record.id = [⟨2, 0⟩, ⟨2, 1⟩] := by
  intro ann anita h k q found
  have hh : Fits h := .of_length_lt (by decide)
  have hk : Fits k := .of_length_lt (by decide)
  have he : h.ofType "User" = k.ofType "User" := rfl
  have hne : h.ofType "User" ≠ [] := List.cons_ne_nil ann _
  obtain ⟨i, j, hi, hj, heq⟩ := map_content_run_compile hh hk hne he q
  have hi' : (ofActions h).typeId? "User" = some 0 := by decide
  have hj' : (ofActions k).typeId? "User" = some 2 := by decide
  obtain rfl : i = 0 := Option.some.inj (hi.symm.trans hi')
  obtain rfl : j = 2 := Option.some.inj (hj.symm.trans hj')
  exact ⟨⟨hh, hk, hne, he⟩, hi, hj, heq, by decide⟩

end TwoStores
end Store
end RecordSearch
