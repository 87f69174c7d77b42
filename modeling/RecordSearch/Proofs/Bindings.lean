import RecordSearch.Proofs.Compilation
import RecordSearch.Proofs.Composition

set_option autoImplicit false

namespace RecordSearch

def SameBindings (l m : List Property) : Prop :=
  ∀ p, LastIn Property.name l p ↔ LastIn Property.name m p

theorem sameBindings_of_perm {l m : List Property} (h : l.Perm m)
    (hl : (l.map Property.name).Nodup) : SameBindings l m := fun p => by
  rw [lastIn_iff_mem hl, lastIn_iff_mem ((h.map _).nodup_iff.mp hl), h.mem_iff]

section Searches
variable {r t : Record}

theorem Record.Binds.properties_eq {l m : List Property} (hr : r.Binds l) (ht : t.Binds m)
    (h : SameBindings l m) : r.properties = t.properties :=
  SortedBy.eq_of_mem_iff fun p =>
    (hr.mem_properties_iff p).trans ((h p).trans (ht.mem_properties_iff p).symm)

def Query.OnFields (q : Query) : Prop :=
  ∀ c ∈ q.clauses, c.kind ≠ .idLookup ∧ c.kind ≠ .idEquals ∧ c.kind ≠ .idRange

theorem Query.OnFields.matches_iff {q : Query} (hq : q.OnFields) (type : RecordType)
    (hn : r.typeName = t.typeName) (hp : r.properties = t.properties) :
    q.Matches type r ↔ q.Matches type t := by
  refine and_congr (by rw [hn]) (forall₂_congr fun c hc => ?_)
  have hkind := hq c hc
  cases c with
  | malformedId text => rfl
  | malformedClause text => rfl
  | idLookup id => exact absurd rfl hkind.1
  | idEquals field id => exact absurd rfl hkind.2.1
  | idRange field low high => exact absurd rfl hkind.2.2
  | fieldEquals field value => simp only [Clause.Matches, hn, hp]
  | fieldStartsWith field start => simp only [Clause.Matches, hn, hp]

end Searches

namespace Store
open History

theorem insert_congr {l m : List Property} (h : SameBindings l m) (s : Store) (name : String) :
    s.insert name l = s.insert name m := by
  have hp : (.ofList l : Properties) = .ofList m := SortedBy.ofList_eq_iff.mpr h
  simp only [insert, put, hp]

theorem mem_withField_congr {s : Store} (hs : s.Typed) {r t : Record} (hr : r ∈ s.records.toList)
    (ht : t ∈ s.records.toList) (hn : r.typeName = t.typeName) (hp : r.properties = t.properties)
    (name field : String) (condition : Condition) :
    r ∈ (s.withField name field condition).toList ↔
      t ∈ (s.withField name field condition).toList := by
  rw [selects_withField hs name field condition r, selects_withField hs name field condition t]
  simp only [hr, ht, Record.property?, hn, hp]

/-- An inserted record has the last of the pairs with each name. Lists with the same last pairs,
such as two orders of pairs with different names, give records with the same properties: a search
by fields finds both or neither, and a store in which the one list is inserted is the store in
which the other is. -/
theorem insert_binds {h : History} (hf : Fits h) :
    let s := ofActions h
    (∀ before name l after, h = before ++ .insert name l :: after →
      ∃ r, s.find? ((ofActions before).insert name l).1 = some r ∧ r.typeName = name ∧
        r.Binds l) ∧
    (∀ (r t : Record) l m, r.Binds l → t.Binds m → SameBindings l m →
      r.properties = t.properties) ∧
    (∀ r ∈ s.records.toList, ∀ t ∈ s.records.toList, r.typeName = t.typeName →
      r.properties = t.properties →
      (∀ name field condition, r ∈ (s.withField name field condition).toList ↔
        t ∈ (s.withField name field condition).toList) ∧
      ∀ type (q : Query), q.OnFields → (r ∈ (s.run (q.compile type)).value.toList ↔
        t ∈ (s.run (q.compile type)).value.toList)) ∧
    (∀ l m, l.Perm m → (l.map Property.name).Nodup → SameBindings l m) ∧
    ∀ before name l m after, SameBindings l m →
      ofActions (before ++ .insert name l :: after) =
        ofActions (before ++ .insert name m :: after) := by
  intro s
  have hs : s.Typed := (reflects_ofActions hf).typed
  refine ⟨fun before name l after hh => ?_, fun r t l m hr ht hlm => hr.properties_eq ht hlm,
    fun r hr t ht hn hp => ⟨mem_withField_congr hs hr ht hn hp, fun type q hq => ?_⟩,
    fun l m hlm hl => sameBindings_of_perm hlm hl, fun before name l m after hlm => ?_⟩
  · subst hh
    exact ⟨_, (find?_of_insert hf).2.2, rfl, Record.binds_of_eq rfl⟩
  · have hfind := (finds_compile hs type q).selects_value
    rw [hfind r, hfind t, iff_true_intro hr, iff_true_intro ht]
    exact and_congr_right' (hq.matches_iff type hn hp)
  · simp only [ofActions, List.foldl_append, List.foldl_cons, apply, insert_congr hlm]

theorem insert_binds_repeated_name :
    let l : List Property := [("name", .text "Ann"), ("age", .integer 7), ("name", .text "Rob")]
    let m : List Property := [("name", .text "Rob"), ("age", .integer 7)]
    let h : History := [.insert "User" l, .insert "User" m]
    let s := ofActions h
    Fits h ∧ SameBindings l m ∧ m.Perm m.reverse ∧ (m.map Property.name).Nodup ∧
      (∃ r t, s.find? ⟨0, 0⟩ = some r ∧ s.find? ⟨0, 1⟩ = some t ∧
        r.property? "name" = some (.text "Rob") ∧ r.property? "nick" = none ∧
        ∀ type (q : Query), q.OnFields → (r ∈ (s.run (q.compile type)).value.toList ↔
          t ∈ (s.run (q.compile type)).value.toList)) ∧
      ofActions [.insert "User" m] = ofActions [.insert "User" m.reverse] := by
  intro l m h s
  have hf : Fits h := .of_length_lt (by decide)
  have hlm : SameBindings l m := SortedBy.ofList_eq_iff.mp (by decide)
  have hp : m.Perm m.reverse := (List.reverse_perm m).symm
  have hm : (m.map Property.name).Nodup := by decide
  obtain ⟨hbinds, hprops, hsearch, hperm, hstore⟩ := insert_binds hf
  obtain ⟨r, hr, hrn, hrl⟩ := hbinds [] "User" l [.insert "User" m] rfl
  obtain ⟨t, ht, htn, htm⟩ := hbinds [.insert "User" l] "User" m [] rfl
  have hfields := (hsearch r (SortedBy.find?_eq_some_iff.mp hr).1 t
    (SortedBy.find?_eq_some_iff.mp ht).1 (hrn.trans htn.symm) (hprops r t l m hrl htm hlm)).2
  refine ⟨hf, hlm, hp, hm, ⟨r, t, hr, ht, ?_, ?_, hfields⟩,
    hstore [] "User" m m.reverse [] (hperm m m.reverse hp hm)⟩
  · exact (hrl.property?_eq_some_iff _ _).mpr ⟨l.take 2, [], rfl, by simp⟩
  · exact (hrl.property?_eq_none_iff _).mpr (by decide)

end Store
end RecordSearch
