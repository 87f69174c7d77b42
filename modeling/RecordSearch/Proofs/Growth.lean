import RecordSearch.Proofs.Compilation

set_option autoImplicit false

namespace RecordSearch
open Store History

section Searched
variable {s : Store} {type : RecordType} {r : Record}

theorem Clause.Matches.typeName_eq (hs : s.Typed) (ht : s.typeId? type.name = some type.id)
    (hr : r ∈ s.records.toList) {c : Clause} (h : c.Matches type r) : r.typeName = type.name := by
  have hid {n : LocalId} (h : r.id = ⟨type.id, n⟩) : r.typeName = type.name :=
    (hs.typeName_eq_iff hr ht).mpr (congrArg RecordId.typeId h)
  cases c with
  | malformedId text => exact h.elim
  | malformedClause text => exact h.elim
  | idLookup n => exact hid h
  | idEquals field n => exact h.elim hid And.left
  | idRange field low high => exact h.1
  | fieldEquals field value => exact h.1
  | fieldStartsWith field start => exact h.1

theorem Query.Matches.typeName_eq (hs : s.Typed) (ht : s.typeId? type.name = some type.id)
    (hr : r ∈ s.records.toList) {q : Query} (h : q.Matches type r) : r.typeName = type.name := by
  by_cases hq : q.clauses = []
  · exact h.1 hq
  · obtain ⟨c, hc⟩ := List.exists_mem_of_ne_nil _ hq
    exact (h.2 c hc).typeName_eq hs ht hr

end Searched

namespace Store
variable {s t : Store} {h k : History} {name : String} {typeId : TypeId}

/-- The older records of a type are those with the local ids that were given first. -/
theorem Reflects.mem_records_iff_lt (hs : Reflects s h) (ht : Reflects t (h ++ k))
    (hn : s.typeId? name = some typeId) {r : Record} (hr : r ∈ t.records.toList)
    (hrn : r.typeName = name) :
    r ∈ s.records.toList ↔ r.id.localId.toNat < (insertedInto h name).length := by
  subst hrn
  constructor
  · intro hold
    obtain ⟨-, properties, hp, -⟩ := hs.mem_records.mp hold
    exact (List.getElem?_eq_some_iff.mp hp).1
  · intro hlt
    obtain ⟨htype, properties, hp, hrp⟩ := ht.mem_records.mp hr
    have hname := (hs.types _ _).mp hn
    have hid := typeNames_inj htype (getElem?_eq_of_isPrefix (typeNames_append h k) hname)
    rw [insertedInto_append, List.getElem?_append_left hlt] at hp
    exact hs.mem_records.mpr ⟨hid ▸ hname, properties, hp, hrp⟩

theorem Reflects.mem_records_append (hs : Reflects s h) (ht : Reflects t (h ++ k)) {r : Record}
    (hr : r ∈ s.records.toList) : r ∈ t.records.toList :=
  SortedBy.mem_toList_iff.mpr (hs.find?_append ht (SortedBy.mem_toList_iff.mp hr))

theorem exists_insert_of_mem_records (hf : Fits (h ++ k)) {r : Record}
    (hr : r ∈ (ofActions (h ++ k)).records.toList)
    (hge : (insertedInto h r.typeName).length ≤ r.id.localId.toNat) :
    ∃ before properties after, k = before ++ .insert r.typeName properties :: after ∧
      r = ⟨((ofActions (h ++ before)).insert r.typeName properties).1, r.typeName,
        .ofList properties⟩ := by
  have ht := reflects_ofActions hf
  obtain ⟨htype, properties, hp, hrp⟩ := ht.mem_records.mp hr
  rw [insertedInto_append, List.getElem?_append_right hge] at hp
  obtain ⟨before, after, rfl, hl⟩ := exists_insert_of_getElem? hp
  refine ⟨before, properties, after, rfl, ?_⟩
  rw [← List.append_assoc] at hf hr ht htype
  obtain ⟨-, -, hfind⟩ := find?_of_insert hf
  have hid : r.id = ((ofActions (h ++ before)).insert r.typeName properties).1 := by
    have hn : (insertedInto (h ++ before) r.typeName).length = r.id.localId.toNat := by
      rw [insertedInto_append, List.length_append, hl]
      omega
    rw [id_of_insert hf ((ht.types _ _).mpr htype), hn, UInt64.ofNat_toNat]
  rw [← hid] at hfind ⊢
  exact Option.some.inj ((SortedBy.mem_toList_iff.mp hr).symm.trans hfind)

section Found
variable {type : RecordType} {p : Record → Prop} {a b : RecordSet}

theorem Selects.toList_append (hs : Reflects s h) (ht : Reflects t (h ++ k))
    (hn : s.typeId? name = some typeId) (ha : s.Selects p a) (hb : t.Selects p b)
    (hp : ∀ r ∈ t.records.toList, p r → r.typeName = name) :
    ∃ rest, b.toList = a.toList ++ rest ∧ ∀ r ∈ rest, r ∈ t.records.toList ∧ r.typeName = name ∧
      (insertedInto h name).length ≤ r.id.localId.toNat := by
  -- Old records have smaller local ids than new ones, so to take the old ones is to cut the list.
  let old : Record → Bool := fun r => r.id.localId.toNat < (insertedInto h name).length
  have hasc : b.toList.Pairwise fun r r' => old r' → old r := by
    refine b.ascending.imp_of_mem fun {r r'} hr hr' hlt hold => ?_
    obtain ⟨hrt, hrp⟩ := (hb r).mp hr
    obtain ⟨hrt', hrp'⟩ := (hb r').mp hr'
    have hname : r.typeName = r'.typeName := (hp r hrt hrp).trans (hp r' hrt' hrp').symm
    have hlt := ht.localId_lt hrt hrt' hname hlt
    simp only [old, decide_eq_true_eq] at hold ⊢
    omega
  have hold : a = b.filter old := by
    refine SortedBy.eq_of_mem_iff fun r => ?_
    rw [SortedBy.mem_filter, ha r, hb r]
    simp only [old, decide_eq_true_eq]
    constructor
    · intro h
      obtain ⟨hr, hpr⟩ := h
      have hrt := hs.mem_records_append ht hr
      exact ⟨⟨hrt, hpr⟩, (hs.mem_records_iff_lt ht hn hrt (hp r hrt hpr)).mp hr⟩
    · intro h
      obtain ⟨⟨hrt, hpr⟩, hlt⟩ := h
      exact ⟨(hs.mem_records_iff_lt ht hn hrt (hp r hrt hpr)).mpr hlt, hpr⟩
  refine ⟨b.toList.dropWhile old, ?_, fun r hr => ?_⟩
  · have ha : a.toList = b.toList.takeWhile old := by
      rw [hold, SortedBy.takeWhile_eq_filter hasc]
      rfl
    rw [ha, List.takeWhile_append_dropWhile]
  · rw [SortedBy.dropWhile_eq_filter hasc, List.mem_filter] at hr
    obtain ⟨hrb, hnew⟩ := hr
    obtain ⟨hrt, hpr⟩ := (hb r).mp hrb
    exact ⟨hrt, hp r hrt hpr, by simpa [old] using hnew⟩

end Found

/-- What a query finds for a type that has its id stays at the head of what it finds after
further actions; what comes behind it are records that those actions inserted into the type; and
without such an insertion the result is the same. -/
theorem toList_run_compile_append (hf : Fits (h ++ k)) {type : RecordType}
    (hn : (ofActions h).typeId? type.name = some type.id) (q : Query) :
    let before := ((ofActions h).run (q.compile type)).value
    let after := ((ofActions (h ++ k)).run (q.compile type)).value
    (∃ rest, after.toList = before.toList ++ rest ∧
      ∀ r ∈ rest, ∃ k₁ properties k₂, k = k₁ ++ .insert type.name properties :: k₂ ∧
        r = ⟨((ofActions (h ++ k₁)).insert type.name properties).1, type.name,
          .ofList properties⟩) ∧
    ((∀ properties, .insert type.name properties ∉ k) → after = before) := by
  intro before after
  have hs := reflects_ofActions hf.of_append
  have ht := reflects_ofActions hf
  have hn' := hs.typeId?_append ht hn
  obtain ⟨rest, hrest, hnew⟩ := Selects.toList_append hs ht hn
    (finds_compile hs.typed type q).selects_value (finds_compile ht.typed type q).selects_value
    fun r hr hm => hm.typeName_eq ht.typed hn' hr
  have hinsert : ∀ r ∈ rest, ∃ k₁ properties k₂, k = k₁ ++ .insert type.name properties :: k₂ ∧
      r = ⟨((ofActions (h ++ k₁)).insert type.name properties).1, type.name,
        .ofList properties⟩ := by
    intro r hr
    obtain ⟨hrt, hname, hge⟩ := hnew r hr
    rw [← hname] at hge ⊢
    exact exists_insert_of_mem_records hf hrt hge
  refine ⟨⟨rest, hrest, hinsert⟩, fun hnone => ?_⟩
  have hnil : rest = [] := by
    refine List.eq_nil_iff_forall_not_mem.mpr fun r hr => ?_
    obtain ⟨k₁, properties, k₂, rfl, -⟩ := hinsert r hr
    exact hnone properties (by simp)
  rw [hnil, List.append_nil] at hrest
  refine SortedBy.eq_of_mem_iff fun r => ?_
  rw [hrest]

theorem toList_run_compile_append_two_users :
    let h : History := [.register "Team", .insert "User" [("name", .text "Ann")]]
    let other : Action := .insert "Team" [("name", .text "Anton")]
    let k : History := [other, .insert "User" [("name", .text "Anita")]]
    let type : RecordType := ⟨"User", 1⟩
    let q : Query := ⟨[.fieldStartsWith "name" "An"]⟩
    let found := fun h => ((ofActions h).run (q.compile type)).value
    Fits (h ++ k) ∧ (ofActions h).typeId? "User" = some 1 ∧
      (∃ rest, (found (h ++ k)).toList = (found h).toList ++ rest) ∧
      (found (h ++ k)).keys = [⟨1, 0⟩, ⟨1, 1⟩] ∧ found (h ++ [other]) = found h := by
  intro h other k type q found
  have hf : Fits (h ++ k) := .of_length_lt (by decide)
  have hf' : Fits (h ++ [other]) := .of_length_lt (by decide)
  have hn : (ofActions h).typeId? type.name = some type.id := by decide
  obtain ⟨⟨rest, hrest, -⟩, -⟩ := toList_run_compile_append hf hn q
  obtain ⟨-, hsame⟩ := toList_run_compile_append hf' hn q
  exact ⟨hf, hn, ⟨rest, hrest⟩, by decide, hsame (by simp [other, type])⟩

end Store
end RecordSearch
