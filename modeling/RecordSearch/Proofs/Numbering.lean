import Mathlib.Data.List.Sort
import RecordSearch.Proofs.History
import RecordSearch.Record.Binding

/-!
What a store is after a run of actions. The three tables of a store are those that its history
describes: names and ids of types, counters, and records. One action keeps this so, and hence
does every run that does not run out of ids.
-/

set_option autoImplicit false

namespace RecordSearch.Store
open History

section Knows
variable {s : Store} {h : History}

/-- The types of the store are those that the history names, however many these are. -/
structure Knows (s : Store) (h : History) : Prop where
  mem_typeNames : ∀ name, name ∈ typeNames h ↔ (s.typeId? name).isSome
  types_size : s.types.size = (typeNames h).length

theorem types_apply (s : Store) (a : Action) :
    (s.apply a).types = (s.register a.typeName).2.types := by
  cases a <;> rfl

theorem register_of_known {name : String} {typeId : TypeId} (ht : s.typeId? name = some typeId) :
    s.register name = (typeId, s) := by
  simp [register, ht]

theorem types_register_of_new {name : String} (ht : s.typeId? name = none) :
    (s.register name).2.types = s.types.insert (name, .ofNat s.types.size) := by
  simp [register, ht]

theorem Knows.mem_of_known (hs : Knows s h) {name : String} {typeId : TypeId}
    (ht : s.typeId? name = some typeId) : name ∈ typeNames h := by
  rw [hs.mem_typeNames, ht]
  rfl

theorem Knows.notMem_of_new (hs : Knows s h) {name : String} (ht : s.typeId? name = none) :
    name ∉ typeNames h := by
  rw [hs.mem_typeNames, ht]
  exact Bool.false_ne_true

theorem Knows.apply (hs : Knows s h) (a : Action) : Knows (s.apply a) (h ++ [a]) := by
  cases ht : s.typeId? a.typeName with
  | some typeId =>
    have hm := hs.mem_of_known ht
    constructor
    · intro name
      rw [typeNames_concat, if_pos hm, typeId?, types_apply, register_of_known ht]
      exact hs.mem_typeNames name
    · rw [typeNames_concat, if_pos hm, types_apply, register_of_known ht]
      exact hs.types_size
  | none =>
    have hm := hs.notMem_of_new ht
    constructor
    · intro name
      rw [typeNames_concat, if_neg hm, typeId?, types_apply, types_register_of_new ht,
        SortedBy.find?_insert, List.mem_append, List.mem_singleton, hs.mem_typeNames]
      by_cases hn : a.typeName = name
      · simp [hn]
      · simp [hn, Ne.symm hn, typeId?]
    · have hfresh : s.types.find? a.typeName = none := by simpa [typeId?] using ht
      rw [typeNames_concat, if_neg hm, types_apply, types_register_of_new ht,
        SortedBy.size_insert_of_fresh hfresh, hs.types_size, List.length_append,
        List.length_singleton]

theorem knows_empty : Knows empty [] where
  mem_typeNames name := by simp [typeId?, empty, SortedBy.find?_empty, typeNames]
  types_size := rfl

theorem ofActions_concat (h : History) (a : Action) :
    ofActions (h ++ [a]) = (ofActions h).apply a := by
  simp only [ofActions, List.foldl_append, List.foldl_cons, List.foldl_nil]

theorem knows_ofActions (h : History) : Knows (ofActions h) h := by
  induction h using List.reverseRecOn with
  | nil => exact knows_empty
  | append_singleton h a ih =>
    rw [ofActions_concat]
    exact ih.apply a

end Knows

section Limit
variable (s : Store)

theorem tryRegister_eq (name : String) : s.tryRegister name =
    if (s.typeId? name).isSome ∨ s.types.size < UInt32.size then .ok (s.register name)
    else .error .noTypeIdLeft := by
  cases ht : s.typeId? name with
  | some typeId => simp [tryRegister, register, ht]
  | none =>
    by_cases hl : s.types.size < UInt32.size <;>
      simp only [tryRegister, register, nthTypeId?, ht, hl] <;> simp

theorem tryInsert_eq (name : String) (properties : List Property) : s.tryInsert name properties =
    if (s.typeId? name).isSome ∨ s.types.size < UInt32.size then .ok (s.insert name properties)
    else .error .noTypeIdLeft := by
  rw [tryInsert, tryRegister_eq]
  by_cases hl : (s.typeId? name).isSome ∨ s.types.size < UInt32.size
  · rw [if_pos hl, if_pos hl]
    rfl
  · rw [if_neg hl, if_neg hl]
    rfl

theorem tryApply_eq (a : Action) : s.tryApply a =
    if (s.typeId? a.typeName).isSome ∨ s.types.size < UInt32.size then .ok (s.apply a)
    else .error .noTypeIdLeft := by
  cases a with
  | register name =>
    rw [tryApply, tryRegister_eq, apply_ite (Except.map Prod.snd)]
    rfl
  | insert name properties =>
    rw [tryApply, tryInsert_eq, apply_ite (Except.map Prod.snd)]
    rfl

theorem tryActions_eq (h : History) : tryActions h =
    if (typeNames h).length ≤ UInt32.size then .ok (ofActions h) else .error .noTypeIdLeft := by
  induction h using List.reverseRecOn with
  | nil => rfl
  | append_singleton h a ih =>
    have hs := knows_ofActions h
    have hstep : tryActions (h ++ [a]) = tryActions h >>= fun s => s.tryApply a := by
      simp [tryActions]
    rw [hstep, ih, ofActions_concat]
    by_cases hl : (typeNames h).length ≤ UInt32.size
    · rw [if_pos hl]
      change (ofActions h).tryApply a = _
      simp only [tryApply_eq, ← hs.mem_typeNames, hs.types_size, typeNames_concat]
      by_cases hm : a.typeName ∈ typeNames h
      · simp only [hm, true_or, ↓reduceIte, hl]
      · simp only [hm, false_or, ↓reduceIte, List.length_append, List.length_singleton,
          Nat.succ_le_iff]
    · have hmore := (typeNames_append h [a]).length_le
      rw [if_neg hl, if_neg (by omega)]
      rfl

end Limit

structure Reflects (s : Store) (h : History) : Prop extends Knows s h where
  types : ∀ name typeId, s.typeId? name = some typeId ↔ (typeNames h)[typeId.toNat]? = some name
  counters : ∀ typeId, s.nextLocal typeId = .ofNat (countAt h typeId)
  records : ∀ id, s.find? id = recordAt? h id
  size : s.size = insertions h

theorem reflects_empty : Reflects empty [] where
  toKnows := knows_empty
  types name typeId := by simp [typeId?, empty, SortedBy.find?_empty, typeNames]
  counters typeId := by simp [nextLocal, empty, SortedBy.find?_empty, countAt, typeNames]
  records id := by simp [find?, empty, SortedBy.find?_empty, recordAt?, typeNames]
  size := rfl

section Register
variable (s : Store) (name : String)

theorem size_register : (s.register name).2.size = s.size := by
  unfold register
  split <;> rfl

theorem nextLocal_register (typeId : TypeId) :
    (s.register name).2.nextLocal typeId = s.nextLocal typeId := by
  unfold register
  split <;> rfl

theorem find?_register (id : RecordId) : (s.register name).2.find? id = s.find? id := by
  unfold register
  split <;> rfl

theorem typeId?_register : (s.register name).2.typeId? name = some (s.register name).1 := by
  unfold register
  split
  · next ht => exact ht
  · simp [typeId?, SortedBy.find?_insert]

end Register

theorem Reflects.types_of_new {s : Store} {h : History} {name : String} (hs : Reflects s h)
    (hf : Fits h) (ht : s.typeId? name = none) (other : String) (typeId : TypeId) :
    (s.register name).2.typeId? other = some typeId ↔
      (typeNames h ++ [name])[typeId.toNat]? = some other := by
  rw [typeId?, types_register_of_new ht, SortedBy.find?_insert, hs.types_size]
  by_cases ho : name = other
  · subst ho
    have hid : .ofNat (typeNames h).length = typeId ↔ typeId.toNat = (typeNames h).length := by
      rw [← UInt32.toNat_inj, UInt32.toNat_ofNat_of_lt' hf.types, eq_comm]
    have hold : (typeNames h)[typeId.toNat]? ≠ some name := fun hi =>
      hs.notMem_of_new ht (List.mem_of_getElem? hi)
    simp only [↓reduceIte, Option.map_some, Option.some.injEq, hid]
    grind
  · have hold := hs.types other typeId
    rw [typeId?] at hold
    simp only [ho, ↓reduceIte, hold]
    grind

theorem Reflects.types_register {s : Store} {h : History} (hs : Reflects s h) (hf : Fits h)
    (name other : String) (typeId : TypeId) : (s.register name).2.typeId? other = some typeId ↔
      (typeNames (h ++ [.register name]))[typeId.toNat]? = some other := by
  rw [typeNames_register]
  cases ht : s.typeId? name with
  | some typeId =>
    rw [register_of_known ht, if_pos (hs.mem_of_known ht)]
    exact hs.types _ _
  | none =>
    rw [if_neg (hs.notMem_of_new ht)]
    exact hs.types_of_new hf ht _ _

theorem Reflects.register {s : Store} {h : History} (hs : Reflects s h) (hf : Fits h)
    (name : String) : Reflects (s.register name).2 (h ++ [.register name]) where
  toKnows := hs.toKnows.apply (.register name)
  types := hs.types_register hf name
  counters typeId := by rw [nextLocal_register, countAt_register, hs.counters]
  records id := by rw [find?_register, recordAt?_register, hs.records]
  size := by rw [size_register, insertions_register, hs.size]

section Insert
variable (s : Store) (name : String) (properties : List Property)

theorem typeId?_insert (other : String) :
    (s.insert name properties).2.typeId? other = (s.register name).2.typeId? other := rfl

theorem nextLocal_insert (typeId : TypeId) :
    (s.insert name properties).2.nextLocal typeId =
      if (s.register name).1 = typeId then (s.insert name properties).1.localId + 1
      else (s.register name).2.nextLocal typeId := by
  simp only [nextLocal, Store.insert, put, SortedBy.find?_insert]
  split <;> simp

theorem find?_insert (id : RecordId) :
    (s.insert name properties).2.find? id =
      if (s.insert name properties).1 = id then some ⟨id, name, .ofList properties⟩
      else (s.register name).2.find? id := by
  have hr : (s.insert name properties).2.records = (s.register name).2.records.insert
      ⟨(s.insert name properties).1, name, .ofList properties⟩ := rfl
  rw [find?, hr, SortedBy.find?_insert]
  by_cases hid : (s.insert name properties).1 = id
  · simp [hid]
  · simp only [hid, ↓reduceIte, find?]

theorem size_insert (hfresh : (s.register name).2.find? (s.insert name properties).1 = none) :
    (s.insert name properties).2.size = (s.register name).2.size + 1 :=
  SortedBy.size_insert_of_fresh hfresh

end Insert

section Step
variable {s : Store} {h : History}

theorem Reflects.insert_id (hs : Reflects s h) (hf : Fits h) (name : String)
    (properties : List Property) :
    (typeNames (h ++ [.register name]))[(s.register name).1.toNat]? = some name ∧
      (s.insert name properties).1 =
        ⟨(s.register name).1, .ofNat (insertedInto h name).length⟩ := by
  have hs' := hs.register hf name
  have ht := (hs'.types _ _).mp (typeId?_register s name)
  have hc := hs'.counters (s.register name).1
  rw [countAt_register, countAt_eq ht] at hc
  exact ⟨ht, congrArg (RecordId.mk _) hc⟩

theorem Reflects.insert (hs : Reflects s h) (hf : Fits h) (name : String)
    (properties : List Property) :
    Reflects (s.insert name properties).2 (h ++ [.insert name properties]) := by
  have hs' := hs.register hf name
  obtain ⟨ht, hid⟩ := hs.insert_id hf name properties
  have hl : countAt h (s.register name).1 < UInt64.size := by
    rw [countAt_eq ht]
    exact hf.records name
  rw [← countAt_eq ht] at hid
  refine ⟨hs.toKnows.apply (.insert name properties), ?_, ?_, ?_, ?_⟩
  · intro other typeId
    rw [typeId?_insert, typeNames_insert]
    exact hs'.types other typeId
  · intro typeId
    rw [nextLocal_insert, countAt_insert ht, hid]
    by_cases ho : (s.register name).1 = typeId
    · rw [if_pos ho, if_pos ho.symm, ← ho, UInt64.ofNat_add]
      rfl
    · rw [if_neg ho, if_neg (Ne.symm ho), nextLocal_register, hs.counters]
  · intro id
    rw [find?_insert, recordAt?_insert ht hl, hid]
    by_cases ho : id = ⟨(s.register name).1, .ofNat (countAt h (s.register name).1)⟩
    · rw [if_pos ho, if_pos ho.symm]
    · rw [if_neg ho, if_neg (Ne.symm ho), find?_register, hs.records]
  · have hfresh : (s.register name).2.find? (s.insert name properties).1 = none := by
      rw [hid, find?_register, hs.records, recordAt?_eq_none hl]
    rw [size_insert _ _ _ hfresh, size_register, hs.size, insertions_insert]

theorem Reflects.apply {a : Action} (hs : Reflects s h) (hf : Fits h) :
    Reflects (s.apply a) (h ++ [a]) := by
  cases a with
  | register name => exact hs.register hf name
  | insert name properties => exact hs.insert hf name properties

end Step

theorem reflects_ofActions {h : History} (hf : Fits h) : Reflects (ofActions h) h := by
  induction h using List.reverseRecOn with
  | nil => exact reflects_empty
  | append_singleton h a ih =>
    rw [ofActions_concat]
    exact (ih hf.of_append).apply hf.of_append

theorem Reflects.mem_records {s : Store} {h : History} (hs : Reflects s h) {r : Record} :
    r ∈ s.records.toList ↔
      (typeNames h)[r.id.typeId.toNat]? = some r.typeName ∧
        ∃ properties, (insertedInto h r.typeName)[r.id.localId.toNat]? = some properties ∧
          r.properties = .ofList properties := by
  rw [SortedBy.mem_toList_iff, ← Store.find?, hs.records, recordAt?_eq_some_iff]
  exact and_iff_right rfl

theorem Reflects.exists_record {s : Store} {h : History} (hs : Reflects s h) (hf : Fits h)
    {name : String} {n : Nat} (hn : n < (insertedInto h name).length) :
    ∃ r ∈ s.records.toList, r.typeName = name ∧ r.id.localId.toNat = n := by
  have hmem : name ∈ typeNames h := by
    by_contra hnone
    rw [insertedInto_eq_nil hnone] at hn
    contradiction
  obtain ⟨typeId, ht⟩ := Option.isSome_iff_exists.mp ((hs.mem_typeNames name).mp hmem)
  have hn' : (UInt64.ofNat n).toNat = n :=
    UInt64.toNat_ofNat_of_lt' (Nat.lt_trans hn (hf.records name))
  refine ⟨⟨⟨typeId, .ofNat n⟩, name, .ofList (insertedInto h name)[n]⟩, ?_, rfl, hn'⟩
  refine hs.mem_records.mpr ⟨(hs.types _ _).mp ht, (insertedInto h name)[n], ?_, rfl⟩
  simp only [hn']
  exact List.getElem?_eq_getElem hn

theorem Reflects.localId_lt {s : Store} {h : History} (hs : Reflects s h) {r t : Record}
    (hr : r ∈ s.records.toList) (ht : t ∈ s.records.toList) (hn : r.typeName = t.typeName)
    (hlt : compare r.id t.id = .lt) : r.id.localId.toNat < t.id.localId.toNat := by
  have hr' := (hs.mem_records.mp hr).1
  have ht' := (hs.mem_records.mp ht).1
  rw [hn] at hr'
  have hid : r.id.typeId = t.id.typeId := UInt32.toNat_inj.mp (typeNames_inj hr' ht')
  have hc := RecordId.compare_mk r.id.typeId r.id.localId t.id.localId
  nth_rewrite 2 [hid] at hc
  exact UInt64.lt_iff_toNat_lt.mp (Std.compare_eq_lt.mp (hc.symm.trans hlt))

theorem Reflects.localIds {s : Store} {h : History} (hs : Reflects s h) (hf : Fits h)
    (name : String) :
    (s.records.toList.filter (·.typeName = name)).map (·.id.localId.toNat) =
      List.range (insertedInto h name).length := by
  -- Both lists ascend, so they are equal if they have the same numbers in them.
  refine List.Pairwise.eq_of_mem_iff (r := (· < ·)) ?_ List.pairwise_lt_range ?_
  · rw [List.pairwise_map, List.pairwise_filter]
    refine s.records.ascending.imp_of_mem fun {r t} hr ht hlt hrn htn => ?_
    simp only [decide_eq_true_eq] at hrn htn
    exact hs.localId_lt hr ht (hrn.trans htn.symm) hlt
  · intro n
    simp only [List.mem_map, List.mem_filter, decide_eq_true_eq, List.mem_range, and_assoc]
    constructor
    · intro h
      obtain ⟨r, hr, rfl, rfl⟩ := h
      obtain ⟨-, properties, hp, -⟩ := hs.mem_records.mp hr
      exact (List.getElem?_eq_some_iff.mp hp).1
    · exact hs.exists_record hf

section Later
variable {s t : Store} {h k : History}

theorem Reflects.typeId?_append (hs : Reflects s h) (ht : Reflects t (h ++ k)) {name : String}
    {typeId : TypeId} (hn : s.typeId? name = some typeId) : t.typeId? name = some typeId :=
  (ht.types _ _).mpr (getElem?_eq_of_isPrefix (typeNames_append h k) ((hs.types _ _).mp hn))

theorem Reflects.find?_append (hs : Reflects s h) (ht : Reflects t (h ++ k)) {id : RecordId}
    {r : Record} (hr : s.find? id = some r) : t.find? id = some r := by
  rw [hs.records] at hr
  rw [ht.records]
  exact recordAt?_append hr k

theorem typeId?_of_register {name : String} (hf : Fits (h ++ .register name :: k)) :
    (ofActions (h ++ .register name :: k)).typeId? name =
      some ((ofActions h).register name).1 := by
  have hs := (reflects_ofActions hf.of_append).register hf.of_append name
  have ht := reflects_ofActions hf
  rw [List.append_cons] at ht
  rw [List.append_cons]
  exact hs.typeId?_append ht (typeId?_register _ _)

theorem find?_of_insert {name : String} {properties : List Property}
    (hf : Fits (h ++ .insert name properties :: k)) :
    let t := ofActions (h ++ .insert name properties :: k)
    let id := ((ofActions h).insert name properties).1
    t.typeId? name = some id.typeId ∧ id.localId.toNat = (insertedInto h name).length ∧
      t.find? id = some ⟨id, name, .ofList properties⟩ := by
  intro t id
  have hs := reflects_ofActions hf.of_append
  have hs' := hs.insert hf.of_append name properties
  obtain ⟨-, hid⟩ := hs.insert_id hf.of_append name properties
  have ht : Reflects t _ := reflects_ofActions hf
  rw [List.append_cons] at ht
  refine ⟨hs'.typeId?_append ht (typeId?_register _ _), ?_, hs'.find?_append ht ?_⟩
  · rw [show id = _ from hid]
    exact UInt64.toNat_ofNat_of_lt' (hf.of_append.records name)
  · rw [find?_insert, if_pos rfl]

theorem id_of_insert {name : String} {properties : List Property} {typeId : TypeId}
    (hf : Fits (h ++ .insert name properties :: k))
    (hn : (ofActions (h ++ .insert name properties :: k)).typeId? name = some typeId) :
    ((ofActions h).insert name properties).1 =
      ⟨typeId, .ofNat (insertedInto h name).length⟩ := by
  obtain ⟨htype, hlocal, -⟩ := find?_of_insert hf
  have h₁ := Option.some.inj (htype.symm.trans hn)
  have h₂ := UInt64.ofNat_toNat.symm.trans (congrArg UInt64.ofNat hlocal)
  exact congr (congrArg RecordId.mk h₁) h₂

end Later

/-- Actions for which there are ids enough are not refused. The names of types are numbered in the
order of their first mention and the records of a type in the order of their insertion; a record
sits under its own id with what it was given; and no number that is given is ever taken back. -/
theorem ofActions_numbering {h : History} (hf : Fits h) :
    let s := ofActions h
    tryActions h = .ok s ∧
    (∀ name typeId, s.typeId? name = some typeId ↔ (typeNames h)[typeId.toNat]? = some name) ∧
    s.types.size = (typeNames h).length ∧
    (∀ name, (s.records.toList.filter (·.typeName = name)).map (·.id.localId.toNat) =
      List.range (insertedInto h name).length) ∧
    (∀ id r, s.find? id = some r →
      r.id = id ∧ s.typeId? r.typeName = some id.typeId ∧
        ∃ properties, (insertedInto h r.typeName)[id.localId.toNat]? = some properties ∧
          r.Binds properties) ∧
    s.size = insertions h ∧
    (∀ before name after, h = before ++ .register name :: after →
      s.typeId? name = some ((ofActions before).register name).1) ∧
    (∀ before name properties after, h = before ++ .insert name properties :: after →
      let id := ((ofActions before).insert name properties).1
      s.typeId? name = some id.typeId ∧ id.localId.toNat = (insertedInto before name).length ∧
        ∃ r, s.find? id = some r ∧ r.id = id ∧ r.typeName = name ∧ r.Binds properties) ∧
    (∀ before after, h = before ++ after →
      (∀ name typeId, (ofActions before).typeId? name = some typeId →
        s.typeId? name = some typeId) ∧
      ∀ id r, (ofActions before).find? id = some r → s.find? id = some r) := by
  intro s
  have hs : Reflects s h := reflects_ofActions hf
  have hrun : tryActions h = .ok s := by rw [tryActions_eq, if_pos (Nat.le_of_lt hf.types)]
  refine ⟨hrun, hs.types, hs.types_size, hs.localIds hf, ?_, hs.size, ?_, ?_, ?_⟩
  · intro id r hr
    rw [hs.records] at hr
    obtain ⟨hid, hn, properties, hp, heq⟩ := recordAt?_eq_some_iff.mp hr
    exact ⟨hid, (hs.types _ _).mpr hn, properties, hp, Record.binds_of_eq heq⟩
  · intro before name after heq
    subst heq
    exact typeId?_of_register hf
  · intro before name properties after heq
    subst heq
    obtain ⟨htype, hlocal, hfind⟩ := find?_of_insert hf
    exact ⟨htype, hlocal, _, hfind, rfl, rfl, Record.binds_of_eq rfl⟩
  · intro before after heq
    subst heq
    have hb := reflects_ofActions hf.of_append
    exact ⟨fun _ _ hn => hb.typeId?_append hs hn, fun _ _ hr => hb.find?_append hs hr⟩

theorem numbering_interleaved :
    let h : History := [.insert "User" [("name", .text "Ann")], .insert "Issue" [],
      .register "Team", .insert "User" [("name", .text "Bob"), ("name", .text "Rob")]]
    let s := ofActions h
    Fits h ∧ tryActions h = .ok s ∧ s.size = 3 ∧ s.typeId? "Team" = some 2 ∧
      (s.records.toList.filter (·.typeName = "User")).map (·.id.localId.toNat) = [0, 1] ∧
      ∃ r, s.find? ⟨0, 1⟩ = some r ∧ r.typeName = "User" ∧
        r.property? "name" = some (.text "Rob") := by
  intro h s
  have hf : Fits h := .of_length_lt (by decide)
  obtain ⟨hrun, hn, -, hl, -, hs, -, hi, -⟩ := ofActions_numbering hf
  obtain ⟨-, -, r, hr, -, hrn, hrb⟩ := hi (h.take 3) "User" _ [] rfl
  refine ⟨hf, hrun, hs.trans (by decide), (hn _ _).mpr (by decide),
    (hl "User").trans (by decide), r, hr, hrn, ?_⟩
  exact (hrb.property?_eq_some_iff _ _).mpr ⟨[("name", .text "Bob")], [], rfl, by simp⟩

end RecordSearch.Store
