import Mathlib.Data.List.Induction
import RecordSearch.Store

/-!
Histories: the actions that a store has gone through, the oldest first. Which types a history
names, what it inserts into each and which record it makes under an id is read off the
actions, without a store.
-/

set_option autoImplicit false

namespace RecordSearch.Store

abbrev History := List Action

namespace Action

def typeName : Action → String
  | .register typeName => typeName
  | .insert typeName _ => typeName

def insertedInto? (name : String) : Action → Option (List Property)
  | .register _ => none
  | .insert typeName properties => if typeName = name then some properties else none

def isInsert : Action → Bool
  | .register _ => false
  | .insert .. => true

end Action

namespace History

/-- The names of the types, in the order in which they are first mentioned. -/
def typeNames (h : History) : List String := (h.map Action.typeName).eraseDups

def insertedInto (h : History) (name : String) : List (List Property) :=
  h.filterMap (Action.insertedInto? name)

def insertions (h : History) : Nat := h.countP Action.isInsert

/-- The history runs out of neither type ids nor local ids. -/
structure Fits (h : History) : Prop where
  types : (typeNames h).length < UInt32.size
  records : ∀ name, (insertedInto h name).length < UInt64.size

def countAt (h : History) (typeId : TypeId) : Nat :=
  match (typeNames h)[typeId.toNat]? with
  | none => 0
  | some name => (insertedInto h name).length

/-- The record made under an id: that of the type and the insertion which the id counts. -/
def recordAt? (h : History) (id : RecordId) : Option Record := do
  let name ← (typeNames h)[id.typeId.toNat]?
  let properties ← (insertedInto h name)[id.localId.toNat]?
  return ⟨id, name, .ofList properties⟩

theorem typeNames_append (h k : History) : typeNames h <+: typeNames (h ++ k) := by
  simp only [typeNames, List.map_append, List.eraseDups_append]
  exact List.prefix_append _ _

theorem typeNames_concat (h : History) (a : Action) :
    typeNames (h ++ [a]) =
      if a.typeName ∈ typeNames h then typeNames h else typeNames h ++ [a.typeName] := by
  have hm : a.typeName ∈ typeNames h ↔ a.typeName ∈ h.map Action.typeName := by
    simp only [typeNames, List.mem_eraseDups]
  simp only [hm]
  simp only [typeNames, List.map_append, List.map_cons, List.map_nil, List.eraseDups_append]
  by_cases ha : a.typeName ∈ h.map Action.typeName
  · simp only [List.removeAll, List.filter_cons, List.elem_eq_mem, ha, decide_true, ↓reduceIte,
      Bool.not_true, Bool.false_eq_true, List.filter_nil, List.eraseDups_nil, List.append_nil]
  · simp only [List.removeAll, List.filter_cons, List.elem_eq_mem, ha, decide_false, ↓reduceIte,
      Bool.not_false, List.filter_nil, List.eraseDups_cons, List.eraseDups_nil]

theorem mem_typeNames {h : History} {name : String} :
    name ∈ typeNames h ↔ ∃ a ∈ h, a.typeName = name := by
  simp [typeNames]

theorem nodup_typeNames (h : History) : (typeNames h).Nodup := by
  induction h using List.reverseRecOn with
  | nil => simp [typeNames]
  | append_singleton h a ih =>
    rw [typeNames_concat]
    split
    · exact ih
    · next ha =>
      rw [List.nodup_append]
      refine ⟨ih, by simp, ?_⟩
      intro b hb c hc heq
      subst heq
      exact ha (by simpa [List.mem_singleton.mp hc] using hb)

theorem typeNames_inj {h : History} {name : String} {i j : Nat}
    (hi : (typeNames h)[i]? = some name) (hj : (typeNames h)[j]? = some name) : i = j := by
  have hl := (List.getElem?_eq_some_iff.mp hi).1
  exact (List.getElem?_inj hl (nodup_typeNames h)).mp (hi.trans hj.symm)

theorem getElem?_eq_of_isPrefix {α : Type} {l m : List α} {i : Nat} {a : α} (hp : l <+: m)
    (hl : l[i]? = some a) : m[i]? = some a := by
  obtain ⟨hi, rfl⟩ := List.getElem?_eq_some_iff.mp hl
  exact List.prefix_iff_getElem?.mp hp i hi

theorem insertedInto_append (h k : History) (name : String) :
    insertedInto (h ++ k) name = insertedInto h name ++ insertedInto k name :=
  List.filterMap_append

theorem insertedInto_eq_nil {h : History} {name : String} (hn : name ∉ typeNames h) :
    insertedInto h name = [] := by
  rw [insertedInto, List.filterMap_eq_nil_iff]
  intro a ha
  cases a with
  | register _ => rfl
  | insert typeName properties =>
    have hne : typeName ≠ name := fun he => hn (mem_typeNames.mpr ⟨_, ha, he⟩)
    simp [Action.insertedInto?, hne]

theorem exists_insert_of_getElem? {h : History} {name : String} {i : Nat}
    {properties : List Property} (hi : (insertedInto h name)[i]? = some properties) :
    ∃ before after, h = before ++ .insert name properties :: after ∧
      (insertedInto before name).length = i := by
  induction h generalizing i with
  | nil => simp [insertedInto] at hi
  | cons a h ih =>
    cases ha : a.insertedInto? name with
    | none =>
      rw [insertedInto, List.filterMap_cons_none ha] at hi
      obtain ⟨before, after, rfl, hl⟩ := ih hi
      exact ⟨a :: before, after, rfl, by rwa [insertedInto, List.filterMap_cons_none ha]⟩
    | some given =>
      rw [insertedInto, List.filterMap_cons_some ha] at hi
      cases i with
      | zero =>
        obtain rfl : given = properties := by simpa using hi
        refine ⟨[], h, ?_, rfl⟩
        cases a with
        | register other => contradiction
        | insert other properties =>
          simp only [Action.insertedInto?, Option.ite_none_right_eq_some, Option.some.injEq] at ha
          rw [ha.1, ha.2]
          rfl
      | succ i =>
        obtain ⟨before, after, rfl, hl⟩ := ih hi
        refine ⟨a :: before, after, rfl, ?_⟩
        rw [insertedInto, List.filterMap_cons_some ha, List.length_cons, ← hl]
        rfl

theorem Fits.of_append {h k : History} (hf : Fits (h ++ k)) : Fits h := by
  constructor
  · exact Nat.lt_of_le_of_lt (typeNames_append h k).length_le hf.types
  · intro name
    have hl := hf.records name
    rw [insertedInto_append, List.length_append] at hl
    omega

theorem Fits.of_length_lt {h : History} (hl : h.length < UInt32.size) : Fits h := by
  constructor
  · have hs : (typeNames h).length ≤ (h.map Action.typeName).length :=
      (nodup_typeNames h).length_le_of_subset fun name hn => by simpa [typeNames] using hn
    rw [List.length_map] at hs
    omega
  · intro name
    have hs : (insertedInto h name).length ≤ h.length := List.length_filterMap_le _ _
    have hsize : UInt32.size < UInt64.size := by decide
    omega

theorem recordAt?_eq_some_iff {h : History} {id : RecordId} {r : Record} :
    recordAt? h id = some r ↔
      r.id = id ∧ (typeNames h)[id.typeId.toNat]? = some r.typeName ∧
        ∃ properties, (insertedInto h r.typeName)[id.localId.toNat]? = some properties ∧
          r.properties = .ofList properties := by
  obtain ⟨rid, name, properties⟩ := r
  simp only [recordAt?, Option.bind_eq_bind, Option.bind_eq_some_iff, Option.pure_def,
    Option.some.injEq, Record.mk.injEq]
  constructor
  · intro h
    obtain ⟨_, hn, given, hg, rfl, rfl, rfl⟩ := h
    exact ⟨rfl, hn, given, hg, rfl⟩
  · intro h
    obtain ⟨rfl, hn, given, hg, rfl⟩ := h
    exact ⟨name, hn, given, hg, rfl, rfl, rfl⟩

theorem recordAt?_eq_none {h : History} {typeId : TypeId} (hc : countAt h typeId < UInt64.size) :
    recordAt? h ⟨typeId, .ofNat (countAt h typeId)⟩ = none := by
  rw [recordAt?, UInt64.toNat_ofNat_of_lt' hc, countAt]
  cases (typeNames h)[typeId.toNat]? <;> simp

theorem recordAt?_append {h : History} {id : RecordId} {r : Record}
    (hr : recordAt? h id = some r) (k : History) : recordAt? (h ++ k) id = some r := by
  obtain ⟨hid, hn, properties, hg, hp⟩ := recordAt?_eq_some_iff.mp hr
  refine recordAt?_eq_some_iff.mpr ⟨hid, ?_, properties, ?_, hp⟩
  · exact getElem?_eq_of_isPrefix (typeNames_append h k) hn
  · rw [insertedInto_append]
    exact getElem?_eq_of_isPrefix (List.prefix_append _ _) hg

section Register
variable (h : History) (name : String)

theorem typeNames_register : typeNames (h ++ [.register name]) =
    if name ∈ typeNames h then typeNames h else typeNames h ++ [name] :=
  typeNames_concat h (.register name)

theorem insertedInto_register (other : String) :
    insertedInto (h ++ [.register name]) other = insertedInto h other := by
  simp [insertedInto, Action.insertedInto?]

theorem insertions_register : insertions (h ++ [.register name]) = insertions h := by
  simp [insertions, Action.isInsert]

/-- What stands at a position is old, or it is the new name, which has no records yet. -/
theorem getElem?_typeNames_register (i : Nat) :
    (typeNames (h ++ [.register name]))[i]? = (typeNames h)[i]? ∨
      (typeNames (h ++ [.register name]))[i]? = some name ∧ (typeNames h)[i]? = none ∧
        insertedInto h name = [] := by
  rw [typeNames_register]
  split
  · exact .inl rfl
  · next hn =>
    rcases Nat.lt_trichotomy i (typeNames h).length with hi | hi | hi
    · exact .inl (List.getElem?_append_left hi)
    · have hi' : (typeNames h)[i]? = none := List.getElem?_eq_none (Nat.le_of_eq hi.symm)
      exact .inr ⟨by simp [hi], hi', insertedInto_eq_nil hn⟩
    · refine .inl ?_
      have hl : (typeNames h ++ [name]).length ≤ i := by
        simp only [List.length_append, List.length_cons, List.length_nil]
        omega
      rw [List.getElem?_eq_none hl, List.getElem?_eq_none (Nat.le_of_lt hi)]

theorem countAt_register (typeId : TypeId) :
    countAt (h ++ [.register name]) typeId = countAt h typeId := by
  simp only [countAt, insertedInto_register]
  rcases getElem?_typeNames_register h name typeId.toNat with he | ⟨hn, ho, hi⟩
  · rw [he]
  · rw [hn, ho]
    simp [hi]

theorem recordAt?_register (id : RecordId) :
    recordAt? (h ++ [.register name]) id = recordAt? h id := by
  simp only [recordAt?, insertedInto_register]
  rcases getElem?_typeNames_register h name id.typeId.toNat with he | ⟨hn, ho, hi⟩
  · rw [he]
  · rw [hn, ho]
    simp [hi]

end Register

section Insert
variable {h : History} {name : String} {properties : List Property} {typeId : TypeId}

theorem typeNames_insert :
    typeNames (h ++ [.insert name properties]) = typeNames (h ++ [.register name]) := by
  rw [typeNames_concat, typeNames_concat]
  rfl

theorem insertions_insert : insertions (h ++ [.insert name properties]) = insertions h + 1 := by
  simp [insertions, Action.isInsert]

theorem insertedInto_insert (other : String) :
    insertedInto (h ++ [.insert name properties]) other =
      if name = other then insertedInto h other ++ [properties] else insertedInto h other := by
  by_cases hn : name = other <;> simp [insertedInto, Action.insertedInto?, hn]

theorem countAt_eq (ht : (typeNames (h ++ [.register name]))[typeId.toNat]? = some name) :
    countAt h typeId = (insertedInto h name).length := by
  rw [← countAt_register h name, countAt, ht]
  simp only [insertedInto_register]

theorem countAt_insert (ht : (typeNames (h ++ [.register name]))[typeId.toNat]? = some name)
    (other : TypeId) :
    countAt (h ++ [.insert name properties]) other =
      if other = typeId then countAt h other + 1 else countAt h other := by
  rw [← countAt_register h name, countAt, countAt, typeNames_insert]
  by_cases ho : other = typeId
  · subst ho
    simp [ht, insertedInto_insert, insertedInto_register]
  · cases hm : (typeNames (h ++ [.register name]))[other.toNat]? with
    | none => simp [ho]
    | some m =>
      have hne : name ≠ m := by
        intro heq
        subst heq
        exact ho (UInt32.toNat_inj.mp (typeNames_inj hm ht))
      simp [ho, insertedInto_insert, insertedInto_register, hne]

/-- An insertion makes the record whose local id counts those before it, and no other. -/
theorem recordAt?_insert (ht : (typeNames (h ++ [.register name]))[typeId.toNat]? = some name)
    (hc : countAt h typeId < UInt64.size) (id : RecordId) :
    recordAt? (h ++ [.insert name properties]) id =
      if id = ⟨typeId, .ofNat (countAt h typeId)⟩ then some ⟨id, name, .ofList properties⟩
      else recordAt? h id := by
  have hl := countAt_eq ht
  rw [← recordAt?_register h name, recordAt?, recordAt?, typeNames_insert]
  obtain ⟨other, localId⟩ := id
  by_cases ho : other = typeId
  · subst ho
    have hid : localId = .ofNat (countAt h other) ↔
        localId.toNat = (insertedInto h name).length := by
      rw [← UInt64.toNat_inj, UInt64.toNat_ofNat_of_lt' hc, hl]
    simp only [ht, insertedInto_insert, insertedInto_register, ↓reduceIte, Option.bind_eq_bind,
      Option.bind_some, RecordId.mk.injEq, true_and, hid]
    rcases Nat.lt_trichotomy localId.toNat (insertedInto h name).length with hi | hi | hi
    · rw [List.getElem?_append_left hi, if_neg (Nat.ne_of_lt hi)]
    · simp [hi]
    · have hl' : (insertedInto h name ++ [properties]).length ≤ localId.toNat := by
        simp only [List.length_append, List.length_cons, List.length_nil]
        omega
      rw [if_neg (Nat.ne_of_gt hi), List.getElem?_eq_none hl',
        List.getElem?_eq_none (Nat.le_of_lt hi)]
  · have hid : RecordId.mk other localId ≠ ⟨typeId, .ofNat (countAt h typeId)⟩ := by simp [ho]
    rw [if_neg hid]
    cases hm : (typeNames (h ++ [.register name]))[other.toNat]? with
    | none => rfl
    | some m =>
      have hne : name ≠ m := by
        intro heq
        subst heq
        exact ho (UInt32.toNat_inj.mp (typeNames_inj hm ht))
      simp [insertedInto_insert, insertedInto_register, hne]

end Insert

end History
end RecordSearch.Store
