import RecordSearch.Proofs.Compilation
import RecordSearch.Proofs.Conjunction
import RecordSearch.Proofs.Display

set_option autoImplicit false

namespace RecordSearch
open Text Store History

section Reading
variable {d : Dialect} {u t v : List Char}

theorem Dialect.parse_of_isDigits (hd : d.Accepted) (ht : isDigits t)
    (hk : t ≠ d.conjunction.toList) (hu : AllBlank u) (hv : AllBlank v) {expression : String}
    (he : expression.toList = u ++ t ++ v) :
    d.parse (some expression) = ⟨[Clause.ofBare t]⟩ := by
  have htrim : trim expression.toList = t := by
    rw [he, trim_append_blank hv, trim_blank_append hu]
    exact trim_eq_self_iff.mpr (Clause.trimmed_of_isDigits ht)
  have hw : d.conjunction.toList ∉ words expression.toList := by
    rw [he, words_append_blank hv, words_blank_append hu,
      mem_words_word (Clause.isWord_of_isDigits ht)]
    exact Ne.symm hk
  have hs : t.any Operator.isSymbol = false := Clause.any_isSymbol_eq_false.mpr
    ⟨Clause.notMem_of_isDigits ht (by decide), Clause.notMem_of_isDigits ht (by decide)⟩
  have hc : Clause.ofText d.idField (String.ofList t) = Clause.ofBare t := by
    rw [← htrim, Clause.ofText_trim, Clause.ofText, htrim, Clause.ofTrimmed, hs]
    rfl
  rw [parse_of_not_blank hd (htrim ▸ (isDigits_iff.mp ht).1), splitAtWord_of_notMem hw, htrim,
    List.map_singleton, hc]

theorem Clause.set_ofBare (type : RecordType) (s : Store) (t : List Char) :
    (ofBare t).set type s.find? s.select =
      ((LocalId.ofText? t).bind fun n => s.find? ⟨type.id, n⟩).elim .empty .singleton := by
  unfold ofBare
  cases LocalId.ofText? t with
  | none => rfl
  | some n =>
    simp only [Clause.set, lookUpSet, Option.bind_some]
    cases s.find? ⟨type.id, n⟩ <;> rfl

theorem Store.result_search_of_isDigits (s : Store) (hd : d.Accepted) (ht : isDigits t)
    (hk : t ≠ d.conjunction.toList) (hu : AllBlank u) (hv : AllBlank v) {expression : String}
    (he : expression.toList = u ++ t ++ v) (type : RecordType) :
    (s.run (d.search (some expression) type)).result =
      .ok (((LocalId.ofText? t).bind fun n => s.find? ⟨type.id, n⟩).elim .empty .singleton) := by
  rw [Store.run, Program.result_run, d.answer_search,
    Dialect.parse_of_isDigits hd ht hk hu hv he, ← Clause.set_ofBare]
  exact answer_compile type s.find? s.select ⟨[Clause.ofBare t]⟩

end Reading

namespace Store
variable {h : History} {name : String} {typeId : TypeId} {n : Nat}

theorem exists_find?_of_lt (hf : Fits h) (ht : (ofActions h).typeId? name = some typeId)
    (hn : n < (insertedInto h name).length) :
    ∃ before properties after, h = before ++ .insert name properties :: after ∧
      (insertedInto before name).length = n ∧
      ∃ r, (ofActions h).find? ⟨typeId, .ofNat n⟩ = some r ∧
        r.id = ((ofActions before).insert name properties).1 ∧ r.typeName = name ∧
        r.Binds properties := by
  obtain ⟨before, after, heq, hl⟩ :=
    exists_insert_of_getElem? (List.getElem?_eq_getElem hn)
  generalize (insertedInto h name)[n] = properties at heq
  subst heq
  obtain ⟨-, -, hfind⟩ := find?_of_insert hf
  have hid := id_of_insert hf ht
  rw [hl] at hid
  rw [hid] at hfind
  exact ⟨before, properties, after, rfl, hl, _, hfind, hid.symm, rfl, Record.binds_of_eq rfl⟩

theorem find?_eq_none_of_le (hf : Fits h) (ht : (ofActions h).typeId? name = some typeId)
    {localId : LocalId} (hn : (insertedInto h name).length ≤ localId.toNat) :
    (ofActions h).find? ⟨typeId, localId⟩ = none := by
  have hs := reflects_ofActions hf
  have hname := (hs.types _ _).mp ht
  rw [hs.records, recordAt?]
  simp only [hname, Option.bind_eq_bind, Option.bind_some, List.getElem?_eq_none hn,
    Option.bind_none]

/-- A numeral that is not the conjunction, with any blanks around it, finds the one record that was
inserted into the type after as many others as the numeral says; if the type was not given so many,
it finds nothing, and so it does if no id has that value. -/
theorem result_search_numeral (hf : Fits h) {type : RecordType}
    (ht : (ofActions h).typeId? type.name = some type.id) {d : Dialect} (hd : d.Accepted)
    {u t v : List Char} (hn : IsNumeral t n) (hk : t ≠ d.conjunction.toList) (hu : AllBlank u)
    (hv : AllBlank v) {expression : String} (he : expression.toList = u ++ t ++ v) :
    let result := ((ofActions h).run (d.search (some expression) type)).result
    (n < (insertedInto h type.name).length →
      ∃ before properties after, h = before ++ .insert type.name properties :: after ∧
        (insertedInto before type.name).length = n ∧
        ∃ set r, result = .ok set ∧ set.toList = [r] ∧
          r.id = ((ofActions before).insert type.name properties).1 ∧ r.typeName = type.name ∧
          r.Binds properties) ∧
    ((insertedInto h type.name).length ≤ n → ∃ set, result = .ok set ∧ set.toList = []) := by
  intro result
  have hdigits := (isNumeral_iff.mp hn).1
  have hr : result = _ := (ofActions h).result_search_of_isDigits hd hdigits hk hu hv he type
  rw [hr]
  constructor
  · intro hlt
    obtain ⟨before, properties, after, heq, hl, r, hfind, hr⟩ := exists_find?_of_lt hf ht hlt
    refine ⟨before, properties, after, heq, hl, .singleton r, r, ?_, rfl, hr⟩
    have hid : LocalId.ofText? t = some (.ofNat n) := by
      have hsize : n < UInt64.size := Nat.lt_trans hlt (hf.records type.name)
      rwa [LocalId.ofText?_eq_some_iff, UInt64.toNat_ofNat_of_lt' hsize]
    rw [hid, Option.bind_some, hfind]
    rfl
  · intro hle
    refine ⟨.empty, ?_, rfl⟩
    cases hid : LocalId.ofText? t with
    | none => rfl
    | some localId =>
      have hvalue : localId.toNat = n :=
        (LocalId.ofText?_eq_some_iff.mp hid).value_eq.symm.trans hn.value_eq
      rw [Option.bind_some, find?_eq_none_of_le hf ht (hvalue ▸ hle)]
      rfl

theorem result_search_numeral_second_user :
    let ann : Action := .insert "User" [("name", .text "Ann")]
    let bob : List Property := [("name", .text "Bob"), ("id", .text "0")]
    let h : History := [.insert "Team" [("id", .text "1")], ann, .insert "Team" [],
      .insert "User" bob]
    let d : Dialect := ⟨"1", "id"⟩
    let type : RecordType := ⟨"User", 1⟩
    let result := fun e => ((ofActions h).run (d.search (some e) type)).result
    Fits h ∧ d.Accepted ∧ (ofActions h).typeId? "User" = some 1 ∧
      (∃ set r, result "\u300001\n" = .ok set ∧ set.toList = [r] ∧ r.id = ⟨1, 1⟩ ∧
        r.typeName = "User" ∧ r.property? "name" = some (.text "Bob")) ∧
      ∃ set, result "18446744073709551616" = .ok set ∧ set.toList = [] := by
  intro ann bob h d type result
  have hf : Fits h := .of_length_lt (by decide)
  have hd : d.Accepted := by decide
  have ht : (ofActions h).typeId? type.name = some type.id := by decide
  have hone : IsNumeral "01".toList 1 := isNumeral_iff.mpr ⟨by decide, by decide⟩
  have hmany : IsNumeral "18446744073709551616".toList UInt64.size :=
    isNumeral_iff.mpr ⟨by decide, by decide⟩
  have ha : AllBlank ['\u3000'] := by decide
  have hb : AllBlank ['\n'] := by decide
  have he : "\u300001\n".toList = ['\u3000'] ++ "01".toList ++ ['\n'] := by decide
  have hn : AllBlank [] := by decide
  obtain ⟨hfound, -⟩ := result_search_numeral hf ht hd hone (by decide) ha hb he
  obtain ⟨-, hnone⟩ := result_search_numeral hf ht hd hmany (by decide) hn hn
    (List.append_nil _).symm
  refine ⟨hf, hd, ht, ?_, hnone (by decide)⟩
  obtain ⟨before, properties, after, hh, hl, set, r, hset, hlist, hid, hname, hbinds⟩ :=
    hfound (by decide)
  have hp : (insertedInto h "User")[1]? = some properties := by
    rw [hh, insertedInto_append, List.getElem?_append_right hl.le, hl]
    rfl
  obtain rfl : bob = properties := Option.some.inj hp
  rw [hh] at hf ht
  rw [id_of_insert hf ht, hl] at hid
  refine ⟨set, r, hset, hlist, hid, hname, (hbinds.property?_eq_some_iff _ _).mpr ?_⟩
  exact ⟨[], [("id", .text "0")], rfl, by simp [Property.name]⟩

end Store
end RecordSearch
