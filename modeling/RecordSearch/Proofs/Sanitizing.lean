import RecordSearch.Plan
import RecordSearch.Proofs.Calls
import RecordSearch.Proofs.Display
import RecordSearch.Proofs.Shape

set_option autoImplicit false

namespace RecordSearch
open Text
variable {ρ σ ε : Type}

/-- The value is the decimal text of an id, and the calls so far end with the fetch of its record
and, if there is such a record, with the selection of that one record. -/
def FollowsFetch (session : Session ρ σ ε) (type : RecordType) (before : List (Call ρ))
    (value : String) : Prop :=
  ∃ (n : LocalId) (earlier : List (Call ρ)), value = n.toNat.repr ∧
    (before = earlier ++ [.fetch ⟨type.id, n⟩] ∨
      ∃ r, (session earlier.length).fetch ⟨type.id, n⟩ = .ok (some r) ∧
        before = earlier ++ [.fetch ⟨type.id, n⟩, .select (.singleton r)])

def Call.Sanitized (session : Session ρ σ ε) (idField : String) (type : RecordType)
    (before : List (Call ρ)) : Call ρ → Prop
  | .fetch id => id.typeId = type.id
  | .select (.all typeName) => typeName = type.name
  | .select (.singleton _) => True
  | .select (.equals typeName field value) =>
      typeName = type.name ∧ IsFieldName field.toList ∧ Trimmed value.toList ∧
        (field = idField → FollowsFetch session type before value ∨
          ¬IsNumeric value.toList ∧ ¬IsBracketed value.toList)
  | .select (.startsWith typeName field start) =>
      typeName = type.name ∧ IsFieldName field.toList ∧ '~' ∉ field.toList ∧
        Trimmed start.toList ∧ '=' ∉ start.toList
  | .select (.idsWithin typeName low high) => typeName = type.name ∧ low ≤ high
  | .select (.valuesWithin typeName field low high) =>
      typeName = type.name ∧ IsFieldName field.toList ∧ field = idField ∧ low ≤ high

/-- Each call is allowed after those before it, the first of them after `past`. -/
def EachCall (allowed : List (Call ρ) → Call ρ → Prop) (past : List (Call ρ)) :
    List (Call ρ) → Prop
  | [] => True
  | c :: l => allowed past c ∧ EachCall allowed (past ++ [c]) l

section EachCall
variable {allowed : List (Call ρ) → Call ρ → Prop} {past l m : List (Call ρ)}

theorem eachCall_append :
    EachCall allowed past (l ++ m) ↔ EachCall allowed past l ∧ EachCall allowed (past ++ l) m := by
  induction l generalizing past with
  | nil => simp [EachCall]
  | cons c l ih => simp [EachCall, ih, and_assoc]

theorem EachCall.holds {before after : List (Call ρ)} {c : Call ρ}
    (h : EachCall allowed past (before ++ c :: after)) : allowed (past ++ before) c :=
  (eachCall_append.mp h).2.1

end EachCall

section Clauses
variable (session : Session ρ σ ε) (idField : String) (type : RecordType) (past : List (Call ρ))

theorem eachCall_lookUpCalls (n : LocalId) :
    EachCall (Call.Sanitized session idField type) past
      (lookUpCalls (session past.length).found ⟨type.id, n⟩) := by
  unfold lookUpCalls
  cases (session past.length).found ⟨type.id, n⟩ <;> simp [EachCall, Call.Sanitized]

theorem followsFetch_lookUpCalls (n : LocalId) :
    FollowsFetch session type (past ++ lookUpCalls (session past.length).found ⟨type.id, n⟩)
      n.toNat.repr := by
  refine ⟨n, past, rfl, ?_⟩
  unfold lookUpCalls
  cases hr : (session past.length).found ⟨type.id, n⟩ with
  | none => exact .inl rfl
  | some r => exact .inr ⟨r, Transaction.found_eq_some_iff.mp hr, rfl⟩

variable {session idField type past}

theorem Clause.Shaped.eachCall {c : Clause} (h : c.Shaped idField) :
    EachCall (Call.Sanitized session idField type) past
      (c.calls type (session past.length).found) := by
  cases c with
  | malformedId text => trivial
  | malformedClause text => trivial
  | idLookup n => exact eachCall_lookUpCalls session idField type past n
  | idEquals field n =>
    have ht : Trimmed n.toNat.repr.toList := by
      simpa using trimmed_of_isDigits (isDigits_toDigits n.toNat)
    have hf := followsFetch_lookUpCalls session type past n
    exact eachCall_append.mpr ⟨eachCall_lookUpCalls session idField type past n,
      ⟨rfl, h.2, ht, fun _ => .inl hf⟩, trivial⟩
  | idRange field low high =>
    obtain ⟨hi, hf, hle⟩ := h
    exact ⟨⟨rfl, hle⟩, ⟨rfl, hf, hi, hle⟩, trivial⟩
  | fieldEquals field value =>
    obtain ⟨hf, hv, hi⟩ := h
    exact ⟨⟨rfl, hf, hv, fun he => .inr (hi he).symm⟩, trivial⟩
  | fieldStartsWith field start => exact ⟨⟨rfl, h⟩, trivial⟩

theorem eachCall_callsFrom {cs : List Clause} (h : ∀ c ∈ cs, c.Shaped idField) :
    EachCall (Call.Sanitized session idField type) past
      (Clause.callsFrom session type past.length cs) := by
  induction cs generalizing past with
  | nil => trivial
  | cons c cs ih =>
    refine eachCall_append.mpr ⟨(h c List.mem_cons_self).eachCall, ?_⟩
    rw [← List.length_append]
    exact ih fun c' hc' => h c' (List.mem_cons_of_mem c hc')

theorem Query.eachCall_calls {q : Query} (h : ∀ c ∈ q.clauses, c.Shaped idField) :
    EachCall (Call.Sanitized session idField type) [] (q.calls session type) := by
  unfold Query.calls
  split
  · exact ⟨rfl, trivial⟩
  · exact eachCall_callsFrom h

end Clauses

/-- Whatever is searched for, in whatever dialect, and whatever a store answers or fails to
answer: each call that a search makes is sanitized. -/
theorem sanitized_of_mem_calls [ResultSet σ] (session : Session ρ σ ε) (d : Dialect)
    (expression : Option String) (type : RecordType) (before after : List (Call ρ)) (c : Call ρ)
    (hc : ((d.search expression type : Program ρ σ ε σ).run session 0).calls =
      before ++ c :: after) :
    c.Sanitized session d.idField type before := by
  obtain ⟨rest, hrest⟩ := (makes_search session d expression type).isPrefix
  have heach : EachCall (Call.Sanitized session d.idField type) []
      ((d.parse expression).calls session type) :=
    Query.eachCall_calls fun _ => Dialect.shaped_of_mem_parse
  rw [← hrest, hc, List.append_assoc] at heach
  exact heach.holds

theorem sanitized_of_mem_calls_seven :
    let session : Session RecordId Plan Plan.Outage := Plan.session [⟨1, 7⟩] (some 3)
    let before : List (Call RecordId) := [.fetch ⟨1, 7⟩, .select (.singleton ⟨1, 7⟩)]
    ((Dialect.standard.search (some " id = 007 and id=x and a=b") ⟨"User", 1⟩).run
        session 0).calls =
        before ++ .select (.equals "User" "id" "7") :: [.select (.equals "User" "id" "x")] ∧
      Call.Sanitized session "id" ⟨"User", 1⟩ before (.select (.equals "User" "id" "7")) := by
  intro session before
  have hc : ((Dialect.standard.search (some " id = 007 and id=x and a=b") ⟨"User", 1⟩).run
      session 0).calls =
        before ++ .select (.equals "User" "id" "7") :: [.select (.equals "User" "id" "x")] := by
    decide
  exact ⟨hc, sanitized_of_mem_calls session .standard _ ⟨"User", 1⟩ _ _ _ hc⟩

end RecordSearch
