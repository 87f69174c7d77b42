import RecordSearch.Plan
import RecordSearch.Proofs.Answer
import RecordSearch.Proofs.Calls

set_option autoImplicit false

namespace RecordSearch
variable {ρ σ ε : Type}

namespace Transaction

/-- A store that never fails: it has the records `found` and selects the sets `sets`. -/
def ofAnswers (found : RecordId → Option ρ) (sets : Selection ρ → σ) : Transaction ρ σ ε :=
  ⟨fun id => .ok (found id), fun s => .ok (sets s)⟩

theorem callsFrom_session (t : Transaction ρ σ ε) (type : RecordType) (turn : Nat)
    (cs : List Clause) :
    Clause.callsFrom t.session type turn cs = cs.flatMap (Clause.calls type t.found) := by
  induction cs generalizing turn with
  | nil => rfl
  | cons c cs ih =>
    rw [Clause.callsFrom, ih, List.flatMap_cons]
    rfl

end Transaction

variable [ResultSet σ]

section Sets
variable (type : RecordType) (found : RecordId → Option ρ) (sets : Selection ρ → σ)

def lookUpSet (id : RecordId) : σ :=
  match found id with
  | some r => sets (.singleton r)
  | none => ResultSet.empty

def Clause.set : Clause → σ
  | .malformedId _ | .malformedClause _ => ResultSet.empty
  | .idLookup id => lookUpSet found sets ⟨type.id, id⟩
  | .idEquals field id =>
      ResultSet.union (lookUpSet found sets ⟨type.id, id⟩)
        (sets (.equals type.name field id.toNat.repr))
  | .idRange field low high =>
      ResultSet.union (sets (.idsWithin type.name low high))
        (sets (.valuesWithin type.name field low high))
  | .fieldEquals field value => sets (.equals type.name field value)
  | .fieldStartsWith field start => sets (.startsWith type.name field start)

def Query.set : Query → σ
  | ⟨[]⟩ => sets (.all type.name)
  | ⟨c :: cs⟩ =>
      (cs.map (Clause.set type found sets)).foldl ResultSet.inter (c.set type found sets)

end Sets

section Answers
variable (type : RecordType) (found : RecordId → Option ρ) (sets : Selection ρ → σ)

theorem answer_lookUp (id : RecordId) :
    (lookUp id : Program ρ σ ε σ).answer (.ofAnswers found sets : Transaction ρ σ ε) =
      .ok (lookUpSet found sets id) := by
  have hf : (Transaction.ofAnswers found sets : Transaction ρ σ ε).fetch id = .ok (found id) := rfl
  simp only [lookUp, lookUpSet, Program.answer_bind, Program.answer_fetchRecord, hf]
  cases found id <;> rfl

theorem answer_compileClause (c : Clause) :
    (c.compile type : Program ρ σ ε σ).answer (.ofAnswers found sets : Transaction ρ σ ε) =
      .ok (c.set type found sets) := by
  cases c with
  | malformedId text => rfl
  | malformedClause text => rfl
  | idLookup id => exact answer_lookUp found sets _
  | idEquals field id =>
    simp only [Clause.compile, Program.answer_bind, Program.answer_report, answer_lookUp]
    rfl
  | idRange field low high => rfl
  | fieldEquals field value => rfl
  | fieldStartsWith field start => rfl

/-- Each further set is intersected from the right, whatever the sets so far have come to. -/
theorem answer_foldlM (cs : List Clause) (s : σ) :
    (cs.foldlM (fun s c => return ResultSet.inter s (← c.compile type)) s :
        Program ρ σ ε σ).answer (.ofAnswers found sets : Transaction ρ σ ε) =
      .ok ((cs.map (Clause.set type found sets)).foldl ResultSet.inter s) := by
  induction cs generalizing s with
  | nil => rfl
  | cons c cs ih =>
    rw [List.foldlM_cons, Program.answer_bind, Program.answer_bind, answer_compileClause]
    exact ih _

theorem answer_compile (q : Query) :
    (q.compile type : Program ρ σ ε σ).answer (.ofAnswers found sets : Transaction ρ σ ε) =
      .ok (q.set type found sets) := by
  obtain ⟨clauses⟩ := q
  cases clauses with
  | nil => rfl
  | cons c cs =>
    simp only [Query.compile, Program.answer_bind, Program.answer_report, answer_compileClause]
    exact answer_foldlM type found sets cs _

end Answers

/-- In a store that never fails, whatever records it has and whatever its sets are, a query without
clauses selects all records of the type, and any other query makes the calls of its clauses in
order and gives the sets of its clauses, intersected from the left. -/
theorem run_compile_ofAnswers (type : RecordType) (found : RecordId → Option ρ)
    (sets : Selection ρ → σ) :
    let run := fun cs : List Clause =>
      (Query.compile type ⟨cs⟩).run (.ofAnswers found sets : Transaction ρ σ ε).session 0
    ((run []).calls = [.select (.all type.name)] ∧
      (run []).result = .ok (sets (.all type.name))) ∧
    ∀ (c : Clause) (cs : List Clause),
      (run (c :: cs)).calls = (c :: cs).flatMap (Clause.calls type found) ∧
      (run (c :: cs)).result =
        .ok ((cs.map (Clause.set type found sets)).foldl ResultSet.inter
          (c.set type found sets)) := by
  intro run
  refine ⟨⟨rfl, rfl⟩, fun c cs => ?_⟩
  have hr : (run (c :: cs)).result = .ok _ :=
    (Program.result_run _ 0 _).trans (answer_compile type found sets ⟨c :: cs⟩)
  refine ⟨?_, hr⟩
  have hc := (makes_compile _ type ⟨c :: cs⟩).all _ hr
  exact hc.trans (Transaction.callsFrom_session _ type 0 (c :: cs))

example : (Query.compile ⟨"User", 1⟩ ⟨[.idEquals "id" 7, .malformedClause "~x", .idLookup 8]⟩ |>.run
    (Plan.transaction [⟨1, 7⟩]).session 0).result =
      .ok (.inter (.inter (.union (.leaf (.singleton ⟨1, 7⟩)) (.leaf (.equals "User" "id" "7")))
        .empty) .empty) := rfl

end RecordSearch
