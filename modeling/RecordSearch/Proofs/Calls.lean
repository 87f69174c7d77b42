import RecordSearch.Search

set_option autoImplicit false

namespace RecordSearch
variable {ρ σ ε α β : Type}

def Transaction.found (t : Transaction ρ σ ε) (id : RecordId) : Option ρ :=
  match t.fetch id with
  | .ok r => r
  | .error _ => none

theorem Transaction.found_eq_some_iff {t : Transaction ρ σ ε} {id : RecordId} {r : ρ} :
    t.found id = some r ↔ t.fetch id = .ok (some r) := by
  unfold found
  cases t.fetch id <;> simp

def lookUpCalls (found : RecordId → Option ρ) (id : RecordId) : List (Call ρ) :=
  .fetch id :: ((found id).map fun r => .select (.singleton r)).toList

def Clause.calls (type : RecordType) (found : RecordId → Option ρ) : Clause → List (Call ρ)
  | .malformedId _ | .malformedClause _ => []
  | .idLookup id => lookUpCalls found ⟨type.id, id⟩
  | .idEquals field id =>
      lookUpCalls found ⟨type.id, id⟩ ++ [.select (.equals type.name field id.toNat.repr)]
  | .idRange field low high =>
      [.select (.idsWithin type.name low high), .select (.valuesWithin type.name field low high)]
  | .fieldEquals field value => [.select (.equals type.name field value)]
  | .fieldStartsWith field start => [.select (.startsWith type.name field start)]

/-- The calls of the clauses in order; the first of them is the call `turn` of the session. -/
def Clause.callsFrom (session : Session ρ σ ε) (type : RecordType) (turn : Nat) :
    List Clause → List (Call ρ)
  | [] => []
  | c :: cs =>
      let own := c.calls type (session turn).found
      own ++ callsFrom session type (turn + own.length) cs

theorem Clause.all_notMem_callsFrom (session : Session ρ σ ε) (type : RecordType) (turn : Nat)
    (cs : List Clause) (name : String) :
    .select (.all name) ∉ Clause.callsFrom session type turn cs := by
  induction cs generalizing turn with
  | nil => exact List.not_mem_nil
  | cons c cs ih =>
    rw [Clause.callsFrom, List.mem_append, not_or]
    refine ⟨?_, ih _⟩
    cases c <;> simp [Clause.calls, lookUpCalls]

def Query.calls (session : Session ρ σ ε) (type : RecordType) (q : Query) : List (Call ρ) :=
  if q.clauses = [] then [.select (.all type.name)] else Clause.callsFrom session type 0 q.clauses

/-- The run makes these calls in order, all of them unless one fails. -/
structure Run.Makes (run : Run ρ ε α) (calls : List (Call ρ)) : Prop where
  isPrefix : run.calls <+: calls
  all : ∀ a, run.result = .ok a → run.calls = calls

section Rules
variable {session : Session ρ σ ε} {turn : Nat}

theorem makes_pure (a : α) : ((pure a : Program ρ σ ε α).run session turn).Makes [] :=
  ⟨List.prefix_rfl, fun _ _ => rfl⟩

theorem makes_report (event : Event) :
    ((Program.report event : Program ρ σ ε Unit).run session turn).Makes [] :=
  ⟨List.prefix_rfl, fun _ _ => rfl⟩

theorem run_fetchRecord (id : RecordId) :
    (Program.fetchRecord id : Program ρ σ ε (Option ρ)).run session turn =
      ⟨[.fetch id], [], (session turn).fetch id⟩ := rfl

theorem makes_fetchRecord (id : RecordId) :
    ((Program.fetchRecord id : Program ρ σ ε (Option ρ)).run session turn).Makes [.fetch id] := by
  rw [run_fetchRecord]
  exact ⟨List.prefix_rfl, fun _ _ => rfl⟩

theorem run_selectRecords (s : Selection ρ) :
    (Program.selectRecords s : Program ρ σ ε σ).run session turn =
      ⟨[.select s], [], (session turn).select s⟩ := rfl

theorem makes_selectRecords (s : Selection ρ) :
    ((Program.selectRecords s : Program ρ σ ε σ).run session turn).Makes [.select s] := by
  rw [run_selectRecords]
  exact ⟨List.prefix_rfl, fun _ _ => rfl⟩

theorem Run.Makes.bind {p : Program ρ σ ε α} {f : α → Program ρ σ ε β} {l m : List (Call ρ)}
    (hp : (p.run session turn).Makes l)
    (hf : ∀ a, (p.run session turn).result = .ok a →
      ((f a).run session (turn + l.length)).Makes m) :
    ((p >>= f).run session turn).Makes (l ++ m) := by
  rw [Program.run_bind]
  split
  · exact ⟨hp.isPrefix.trans (List.prefix_append l m), fun _ hb => nomatch hb⟩
  · next a ha =>
    have hm := hf a ha
    simp only [hp.all a ha]
    constructor
    · exact (List.prefix_append_right_inj l).mpr hm.isPrefix
    · intro b hb
      rw [hm.all b hb]

end Rules

variable [ResultSet σ]

theorem makes_lookUp (session : Session ρ σ ε) (turn : Nat) (id : RecordId) :
    ((lookUp id : Program ρ σ ε σ).run session turn).Makes
      (lookUpCalls (session turn).found id) := by
  refine (makes_fetchRecord id).bind fun r? hr? => ?_
  have hr? : (session turn).fetch id = .ok r? := by rwa [run_fetchRecord] at hr?
  have hfound : (session turn).found id = r? := by rw [Transaction.found, hr?]
  rw [hfound]
  cases r? with
  | none => exact (makes_report _).bind fun _ _ => makes_pure _
  | some r => exact makes_selectRecords _

theorem makes_compileClause (session : Session ρ σ ε) (turn : Nat) (type : RecordType)
    (c : Clause) : ((c.compile type : Program ρ σ ε σ).run session turn).Makes
      (c.calls type (session turn).found) := by
  refine (makes_report _).bind fun _ _ => ?_
  cases c with
  | malformedId text => exact makes_pure _
  | malformedClause text => exact makes_pure _
  | idLookup id => exact makes_lookUp _ _ _
  | idEquals field id =>
    refine (makes_lookUp _ _ _).bind fun _ _ => ?_
    exact (makes_selectRecords _).bind fun _ _ => makes_pure _
  | idRange field low high =>
    refine (makes_selectRecords _).bind fun _ _ => ?_
    exact (makes_selectRecords _).bind fun _ _ => makes_pure _
  | fieldEquals field value => exact makes_selectRecords _
  | fieldStartsWith field start => exact makes_selectRecords _

theorem makes_foldlM (session : Session ρ σ ε) (turn : Nat) (type : RecordType)
    (cs : List Clause) (set : σ) :
    ((cs.foldlM (fun found c => return ResultSet.inter found (← c.compile type)) set :
      Program ρ σ ε σ).run session turn).Makes (Clause.callsFrom session type turn cs) := by
  induction cs generalizing turn set with
  | nil => exact makes_pure set
  | cons c cs ih =>
    rw [List.foldlM_cons]
    have hc : ((do return ResultSet.inter set (← c.compile type) : Program ρ σ ε σ).run
        session turn).Makes (c.calls type (session turn).found ++ []) :=
      (makes_compileClause session turn type c).bind fun _ _ => makes_pure _
    rw [List.append_nil] at hc
    exact hc.bind fun found _ => ih _ found

theorem makes_compile (session : Session ρ σ ε) (type : RecordType) (q : Query) :
    ((q.compile type : Program ρ σ ε σ).run session 0).Makes (q.calls session type) := by
  refine (makes_report _).bind fun _ _ => ?_
  obtain ⟨clauses⟩ := q
  cases clauses with
  | nil => exact makes_selectRecords _
  | cons c cs =>
    exact (makes_compileClause session 0 type c).bind fun set _ => makes_foldlM _ _ type cs set

theorem makes_search (session : Session ρ σ ε) (d : Dialect) (expression : Option String)
    (type : RecordType) :
    ((d.search expression type : Program ρ σ ε σ).run session 0).Makes
      ((d.parse expression).calls session type) := by
  have h := makes_compile session type (d.parse expression)
  rw [Dialect.run_search]
  exact ⟨h.isPrefix, h.all⟩

end RecordSearch
