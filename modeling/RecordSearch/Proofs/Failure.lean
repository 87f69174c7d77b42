import RecordSearch.Plan
import RecordSearch.Search

/-!
What a failing call does to a run. A program sees the failure and could go on; compiling and
searching do not, at none of their calls. So if a store answers the same search twice, and the call
with one index fails the second time, the second run makes the calls of the first up to that one
and no others, and gives the failure unchanged. A run that never gets to that call is the same run.
-/

set_option autoImplicit false

namespace RecordSearch
variable {ρ σ ε α β : Type}

/-- What the run `whole` becomes when its call with index `k` fails with `e`. -/
structure Run.CutAt (k : Nat) (e : ε) (whole cut : Run ρ ε α) : Prop where
  within : k < whole.calls.length →
    cut.calls = whole.calls.take (k + 1) ∧ cut.events <+: whole.events ∧ cut.result = .error e
  beyond : whole.calls.length ≤ k → cut = whole

namespace Run

def afterCall (c : Call ρ) (answer : Except ε β) (next : β → Run ρ ε α) : Run ρ ε α :=
  match answer with
  | .error e => ⟨[c], [], .error e⟩
  | .ok b => { next b with calls := c :: (next b).calls }

variable {k : Nat} {e : ε} {whole cut : Run ρ ε α}

theorem cutAt_of_length_le (h : whole.calls.length ≤ k) : whole.CutAt k e whole where
  within hk := absurd hk (Nat.not_lt.mpr h)
  beyond _ := rfl

theorem CutAt.note (h : whole.CutAt k e cut) (event : Event) :
    CutAt k e { whole with events := event :: whole.events }
      { cut with events := event :: cut.events } where
  within hk := by
    obtain ⟨hc, hv, hr⟩ := h.within hk
    exact ⟨hc, List.cons_prefix_cons.mpr ⟨rfl, hv⟩, hr⟩
  beyond hk := by rw [h.beyond hk]

/-- If the call that fails is the first, it is the only one; else the first call is answered as
before, and a later one fails, if there are so many. -/
theorem CutAt.afterCall {next next' : β → Run ρ ε α}
    (h : ∀ b j, k = j + 1 → (next b).CutAt j e (next' b)) (c : Call ρ) (answer : Except ε β) :
    (Run.afterCall c answer next).CutAt k e
      (Run.afterCall c (if k = 0 then .error e else answer) next') := by
  cases k with
  | zero =>
    constructor
    · intro _
      cases answer <;> simp [Run.afterCall]
    · intro hk
      cases answer <;> simp [Run.afterCall] at hk
  | succ j =>
    rw [if_neg (Nat.succ_ne_zero j)]
    cases answer with
    | error e' => exact cutAt_of_length_le (by simp [Run.afterCall])
    | ok b =>
      have hb := h b j rfl
      constructor
      · intro hk
        obtain ⟨hc, hv, hr⟩ := hb.within (Nat.lt_of_succ_lt_succ hk)
        exact ⟨by simp [Run.afterCall, hc], hv, hr⟩
      · intro hk
        simp only [Run.afterCall, hb.beyond (Nat.le_of_succ_le_succ hk)]

end Run

namespace Transaction
variable (t : Transaction ρ σ ε) (e : ε) (turn k : Nat)

theorem fetch_sessionFailingAt (id : RecordId) :
    (t.sessionFailingAt (turn + k) e turn).fetch id =
      if k = 0 then .error e else t.fetch id := by
  by_cases hk : k = 0 <;> simp [sessionFailingAt, failing, hk]

theorem select_sessionFailingAt (s : Selection ρ) :
    (t.sessionFailingAt (turn + k) e turn).select s =
      if k = 0 then .error e else t.select s := by
  by_cases hk : k = 0 <;> simp [sessionFailingAt, failing, hk]

end Transaction

namespace Program

/-- At each call of the program, a failure is its end, and is passed on unchanged. -/
inductive Stops : Program ρ σ ε α → Prop
  | done (result : Except ε α) : Stops (.done result)
  | note (event : Event) {next : Program ρ σ ε α} (h : Stops next) : Stops (.note event next)
  | fetch (id : RecordId) {next : Except ε (Option ρ) → Program ρ σ ε α}
      (hfail : ∀ e, next (.error e) = .done (.error e)) (h : ∀ r, Stops (next (.ok r))) :
      Stops (.fetch id next)
  | select (s : Selection ρ) {next : Except ε σ → Program ρ σ ε α}
      (hfail : ∀ e, next (.error e) = .done (.error e)) (h : ∀ set, Stops (next (.ok set))) :
      Stops (.select s next)

section Rules
variable {f : α → Program ρ σ ε β}

theorem stops_pure (a : α) : (pure a : Program ρ σ ε α).Stops := .done _

theorem stops_report (event : Event) : (report event : Program ρ σ ε Unit).Stops :=
  .note event (.done _)

theorem stops_fetchRecord (id : RecordId) : (fetchRecord id : Program ρ σ ε (Option ρ)).Stops :=
  .fetch id (fun _ => rfl) fun _ => .done _

theorem stops_selectRecords (s : Selection ρ) : (selectRecords s : Program ρ σ ε σ).Stops :=
  .select s (fun _ => rfl) fun _ => .done _

theorem Stops.bind {p : Program ρ σ ε α} (hp : p.Stops) (hf : ∀ a, (f a).Stops) :
    (p >>= f).Stops := by
  change (p.bind f).Stops
  induction hp with
  | done result =>
    cases result with
    | error e => exact .done _
    | ok a => exact hf a
  | note event h ih => exact .note event ih
  | fetch id hfail h ih =>
    refine .fetch id (fun e => ?_) ih
    rw [hfail]
    rfl
  | select s hfail h ih =>
    refine .select s (fun e => ?_) ih
    rw [hfail]
    rfl

theorem stops_mapM (hf : ∀ a, (f a).Stops) (l : List α) : (l.mapM f).Stops := by
  induction l with
  | nil => exact stops_pure []
  | cons a l ih =>
    rw [List.mapM_cons]
    exact (hf a).bind fun _ => ih.bind fun _ => stops_pure _

end Rules

section Runs
variable (session : Session ρ σ ε) (turn : Nat)

theorem run_fetch (id : RecordId) {next : Except ε (Option ρ) → Program ρ σ ε α}
    (hfail : ∀ e, next (.error e) = .done (.error e)) :
    (fetch id next).run session turn = Run.afterCall (.fetch id) ((session turn).fetch id)
      fun r => (next (.ok r)).run session (turn + 1) := by
  simp only [run, Run.afterCall]
  cases (session turn).fetch id with
  | error e => rw [hfail]; rfl
  | ok r => rfl

theorem run_select (s : Selection ρ) {next : Except ε σ → Program ρ σ ε α}
    (hfail : ∀ e, next (.error e) = .done (.error e)) :
    (select s next).run session turn = Run.afterCall (.select s) ((session turn).select s)
      fun set => (next (.ok set)).run session (turn + 1) := by
  simp only [run, Run.afterCall]
  cases (session turn).select s with
  | error e => rw [hfail]; rfl
  | ok set => rfl

end Runs

/-- The index counts from the first call of the program, which is the call `turn` of the
session. -/
theorem Stops.cutAt_run (t : Transaction ρ σ ε) (e : ε) {p : Program ρ σ ε α} (hp : p.Stops)
    (turn k : Nat) :
    (p.run t.session turn).CutAt k e (p.run (t.sessionFailingAt (turn + k) e) turn) := by
  induction hp generalizing turn k with
  | done result => exact Run.cutAt_of_length_le (Nat.zero_le k)
  | note event h ih => exact (ih turn k).note event
  | fetch id hfail h ih =>
    -- The call `k` of the program is the call `j` of what follows the first one.
    rw [run_fetch _ _ id hfail, run_fetch _ _ id hfail, Transaction.fetch_sessionFailingAt]
    refine Run.CutAt.afterCall (fun r j hj => ?_) _ _
    have hk : turn + k = turn + 1 + j := by omega
    rw [hk]
    exact ih r (turn + 1) j
  | select s hfail h ih =>
    rw [run_select _ _ s hfail, run_select _ _ s hfail, Transaction.select_sessionFailingAt]
    refine Run.CutAt.afterCall (fun set j hj => ?_) _ _
    have hk : turn + k = turn + 1 + j := by omega
    rw [hk]
    exact ih set (turn + 1) j

theorem Stops.cutAt_run_zero (t : Transaction ρ σ ε) (k : Nat) (e : ε) {p : Program ρ σ ε α}
    (hp : p.Stops) : (p.run t.session 0).CutAt k e (p.run (t.sessionFailingAt k e) 0) := by
  have h := hp.cutAt_run t e 0 k
  rwa [Nat.zero_add] at h

-- A program that takes a failure for an answer makes a call after it.
example : ((fetch ⟨0, 0⟩ fun _ => selectRecords (.all "User") :
    Program Record RecordSet String RecordSet).run (Transaction.failing "down").session 0).calls =
      [.fetch ⟨0, 0⟩, .select (.all "User")] := rfl

end Program

open Program

theorem Dialect.stops_read (d : Dialect) (expression : Option String) :
    (d.read expression : Program ρ σ ε Query).Stops := by
  refine (stops_mapM (fun part => ?_) _).bind fun _ => stops_pure _
  exact (stops_report _).bind fun _ => stops_pure _

variable [ResultSet σ]

theorem stops_lookUp (id : RecordId) : (lookUp id : Program ρ σ ε σ).Stops := by
  refine (stops_fetchRecord id).bind fun r? => ?_
  cases r? with
  | none => exact (stops_report _).bind fun _ => stops_pure _
  | some r => exact stops_selectRecords _

theorem Clause.stops_compile (type : RecordType) (c : Clause) :
    (c.compile type : Program ρ σ ε σ).Stops := by
  refine (stops_report _).bind fun _ => ?_
  cases c with
  | malformedId text => exact stops_pure _
  | malformedClause text => exact stops_pure _
  | idLookup id => exact stops_lookUp _
  | idEquals field id =>
    refine (stops_lookUp _).bind fun _ => ?_
    exact (stops_selectRecords _).bind fun _ => stops_pure _
  | idRange field low high =>
    refine (stops_selectRecords _).bind fun _ => ?_
    exact (stops_selectRecords _).bind fun _ => stops_pure _
  | fieldEquals field value => exact stops_selectRecords _
  | fieldStartsWith field start => exact stops_selectRecords _

theorem stops_foldlM (type : RecordType) (cs : List Clause) (set : σ) :
    (cs.foldlM (fun found c => return ResultSet.inter found (← c.compile type)) set :
      Program ρ σ ε σ).Stops := by
  induction cs generalizing set with
  | nil => exact stops_pure set
  | cons c cs ih =>
    rw [List.foldlM_cons]
    exact ((c.stops_compile type).bind fun _ => stops_pure _).bind ih

theorem Query.stops_compile (type : RecordType) (q : Query) :
    (q.compile type : Program ρ σ ε σ).Stops := by
  refine (stops_report _).bind fun _ => ?_
  obtain ⟨clauses⟩ := q
  cases clauses with
  | nil => exact stops_selectRecords _
  | cons c cs => exact (c.stops_compile type).bind fun set => stops_foldlM type cs set

theorem stops_search (expression : Option String) (type : RecordType) :
    (search expression type : Program ρ σ ε σ).Stops :=
  (Dialect.standard.stops_read expression).bind fun q => q.stops_compile type

theorem Dialect.stops_search (d : Dialect) (expression : Option String) (type : RecordType) :
    (d.search expression type : Program ρ σ ε σ).Stops :=
  (d.stops_read expression).bind fun q => (stops_report _).bind fun _ => q.stops_compile type

/-- Whatever a store answers, and whichever call it fails: a query that is compiled, and an
expression that is searched for in the standard dialect or in another, makes no call after the
failed one, the same calls before it, and ends with that failure; and it does not notice a
failure of a call that it does not make. -/
theorem cutAt_compile_and_search (t : Transaction ρ σ ε) (type : RecordType) (k : Nat) (e : ε) :
    (∀ q : Query, ((q.compile type).run t.session 0).CutAt k e
      ((q.compile type).run (t.sessionFailingAt k e) 0)) ∧
    (∀ expression, ((search expression type).run t.session 0).CutAt k e
      ((search expression type).run (t.sessionFailingAt k e) 0)) ∧
    ∀ (d : Dialect) expression, ((d.search expression type).run t.session 0).CutAt k e
      ((d.search expression type).run (t.sessionFailingAt k e) 0) :=
  ⟨fun q => (q.stops_compile type).cutAt_run_zero t k e,
    fun expression => (stops_search expression type).cutAt_run_zero t k e,
    fun d expression => (d.stops_search expression type).cutAt_run_zero t k e⟩

theorem cutAt_compile_and_search_two_clauses :
    let t := Plan.transaction [⟨1, 7⟩]
    let type : RecordType := ⟨"User", 1⟩
    let q : Query := ⟨[.idEquals "id" 7, .fieldStartsWith "name" "An"]⟩
    let expression := some "id=7 and name~An"
    let calls : List (Call RecordId) := [.fetch ⟨1, 7⟩, .select (.singleton ⟨1, 7⟩),
      .select (.equals "User" "id" "7"), .select (.startsWith "User" "name" "An")]
    let compiled := fun session => (q.compile type : Program _ Plan _ _).run session 0
    let searched := fun session => (search expression type : Program _ Plan _ _).run session 0
    let asked := fun session =>
      (Dialect.standard.search expression type : Program _ Plan _ _).run session 0
    ((compiled t.session).calls = calls ∧
      (compiled (t.sessionFailingAt 1 ⟨1⟩)).calls = calls.take 2 ∧
      (compiled (t.sessionFailingAt 1 ⟨1⟩)).result = .error ⟨1⟩ ∧
      compiled (t.sessionFailingAt 4 ⟨4⟩) = compiled t.session) ∧
    ((searched t.session).calls = calls ∧
      (searched (t.sessionFailingAt 2 ⟨2⟩)).calls = calls.take 3 ∧
      (searched (t.sessionFailingAt 2 ⟨2⟩)).result = .error ⟨2⟩) ∧
    (asked t.session).calls = calls ∧ (asked (t.sessionFailingAt 0 ⟨0⟩)).calls = calls.take 1 ∧
      (asked (t.sessionFailingAt 0 ⟨0⟩)).result = .error ⟨0⟩ := by
  intro t type q expression calls compiled searched asked
  have hc : (compiled t.session).calls = calls := rfl
  have hs : (searched t.session).calls = calls := by decide
  have ha : (asked t.session).calls = calls := by decide
  have h₁ := (cutAt_compile_and_search t type 1 ⟨1⟩).1 q
  have h₄ := (cutAt_compile_and_search t type 4 ⟨4⟩).1 q
  have h₂ := (cutAt_compile_and_search t type 2 ⟨2⟩).2.1 expression
  have h₀ := (cutAt_compile_and_search t type 0 ⟨0⟩).2.2 .standard expression
  obtain ⟨hc₁, -, hr₁⟩ := h₁.within (by decide)
  obtain ⟨hc₂, -, hr₂⟩ := h₂.within (hs ▸ by decide)
  obtain ⟨hc₀, -, hr₀⟩ := h₀.within (ha ▸ by decide)
  exact ⟨⟨hc, hc₁.trans (congrArg _ hc), hr₁, h₄.beyond (by decide)⟩,
    ⟨hs, hc₂.trans (congrArg _ hs), hr₂⟩, ha, hc₀.trans (congrArg _ ha), hr₀⟩

end RecordSearch
