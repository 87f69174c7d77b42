import RecordSearch.Compile
import RecordSearch.Plan.Evaluation
import RecordSearch.SortedBy.Lookup

/-!
Plans stand for results. A query can be compiled against a store, or against no more than the ids
of its records, where every selection is written down as a plan. The two runs go side by side:
they make the same calls, and the plan, once it is carried out on the store, is the set that the
store gives. Each step of compiling keeps this so, since none looks into the set it is given.
-/

set_option autoImplicit false

namespace RecordSearch
variable {α β γ δ : Type}

def Selection.byId : Selection Record → Selection RecordId
  | .all typeName => .all typeName
  | .singleton record => .singleton record.id
  | .equals typeName field value => .equals typeName field value
  | .startsWith typeName field start => .startsWith typeName field start
  | .idsWithin typeName low high => .idsWithin typeName low high
  | .valuesWithin typeName field low high => .valuesWithin typeName field low high

def Call.byId : Call Record → Call RecordId
  | .fetch id => .fetch id
  | .select selection => .select selection.byId

theorem Program.run_bind_of_ok {ρ σ ε : Type} {session : Session ρ σ ε} {turn : Nat}
    {p : Program ρ σ ε α} {a : α} (h : (p.run session turn).result = .ok a)
    (f : α → Program ρ σ ε β) :
    (p >>= f).run session turn =
      let rest := (f a).run session (turn + (p.run session turn).calls.length)
      ⟨(p.run session turn).calls ++ rest.calls, (p.run session turn).events ++ rest.events,
        rest.result⟩ := by
  rw [run_bind, h]

/-- Both runs end well, with related values, after the same calls and events. -/
structure Run.Mirrors {ε ε' : Type} (R : α → β → Prop) (planned : Run RecordId ε α)
    (made : Run Record ε' β) : Prop where
  calls : planned.calls = made.calls.map Call.byId
  events : planned.events = made.events
  result : ∃ a b, planned.result = .ok a ∧ made.result = .ok b ∧ R a b

/-- The program `q` goes on the store as `p` does on the ids of its records. -/
def Store.Plans (s : Store) (R : α → β → Prop) (p : Program RecordId Plan Plan.Outage α)
    (q : Program Record RecordSet Empty β) : Prop :=
  ∀ turn turn', Run.Mirrors R (p.run (Plan.session s.records.keys none) turn)
    (q.run s.transaction.session turn')

def Plan.Gives (s : Store) (plan : Plan) (set : RecordSet) : Prop := plan.evaluate s = set

namespace Store
variable {s : Store} {R : α → β → Prop} {R' : γ → δ → Prop}

theorem plans_pure {a : α} {b : β} (h : R a b) : s.Plans R (pure a) (pure b) :=
  fun _ _ => ⟨rfl, rfl, a, b, rfl, rfl, h⟩

theorem Plans.bind {p : Program RecordId Plan Plan.Outage α} {q : Program Record RecordSet Empty β}
    {f : α → Program RecordId Plan Plan.Outage γ} {g : β → Program Record RecordSet Empty δ}
    (h : s.Plans R p q) (hf : ∀ a b, R a b → s.Plans R' (f a) (g b)) :
    s.Plans R' (p >>= f) (q >>= g) := by
  intro turn turn'
  obtain ⟨hc, hv, a, b, ha, hb, hab⟩ := h turn turn'
  rw [Program.run_bind_of_ok ha, Program.run_bind_of_ok hb]
  obtain ⟨hc', hv', hr'⟩ := hf a b hab _ _
  refine ⟨?_, ?_, hr'⟩
  · rw [List.map_append, ← hc, ← hc']
  · simp only [hv, hv']

theorem plans_report (event : Event) :
    s.Plans (fun _ _ => True) (Program.report event) (Program.report event) :=
  fun _ _ => ⟨rfl, rfl, (), (), rfl, rfl, trivial⟩

/-- Fetching finds the id of a record where it finds the record on the store. -/
theorem plans_fetchRecord (id : RecordId) :
    s.Plans (fun id? r? => id? = r?.map Record.id ∧ ∀ r ∈ r?, s.find? r.id = some r)
      (Program.fetchRecord id) (Program.fetchRecord id) := by
  have hid : (if id ∈ s.records.keys then some id else none) = (s.find? id).map Record.id := by
    have hk : id ∈ s.records.keys ↔ (s.find? id).isSome := SortedBy.contains_iff.symm
    cases hr : s.find? id with
    | none => simp [hk, hr]
    | some r => simp [hk, hr, (SortedBy.find?_eq_some_iff.mp hr).2]
  have hr : ∀ r ∈ s.find? id, s.find? r.id = some r := by
    intro r hr
    rw [(SortedBy.find?_eq_some_iff.mp hr).2]
    exact hr
  intro turn turn'
  exact ⟨rfl, rfl, _, _, rfl, rfl, hid, hr⟩

theorem plans_selectRecords (selection : Selection Record)
    (h : s.selectById selection.byId = s.select selection) :
    s.Plans (Plan.Gives s) (Program.selectRecords selection.byId)
      (Program.selectRecords selection) :=
  fun _ _ => ⟨rfl, rfl, _, _, rfl, rfl, h⟩

theorem plans_lookUp (id : RecordId) : s.Plans (Plan.Gives s) (lookUp id) (lookUp id) := by
  refine (plans_fetchRecord id).bind fun id? r? h => ?_
  obtain ⟨rfl, hr⟩ := h
  cases r? with
  | none => exact (plans_report _).bind fun _ _ _ => plans_pure rfl
  | some r =>
    refine plans_selectRecords (.singleton r) ?_
    rw [Selection.byId, selectById, hr r rfl]
    rfl

theorem Plans.union {a b : Program RecordId Plan Plan.Outage Plan}
    {x y : Program Record RecordSet Empty RecordSet} (ha : s.Plans (Plan.Gives s) a x)
    (hb : s.Plans (Plan.Gives s) b y) :
    s.Plans (Plan.Gives s)
      (do
        let p ← a
        let q ← b
        return ResultSet.union p q)
      (do
        let p ← x
        let q ← y
        return ResultSet.union p q) := by
  refine ha.bind fun p set hp => hb.bind fun q set' hq => plans_pure ?_
  rw [Plan.Gives] at hp hq ⊢
  rw [← hp, ← hq]
  rfl

theorem plans_compileClause (type : RecordType) (c : Clause) :
    s.Plans (Plan.Gives s) (c.compile type) (c.compile type) := by
  refine (plans_report _).bind fun _ _ _ => ?_
  cases c with
  | malformedId text => exact plans_pure rfl
  | malformedClause text => exact plans_pure rfl
  | idLookup id => exact plans_lookUp _
  | idEquals field id =>
    exact (plans_lookUp _).union (plans_selectRecords (.equals ..) rfl)
  | idRange field low high =>
    exact (plans_selectRecords (.idsWithin ..) rfl).union
      (plans_selectRecords (.valuesWithin ..) rfl)
  | fieldEquals field value => exact plans_selectRecords (.equals ..) rfl
  | fieldStartsWith field start => exact plans_selectRecords (.startsWith ..) rfl

theorem plans_foldlM (type : RecordType) (cs : List Clause) {plan : Plan} {set : RecordSet}
    (h : plan.Gives s set) :
    s.Plans (Plan.Gives s)
      (cs.foldlM (fun found c => return ResultSet.inter found (← c.compile type)) plan)
      (cs.foldlM (fun found c => return ResultSet.inter found (← c.compile type)) set) := by
  induction cs generalizing plan set with
  | nil => exact plans_pure h
  | cons c cs ih =>
    rw [List.foldlM_cons, List.foldlM_cons]
    have hc : s.Plans (Plan.Gives s)
        (do return ResultSet.inter plan (← c.compile type))
        (do return ResultSet.inter set (← c.compile type)) := by
      refine (plans_compileClause type c).bind fun p found hp => plans_pure ?_
      rw [Plan.Gives] at h hp ⊢
      rw [← h, ← hp]
      rfl
    exact hc.bind fun p found hp => ih hp

theorem plans_compile (type : RecordType) (q : Query) :
    s.Plans (Plan.Gives s) (q.compile type) (q.compile type) := by
  refine (plans_report _).bind fun _ _ _ => ?_
  obtain ⟨clauses⟩ := q
  cases clauses with
  | nil => exact plans_selectRecords (.all ..) rfl
  | cons c cs =>
    exact (plans_compileClause type c).bind fun plan set h => plans_foldlM type cs h

/-- A query compiled against the ids of a store's records makes the calls and reports the events
of the query run on the store, and its plan, carried out on the store, is the set found there. -/
theorem evaluate_compile (s : Store) (type : RecordType) (q : Query) :
    let planned : Run RecordId Plan.Outage Plan :=
      (q.compile type).run (Plan.session s.records.keys none) 0
    let made := s.run (q.compile type)
    planned.calls = made.calls.map Call.byId ∧ planned.events = made.events ∧
      ∃ plan, planned.result = .ok plan ∧ made.result = .ok (plan.evaluate s) := by
  obtain ⟨hc, hv, plan, set, hp, hs, hg⟩ := plans_compile (s := s) type q 0 0
  rw [Plan.Gives] at hg
  exact ⟨hc, hv, plan, hp, hg ▸ hs⟩

end Store
end RecordSearch
