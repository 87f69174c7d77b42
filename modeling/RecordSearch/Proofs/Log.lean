import RecordSearch.Proofs.Conjunction
import RecordSearch.Proofs.Outcome
import RecordSearch.Store.Transaction

set_option autoImplicit false

namespace RecordSearch
open Text
variable {ρ σ ε α β : Type}

/-- The program comes to its end, and tells these events on the way. -/
structure Program.Tells (t : Transaction ρ σ ε) (p : Program ρ σ ε α) (events : List Event) :
    Prop where
  ends : ∃ a, p.answer t = .ok a
  events_run : ∀ turn, (p.run t.session turn).events = events

section Rules
variable {t : Transaction ρ σ ε}

theorem tells_pure (a : α) : (pure a : Program ρ σ ε α).Tells t [] := ⟨⟨a, rfl⟩, fun _ => rfl⟩

theorem tells_report (event : Event) :
    (Program.report event : Program ρ σ ε Unit).Tells t [event] := ⟨⟨(), rfl⟩, fun _ => rfl⟩

theorem Program.Tells.bind {p : Program ρ σ ε α} {f : α → Program ρ σ ε β} {l m : List Event}
    (hp : p.Tells t l) (hf : ∀ a, p.answer t = .ok a → (f a).Tells t m) :
    (p >>= f).Tells t (l ++ m) := by
  obtain ⟨a, ha⟩ := hp.ends
  obtain ⟨b, hb⟩ := (hf a ha).ends
  refine ⟨⟨b, ?_⟩, fun turn => ?_⟩
  · rw [answer_bind, ha]
    exact hb
  · have hr : (p.run t.session turn).result = .ok a := (result_run t turn p).trans ha
    simp only [run_bind, hr, hp.events_run, (hf a ha).events_run]

end Rules

def Clause.sought? (type : RecordType) : Clause → Option RecordId
  | .idLookup n | .idEquals _ n => some ⟨type.id, n⟩
  | _ => none

theorem Clause.sought?_eq_some_iff {type : RecordType} {c : Clause} {id : RecordId} :
    c.sought? type = some id ↔
      ∃ n, id = ⟨type.id, n⟩ ∧ (c = .idLookup n ∨ ∃ field, c = .idEquals field n) := by
  cases c <;> simp [sought?, eq_comm]

def missed (found : RecordId → Option ρ) (id? : Option RecordId) : List Event :=
  (id?.filter fun id => (found id).isNone).toList.map .noRecord

def Clause.events (type : RecordType) (found : RecordId → Option ρ) (c : Clause) : List Event :=
  .compilingClause c :: missed found (c.sought? type)

section Calls
variable (found : RecordId → Option ρ) (sets : Selection ρ → σ)

theorem tells_selectRecords (s : Selection ρ) :
    (Program.selectRecords s : Program ρ σ ε σ).Tells
      (.ofAnswers found sets : Transaction ρ σ ε) [] :=
  ⟨⟨_, Program.answer_selectRecords _ s⟩, fun _ => congrArg Run.events (run_selectRecords s)⟩

theorem tells_fetchRecord (id : RecordId) :
    (Program.fetchRecord id : Program ρ σ ε (Option ρ)).Tells
      (.ofAnswers found sets : Transaction ρ σ ε) [] :=
  ⟨⟨_, Program.answer_fetchRecord _ id⟩, fun _ => congrArg Run.events (run_fetchRecord id)⟩

end Calls

namespace Dialect
variable {t : Transaction ρ σ ε}

theorem trimmed_of_mem_conjuncts {d : Dialect} {expression : Option String} {part : String}
    (hp : part ∈ d.conjuncts expression) : Trimmed part.toList := by
  unfold conjuncts at hp
  split at hp
  · simp at hp
  · simp only [splitAtWord, List.map_map, List.mem_map] at hp
    obtain ⟨run, -, rfl⟩ := hp
    simp [trimmed_trim]

/-- What is told of reading an expression: each conjunct, and the kind of its clause. -/
def classified (d : Dialect) (expression : Option String) : List Event :=
  (d.conjuncts expression).map fun part => .classified part (Clause.ofText d.idField part).kind

theorem answer_read (d : Dialect) (expression : Option String) :
    (d.read expression : Program ρ σ ε Query).answer t = .ok (d.parse expression) := by
  rw [← Program.result_run t 0, run_read]

theorem tells_read (d : Dialect) (expression : Option String) :
    (d.read expression : Program ρ σ ε Query).Tells t (d.classified expression) := by
  refine ⟨⟨_, d.answer_read expression⟩, fun turn => ?_⟩
  rw [run_read, classified]

theorem tells_read_bind {d : Dialect} {expression : Option String} {f : Query → Program ρ σ ε α}
    {l : List Event} (hf : (f (d.parse expression)).Tells t l) :
    (d.read expression >>= f).Tells t (d.classified expression ++ l) := by
  refine (d.tells_read expression).bind fun q hq => ?_
  obtain rfl := Except.ok.inj ((d.answer_read expression).symm.trans hq)
  exact hf

end Dialect

variable [ResultSet σ]

section Clauses
variable (type : RecordType) (found : RecordId → Option ρ) (sets : Selection ρ → σ)

theorem tells_lookUp (id : RecordId) :
    (lookUp id : Program ρ σ ε σ).Tells (.ofAnswers found sets : Transaction ρ σ ε)
      (missed found (some id)) := by
  rw [← List.nil_append (missed found (some id))]
  refine (tells_fetchRecord found sets id).bind fun r? hr? => ?_
  have hr? : found id = r? := by
    rw [Program.answer_fetchRecord] at hr?
    exact Except.ok.inj hr?
  cases r? with
  | none =>
    have hm : missed found (some id) = [.noRecord id] := by simp [missed, hr?]
    rw [hm]
    exact (tells_report _).bind fun _ _ => tells_pure _
  | some r =>
    have hm : missed found (some id) = [] := by simp [missed, hr?]
    rw [hm]
    exact tells_selectRecords found sets _

theorem tells_compileClause (c : Clause) :
    (c.compile type : Program ρ σ ε σ).Tells (.ofAnswers found sets : Transaction ρ σ ε)
      (c.events type found) := by
  rw [Clause.events, ← List.singleton_append]
  refine (tells_report _).bind fun _ _ => ?_
  cases c with
  | malformedId text => exact tells_pure _
  | malformedClause text => exact tells_pure _
  | idLookup id => exact tells_lookUp found sets _
  | idEquals field id =>
    rw [← List.append_nil (missed _ _)]
    refine (tells_lookUp found sets _).bind fun _ _ => ?_
    exact (tells_selectRecords found sets _).bind fun _ _ => tells_pure _
  | idRange field low high =>
    refine (tells_selectRecords found sets _).bind fun _ _ => ?_
    exact (tells_selectRecords found sets _).bind fun _ _ => tells_pure _
  | fieldEquals field value => exact tells_selectRecords found sets _
  | fieldStartsWith field start => exact tells_selectRecords found sets _

theorem tells_foldlM (cs : List Clause) (set : σ) :
    (cs.foldlM (fun s c => return ResultSet.inter s (← c.compile type)) set :
        Program ρ σ ε σ).Tells (.ofAnswers found sets : Transaction ρ σ ε)
      (cs.flatMap (Clause.events type found)) := by
  -- No event shows the set so far, so the induction is for any set to begin with.
  induction cs generalizing set with
  | nil => exact tells_pure set
  | cons c cs ih =>
    rw [List.foldlM_cons, List.flatMap_cons]
    have hc : (do return ResultSet.inter set (← c.compile type) : Program ρ σ ε σ).Tells
        (.ofAnswers found sets : Transaction ρ σ ε) (c.events type found ++ []) :=
      (tells_compileClause type found sets c).bind fun _ _ => tells_pure _
    rw [List.append_nil] at hc
    exact hc.bind fun next _ => ih next

theorem tells_compile (q : Query) :
    (q.compile type : Program ρ σ ε σ).Tells (.ofAnswers found sets : Transaction ρ σ ε)
      (.compilingQuery type q.size :: q.clauses.flatMap (Clause.events type found)) := by
  rw [← List.singleton_append]
  refine (tells_report _).bind fun _ _ => ?_
  obtain ⟨clauses⟩ := q
  cases clauses with
  | nil => exact tells_selectRecords found sets _
  | cons c cs =>
    rw [List.flatMap_cons]
    exact (tells_compileClause type found sets c).bind fun set _ =>
      tells_foldlM type found sets cs set

end Clauses

/-- What is told of a search: the query is displayed if the search has a dialect of its own. -/
def searchEvents (found : RecordId → Option ρ) (dialect : Option Dialect)
    (expression : Option String) (type : RecordType) : List Event :=
  let d := dialect.getD .standard
  let q := d.parse expression
  d.classified expression ++
    ((dialect.map fun d => .parsed (q.displayWith d.conjunction)).toList ++
      .compilingQuery type q.size :: q.clauses.flatMap (Clause.events type found))

theorem exists_searchIn (found : RecordId → Option ρ) (sets : Selection ρ → σ)
    {dialect : Option Dialect} (hd : ∀ d ∈ dialect, d.Accepted) (expression : Option String)
    (type : RecordType) :
    ∃ program : Program ρ σ ε σ, searchIn dialect expression type = .ok program ∧
      program.Tells (.ofAnswers found sets : Transaction ρ σ ε)
        (searchEvents found dialect expression type) := by
  cases dialect with
  | none => exact ⟨_, rfl, Dialect.tells_read_bind (tells_compile type found sets _)⟩
  | some d =>
    refine ⟨d.search expression type, ?_, Dialect.tells_read_bind ?_⟩
    · rw [searchIn, Dialect.check_eq_ok_iff.mpr (hd d rfl)]
      rfl
    · exact (tells_report _).bind fun _ _ => tells_compile type found sets _

def Event.entry (e : Event) : String × List (String × String) := (e.message, e.fields)

/-- The values of a field in the entries with the message, in order. -/
def valuesOf (message field : String) (events : List Event) : List String :=
  events.filterMap fun e => if e.message = message then e.fields.lookup field else none

section Values
variable {message : String} (field : String)

theorem valuesOf_append (l m : List Event) :
    valuesOf message field (l ++ m) = valuesOf message field l ++ valuesOf message field m :=
  List.filterMap_append

theorem valuesOf_eq_nil {l : List Event} (h : ∀ e ∈ l, e.message ≠ message) :
    valuesOf message field l = [] := by
  refine List.filterMap_eq_nil_iff.mpr fun e he => ?_
  rw [if_neg (h e he)]

theorem valuesOf_flatMap_events (hm : message ≠ "no record for id")
    (type : RecordType) (found : RecordId → Option ρ) (cs : List Clause) :
    valuesOf message field (cs.flatMap (Clause.events type found)) =
      valuesOf message field (cs.map .compilingClause) := by
  induction cs with
  | nil => rfl
  | cons c cs ih =>
    have hmissed : valuesOf message field (missed found (c.sought? type)) = [] := by
      refine valuesOf_eq_nil field fun e he => ?_
      obtain ⟨id, -, rfl⟩ := List.mem_map.mp he
      exact hm.symm
    rw [List.flatMap_cons, Clause.events, List.map_cons, ← List.singleton_append,
      ← List.singleton_append (l := cs.map _)]
    simp only [valuesOf_append, hmissed, ih, List.append_nil]

theorem valuesOf_between (hp : message ≠ "parsed expression")
    (hq : message ≠ "compiling query") (dialect : Option Dialect) (type : RecordType) (q : Query)
    (events : List Event) :
    valuesOf message field
        ((dialect.map fun d => Event.parsed (q.displayWith d.conjunction)).toList ++
          .compilingQuery type q.size :: events) =
      valuesOf message field events := by
  rw [← List.singleton_append, ← List.append_assoc, valuesOf_append, valuesOf_eq_nil,
    List.nil_append]
  cases dialect <;> simp [Event.message, hp.symm, hq.symm]

end Values

/-- The entries that tell of reading a clause and of compiling one do not mix. -/
theorem valuesOf_searchEvents (found : RecordId → Option ρ) (dialect : Option Dialect)
    (expression : Option String) (type : RecordType) (field : String) :
    let d := dialect.getD .standard
    valuesOf "classified clause" field (searchEvents found dialect expression type) =
        valuesOf "classified clause" field (d.classified expression) ∧
      valuesOf "compiling clause" field (searchEvents found dialect expression type) =
        valuesOf "compiling clause" field
          ((d.parse expression).clauses.map .compilingClause) := by
  constructor
  · rw [searchEvents, valuesOf_append, valuesOf_between field (by decide) (by decide),
      valuesOf_flatMap_events field (by decide), valuesOf_eq_nil field (l := List.map _ _),
      List.append_nil]
    simp [Event.message]
  · rw [searchEvents, valuesOf_append, valuesOf_between field (by decide) (by decide),
      valuesOf_flatMap_events field (by decide), valuesOf_eq_nil field, List.nil_append]
    simp [Dialect.classified, Event.message]

theorem valuesOf_classified (d : Dialect) (expression : Option String) :
    valuesOf "classified clause" "part" (d.classified expression) = d.conjuncts expression ∧
      valuesOf "classified clause" "kind" (d.classified expression) =
        (d.parse expression).clauses.map fun c => c.kind.name := by
  simp [valuesOf, Dialect.classified, Dialect.parse, Event.message, Event.fields, List.lookup_cons,
    List.filterMap_map, Function.comp_def]

theorem valuesOf_compiling (cs : List Clause) :
    valuesOf "compiling clause" "clause" (cs.map .compilingClause) = cs.map Clause.display ∧
      valuesOf "compiling clause" "kind" (cs.map .compilingClause) =
        cs.map fun c => c.kind.name := by
  simp [valuesOf, Event.message, Event.fields, List.lookup_cons, List.filterMap_map]

section Entries
variable (found : RecordId → Option ρ) (type : RecordType)

theorem map_entry_classified (d : Dialect) (expression : Option String) :
    (d.classified expression).map Event.entry =
      List.zipWith (fun part c => ("classified clause", [("part", part), ("kind", c.kind.name)]))
        (d.conjuncts expression) (d.parse expression).clauses := by
  rw [Dialect.classified, Dialect.parse, List.zipWith_map_right, List.zipWith_self, List.map_map]
  rfl

theorem map_entry_events (c : Clause) :
    (c.events type found).map Event.entry =
      ("compiling clause", [("kind", c.kind.name), ("clause", c.display)]) ::
        ((c.sought? type).filter fun id => (found id).isNone).toList.map fun id =>
          ("no record for id", [("id", id.display)]) := by
  rw [Clause.events, missed, List.map_cons, List.map_map]
  rfl

end Entries

namespace Store

/-- What is written of a search of a store, entry by entry. Each conjunct is told with the kind of
its clause; then, in a dialect of one's own, the query is displayed; and then each clause is told
when it is compiled, followed by the id that it looks up if the store has no record of it. So the
kinds are told twice in one order, and the parts that were read display as the clauses. -/
theorem events_searchIn (s : Store) {dialect : Option Dialect}
    (hd : ∀ d ∈ dialect, d.Accepted) (expression : Option String) (type : RecordType) :
    let d := dialect.getD .standard
    let parts := d.conjuncts expression
    let cs := (d.parse expression).clauses
    ∃ program, searchIn dialect expression type = .ok program ∧
      let events := (s.run program).events
      (parts.length = cs.length ∧ ∀ part ∈ parts, Trimmed part.toList) ∧
      events.map Event.entry =
        List.zipWith (fun part c => ("classified clause", [("part", part), ("kind", c.kind.name)]))
          parts cs ++
        ((dialect.map fun d => ("parsed expression",
          [("query", (" " ++ d.conjunction ++ " ").intercalate (cs.map Clause.display))])).toList ++
        ("compiling query", [("record_type", type.name), ("record_type_id", type.id.toNat.repr),
          ("clauses", cs.length.repr)]) ::
        cs.flatMap fun c =>
          ("compiling clause", [("kind", c.kind.name), ("clause", c.display)]) ::
          ((c.sought? type).filter fun id => (s.find? id).isNone).toList.map fun id =>
            ("no record for id", [("id", id.display)])) ∧
      (∀ (c : Clause) (id : RecordId), c.sought? type = some id ↔
        ∃ n, id = ⟨type.id, n⟩ ∧ (c = .idLookup n ∨ ∃ field, c = .idEquals field n)) ∧
      valuesOf "classified clause" "kind" events = valuesOf "compiling clause" "kind" events ∧
      (valuesOf "classified clause" "part" events).map (fun part =>
        (Clause.ofText d.idField part).display) = valuesOf "compiling clause" "clause" events := by
  intro d parts cs
  obtain ⟨program, hp, ht⟩ := exists_searchIn (ε := Empty) s.find? s.select hd expression type
  refine ⟨program, hp, ?_⟩
  intro events
  have he : events = searchEvents s.find? dialect expression type := ht.events_run 0
  refine ⟨⟨?_, fun _ => Dialect.trimmed_of_mem_conjuncts⟩, ?_,
    fun c id => Clause.sought?_eq_some_iff, ?_, ?_⟩
  · simp [cs, parts, Dialect.parse]
  · rw [he, searchEvents, List.map_append, List.map_append, List.map_cons, map_entry_classified,
      List.map_flatMap]
    simp only [map_entry_events]
    cases dialect <;> rfl
  · rw [he, (valuesOf_searchEvents ..).1, (valuesOf_searchEvents ..).2, (valuesOf_classified ..).2,
      (valuesOf_compiling _).2]
  · rw [he, (valuesOf_searchEvents ..).1, (valuesOf_searchEvents ..).2, (valuesOf_classified ..).1,
      (valuesOf_compiling _).1, Dialect.parse, List.map_map]
    rfl

theorem events_searchIn_missing_id :
    let s := ofActions [.insert "User" [("id", .integer 3)], .insert "Team" []]
    let d : Dialect := ⟨"et", "id"⟩
    d.Accepted ∧ ∃ program, searchIn (some d) (some " id=3 et name~A\u3000et 0") ⟨"User", 0⟩ =
        .ok program ∧
      (s.run program).events.map Event.entry =
        [("classified clause", [("part", "id=3"), ("kind", "id-equals")]),
          ("classified clause", [("part", "name~A"), ("kind", "field-prefix")]),
          ("classified clause", [("part", "0"), ("kind", "id-lookup")]),
          ("parsed expression", [("query", "id=3 et name~A et 0")]),
          ("compiling query", [("record_type", "User"), ("record_type_id", "0"), ("clauses", "3")]),
          ("compiling clause", [("kind", "id-equals"), ("clause", "id=3")]),
          ("no record for id", [("id", "0-3")]),
          ("compiling clause", [("kind", "field-prefix"), ("clause", "name~A")]),
          ("compiling clause", [("kind", "id-lookup"), ("clause", "0")])] := by
  intro s d
  have hd : d.Accepted := by decide
  have hsome : ∀ e ∈ some d, e.Accepted := by simpa using hd
  obtain ⟨program, hp, -, he, -⟩ :=
    events_searchIn s hsome (some " id=3 et name~A\u3000et 0") ⟨"User", 0⟩
  exact ⟨hd, program, hp, he.trans (by decide)⟩

end Store
end RecordSearch
