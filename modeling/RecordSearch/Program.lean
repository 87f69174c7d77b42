import RecordSearch.Event
import RecordSearch.RecordSet

/-!
Programs that ask a store for records. A program notes an event, fetches a record or selects a
set, and goes on from the answer, which may be a failure; what a store makes of the calls is left
to a transaction. A run lists the calls and the events.
-/

set_option autoImplicit false

namespace RecordSearch

/-- What to select from a store. The bounds of a range belong to it. -/
inductive Selection (ρ : Type) where
  | all (typeName : String)
  | singleton (record : ρ)
  | equals (typeName field value : String)
  | startsWith (typeName field start : String)
  | idsWithin (typeName : String) (low high : LocalId)
  | valuesWithin (typeName field : String) (low high : LocalId)
  deriving DecidableEq, Repr

inductive Call (ρ : Type) where
  | fetch (id : RecordId)
  | select (s : Selection ρ)
  deriving DecidableEq, Repr

/-- How a store with records `ρ`, sets `σ` and failures `ε` answers. -/
structure Transaction (ρ σ ε : Type) where
  fetch : RecordId → Except ε (Option ρ)
  select : Selection ρ → Except ε σ

/-- How a store answers each call, counted from zero. -/
abbrev Session (ρ σ ε : Type) := Nat → Transaction ρ σ ε

namespace Transaction
variable {ρ σ ε : Type}

def failing (e : ε) : Transaction ρ σ ε := ⟨fun _ => .error e, fun _ => .error e⟩

def session (t : Transaction ρ σ ε) : Session ρ σ ε := fun _ => t

/-- Answers as `t` does, but the call with index `k` fails. -/
def sessionFailingAt (t : Transaction ρ σ ε) (k : Nat) (e : ε) : Session ρ σ ε := fun turn =>
  if turn = k then failing e else t

end Transaction

/-- A program ends with a result or a failure. A failed call does not end it of itself. -/
inductive Program (ρ σ ε α : Type) where
  | done (result : Except ε α)
  | note (event : Event) (next : Program ρ σ ε α)
  | fetch (id : RecordId) (next : Except ε (Option ρ) → Program ρ σ ε α)
  | select (s : Selection ρ) (next : Except ε σ → Program ρ σ ε α)

structure Run (ρ ε α : Type) where
  calls : List (Call ρ)
  events : List Event
  result : Except ε α

def Run.value {ρ α : Type} (r : Run ρ Empty α) : α :=
  match r.result with
  | .ok a => a
  | .error e => nomatch e

namespace Program
variable {ρ σ ε α β : Type}

/-- What follows a program is left out if the program ends with a failure, which is passed on. -/
def bind : Program ρ σ ε α → (α → Program ρ σ ε β) → Program ρ σ ε β
  | done (.error e), _ => done (.error e)
  | done (.ok a), f => f a
  | note event next, f => note event (bind next f)
  | fetch id next, f => fetch id fun r => bind (next r) f
  | select s next, f => select s fun t => bind (next t) f

instance : Monad (Program ρ σ ε) where
  pure a := done (.ok a)
  bind := bind

theorem bind_pure (p : Program ρ σ ε α) : bind p (fun a => done (.ok a)) = p := by
  induction p with
  | done result => cases result <;> rfl
  | note event next ih => rw [bind, ih]
  | fetch id next ih => simp only [bind, ih]
  | select s next ih => simp only [bind, ih]

theorem bind_assoc {γ : Type} (p : Program ρ σ ε α) (f : α → Program ρ σ ε β)
    (g : β → Program ρ σ ε γ) : bind (bind p f) g = bind p fun a => bind (f a) g := by
  induction p with
  | done result => cases result <;> rfl
  | note event next ih => simp only [bind, ih]
  | fetch id next ih => simp only [bind, ih]
  | select s next ih => simp only [bind, ih]

instance : LawfulMonad (Program ρ σ ε) :=
  LawfulMonad.mk' (Program ρ σ ε) bind_pure (fun _ _ => rfl) bind_assoc

def report (event : Event) : Program ρ σ ε Unit := note event (done (.ok ()))

def fetchRecord (id : RecordId) : Program ρ σ ε (Option ρ) := fetch id done

def selectRecords (s : Selection ρ) : Program ρ σ ε σ := select s done

def run (session : Session ρ σ ε) (turn : Nat) : Program ρ σ ε α → Run ρ ε α
  | done result => ⟨[], [], result⟩
  | note event next =>
      let rest := run session turn next
      { rest with events := event :: rest.events }
  | fetch id next =>
      let rest := run session (turn + 1) (next ((session turn).fetch id))
      { rest with calls := .fetch id :: rest.calls }
  | select s next =>
      let rest := run session (turn + 1) (next ((session turn).select s))
      { rest with calls := .select s :: rest.calls }

theorem run_pure (session : Session ρ σ ε) (turn : Nat) (a : α) :
    (pure a : Program ρ σ ε α).run session turn = ⟨[], [], .ok a⟩ := rfl

theorem run_bind (session : Session ρ σ ε) (turn : Nat) (p : Program ρ σ ε α)
    (f : α → Program ρ σ ε β) :
    (p >>= f).run session turn =
      match (p.run session turn).result with
      | .error e => ⟨(p.run session turn).calls, (p.run session turn).events, .error e⟩
      | .ok a =>
          let rest := (f a).run session (turn + (p.run session turn).calls.length)
          ⟨(p.run session turn).calls ++ rest.calls, (p.run session turn).events ++ rest.events,
            rest.result⟩ := by
  change (bind p f).run session turn = _
  -- Each call of `p` takes an index, so what is left of `p` runs at another turn.
  induction p generalizing turn with
  | done result => cases result <;> simp [bind, run]
  | note event next ih =>
    simp only [bind, run, ih]
    split <;> simp_all
  | fetch id next ih =>
    simp only [bind, run, ih, List.length_cons]
    split <;> simp_all [Nat.add_assoc, Nat.add_comm 1]
  | select s next ih =>
    simp only [bind, run, ih, List.length_cons]
    split <;> simp_all [Nat.add_assoc, Nat.add_comm 1]

theorem run_map (session : Session ρ σ ε) (turn : Nat) (p : Program ρ σ ε α) (f : α → β) :
    (f <$> p).run session turn =
      ⟨(p.run session turn).calls, (p.run session turn).events,
        (p.run session turn).result.map f⟩ := by
  rw [map_eq_pure_bind, run_bind]
  split <;> simp_all [run_pure, Except.map]

end Program
end RecordSearch
