import RecordSearch.Search

set_option autoImplicit false

namespace RecordSearch
variable {ρ σ ε α β : Type}

namespace Program

def answer (t : Transaction ρ σ ε) : Program ρ σ ε α → Except ε α
  | done result => result
  | note _ next => answer t next
  | fetch id next => answer t (next (t.fetch id))
  | select s next => answer t (next (t.select s))

theorem result_run (t : Transaction ρ σ ε) (turn : Nat) (p : Program ρ σ ε α) :
    (p.run t.session turn).result = p.answer t := by
  induction p generalizing turn with
  | done result => rfl
  | note event next ih => exact ih turn
  | fetch id next ih => exact ih (t.fetch id) (turn + 1)
  | select s next ih => exact ih (t.select s) (turn + 1)

section Parts
variable (t : Transaction ρ σ ε)

@[simp] theorem answer_pure (a : α) : (pure a : Program ρ σ ε α).answer t = .ok a := rfl

@[simp] theorem answer_report (event : Event) : (report event).answer t = .ok () := rfl

@[simp] theorem answer_fetchRecord (id : RecordId) : (fetchRecord id).answer t = t.fetch id := rfl

@[simp] theorem answer_selectRecords (s : Selection ρ) :
    (selectRecords s).answer t = t.select s := rfl

@[simp] theorem answer_bind (p : Program ρ σ ε α) (f : α → Program ρ σ ε β) :
    (p >>= f).answer t = p.answer t >>= fun a => (f a).answer t := by
  change (bind p f).answer t = _
  induction p with
  | done result => cases result <;> rfl
  | note event next ih => exact ih
  | fetch id next ih => exact ih (t.fetch id)
  | select s next ih => exact ih (t.select s)

end Parts
end Program

theorem Dialect.answer_search [ResultSet σ] (t : Transaction ρ σ ε) (d : Dialect)
    (expression : Option String) (type : RecordType) :
    (d.search expression type : Program ρ σ ε σ).answer t =
      ((d.parse expression).compile type).answer t := by
  rw [← Program.result_run t 0, ← Program.result_run t 0, run_search]

end RecordSearch
