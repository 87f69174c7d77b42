import RecordSearch.Plan
import RecordSearch.Proofs.Calls
import RecordSearch.Proofs.Conjunction
import RecordSearch.SortedBy.Lookup

set_option autoImplicit false

namespace RecordSearch
open Text
variable {ρ σ ε α β : Type}

/-- Sets of which an intersection is no larger than its sides, and the empty one is empty. -/
structure ResultSet.Narrows (σ : Type) [ResultSet σ] : Prop where
  size_empty : size (empty : σ) = 0
  size_inter_le : ∀ a b : σ, size (inter a b) ≤ min (size a) (size b)

theorem narrows_recordSet : ResultSet.Narrows RecordSet where
  size_empty := rfl
  size_inter_le a b := by
    refine Nat.le_min.mpr ⟨List.length_filter_le _ _, ?_⟩
    have hsub : (a.inter b).keys ⊆ b.keys := by
      intro id hid
      obtain ⟨r, hr, rfl⟩ := List.mem_map.mp hid
      exact SortedBy.contains_iff.mp (SortedBy.mem_filter.mp hr).2
    have hl := (a.inter b).nodup_keys.length_le_of_subset hsub
    rwa [SortedBy.keys, SortedBy.keys, List.length_map, List.length_map] at hl

theorem narrows_plan : ResultSet.Narrows Plan where
  size_empty := rfl
  size_inter_le _ _ := Nat.le_refl _

def Program.Ends (session : Session ρ σ ε) (Q : α → Prop) (p : Program ρ σ ε α) : Prop :=
  ∀ turn a, (p.run session turn).result = .ok a → Q a

section Bind
variable {session : Session ρ σ ε} {P : α → Prop} {Q : β → Prop}

theorem ends_pure {a : α} (h : P a) : Program.Ends session P (pure a) := by
  intro turn b hb
  cases hb
  exact h

theorem Program.Ends.bind {p : Program ρ σ ε α} {f : α → Program ρ σ ε β} (hp : p.Ends session P)
    (hf : ∀ a, P a → (f a).Ends session Q) : (p >>= f).Ends session Q := by
  intro turn b hb
  rw [run_bind] at hb
  split at hb
  · contradiction
  · next a ha => exact hf a (hp turn a ha) _ b hb

theorem calls_bind_congr {γ : Type} {p : Program ρ σ ε α} {f : α → Program ρ σ ε β}
    {g : α → Program ρ σ ε γ} {turn : Nat}
    (h : ∀ a turn, ((f a).run session turn).calls = ((g a).run session turn).calls) :
    ((p >>= f).run session turn).calls = ((p >>= g).run session turn).calls := by
  rw [Program.run_bind, Program.run_bind]
  split
  · rfl
  · simp only [h]

end Bind

variable [ResultSet σ]

theorem run_compile_of_isMalformed {c : Clause} (hc : c.isMalformed) (type : RecordType)
    (session : Session ρ σ ε) (turn : Nat) :
    (c.compile type : Program ρ σ ε σ).run session turn =
      ⟨[], [.compilingClause c], .ok ResultSet.empty⟩ := by
  cases c with
  | malformedId text => rfl
  | malformedClause text => rfl
  | _ => contradiction

section Size
variable (hσ : ResultSet.Narrows σ) (session : Session ρ σ ε) (type : RecordType)
include hσ

theorem ResultSet.Narrows.size_inter_eq_zero {a b : σ} (h : size a = 0 ∨ size b = 0) :
    size (inter a b) = 0 := by
  have hle := Nat.le_min.mp (hσ.size_inter_le a b)
  rcases h with h | h
  · exact Nat.le_zero.mp (h ▸ hle.1)
  · exact Nat.le_zero.mp (h ▸ hle.2)

theorem ends_compileClause (c : Clause) :
    Program.Ends session (fun s : σ => c.isMalformed → ResultSet.size s = 0) (c.compile type) := by
  intro turn set hset hc
  rw [run_compile_of_isMalformed hc] at hset
  cases hset
  exact hσ.size_empty

/-- Nothing is left once the set is empty or a malformed clause is still to come. -/
theorem ends_foldlM (cs : List Clause) {set : σ}
    (h : ResultSet.size set = 0 ∨ ∃ c ∈ cs, c.isMalformed) :
    Program.Ends session (fun s : σ => ResultSet.size s = 0)
      (cs.foldlM (fun found c => return ResultSet.inter found (← c.compile type)) set) := by
  induction cs generalizing set with
  | nil => exact ends_pure (by simpa using h)
  | cons c cs ih =>
    rw [List.foldlM_cons]
    have hc : Program.Ends session
        (fun s : σ => ResultSet.size s = 0 ∨ ∃ c ∈ cs, c.isMalformed)
        (do return ResultSet.inter set (← c.compile type)) := by
      refine (ends_compileClause hσ session type c).bind fun own hown => ends_pure ?_
      simp only [List.mem_cons, exists_eq_or_imp] at h
      rcases h with h | h | h
      · exact .inl (hσ.size_inter_eq_zero (.inl h))
      · exact .inl (hσ.size_inter_eq_zero (.inr (hown h)))
      · exact .inr h
    exact hc.bind fun found hfound => ih hfound

theorem ends_compile {q : Query} (h : ∃ c ∈ q.clauses, c.isMalformed) :
    Program.Ends session (fun s : σ => ResultSet.size s = 0) (q.compile type) := by
  refine Program.Ends.bind (P := fun _ => True) (fun _ _ _ => trivial) fun _ _ => ?_
  obtain ⟨clauses⟩ := q
  cases clauses with
  | nil => simp at h
  | cons c cs =>
    refine (ends_compileClause hσ session type c).bind fun set hset =>
      ends_foldlM hσ session type cs ?_
    simp only [List.mem_cons, exists_eq_or_imp] at h
    exact h.imp_left hset

end Size

section Calls
variable (type : RecordType) (session : Session ρ σ ε)

def compileWellFormed (type : RecordType) (cs : List Clause) : Program ρ σ ε (List σ) :=
  (cs.filter fun c => !c.isMalformed).mapM fun c => c.compile type

theorem calls_compileClause_bind {c : Clause} {cs : List Clause} {next : σ → Program ρ σ ε σ}
    (h : ∀ set turn, ((next set).run session turn).calls =
      ((compileWellFormed type cs).run session turn).calls) (turn : Nat) :
    ((c.compile type >>= next).run session turn).calls =
      ((compileWellFormed type (c :: cs)).run session turn).calls := by
  by_cases hc : c.isMalformed
  · -- What follows is given the empty set, but its calls do not depend on the set.
    rw [Program.run_bind, run_compile_of_isMalformed hc, compileWellFormed,
      List.filter_cons_of_neg (by simp [hc])]
    exact h _ _
  · rw [compileWellFormed, List.filter_cons_of_pos (by simp [hc]), List.mapM_cons]
    refine calls_bind_congr fun set turn => ?_
    rw [h, ← map_eq_pure_bind, Program.run_map]
    rfl

theorem calls_foldlM (cs : List Clause) (set : σ) (turn : Nat) :
    ((cs.foldlM (fun found c => return ResultSet.inter found (← c.compile type)) set :
      Program ρ σ ε σ).run session turn).calls =
        ((compileWellFormed type cs).run session turn).calls := by
  induction cs generalizing set turn with
  | nil => rfl
  | cons c cs ih =>
    rw [List.foldlM_cons, bind_assoc]
    exact calls_compileClause_bind type session (fun found turn => ih _ turn) turn

theorem calls_compile {q : Query} (hq : q.clauses ≠ []) (turn : Nat) :
    ((q.compile type : Program ρ σ ε σ).run session turn).calls =
      ((compileWellFormed type q.clauses).run session turn).calls := by
  obtain ⟨clauses⟩ := q
  cases clauses with
  | nil => contradiction
  | cons c cs =>
    exact calls_compileClause_bind type session
      (fun set turn => calls_foldlM type session cs set turn) turn

theorem calls_compile_of_eq_nil {q : Query} (hq : q.clauses = []) (turn : Nat) :
    ((q.compile type : Program ρ σ ε σ).run session turn).calls = [.select (.all type.name)] := by
  obtain ⟨clauses⟩ := q
  subst hq
  exact congrArg Run.calls (run_selectRecords (.all type.name))

theorem all_mem_calls_compile_iff (q : Query) :
    (∃ name, .select (.all name) ∈ ((q.compile type : Program ρ σ ε σ).run session 0).calls) ↔
      q.clauses = [] := by
  constructor
  · intro h
    obtain ⟨name, hm⟩ := h
    by_contra hq
    have hm := (makes_compile session type q).isPrefix.subset hm
    rw [Query.calls, if_neg hq] at hm
    exact Clause.all_notMem_callsFrom session type 0 q.clauses name hm
  · intro hq
    exact ⟨type.name, by simp [calls_compile_of_eq_nil type session hq]⟩

/-- A search asks for all records of a type exactly if the expression is blank, and then for
nothing else. A malformed clause makes no call, so that the calls are those of the other clauses,
and a search with one in it that ends well finds nothing. The sets of a store narrow so, and so do
plans. -/
theorem search_narrows (session : Session ρ σ ε) (d : Dialect) (expression : Option String)
    (type : RecordType) :
    let q := d.parse expression
    let run := (d.search expression type : Program ρ σ ε σ).run session 0
    ((∃ name, .select (.all name) ∈ run.calls) ↔ Dialect.IsBlank expression) ∧
    (Dialect.IsBlank expression → run.calls = [.select (.all type.name)]) ∧
    ((∃ c ∈ q.clauses, c.isMalformed) →
      (ResultSet.Narrows σ → ∀ set, run.result = .ok set → ResultSet.size set = 0) ∧
      (∀ c ∈ q.clauses, c.isMalformed → ∀ turn,
        ((c.compile type : Program ρ σ ε σ).run session turn).calls = []) ∧
      run.calls =
        ((compileWellFormed type q.clauses : Program ρ σ ε (List σ)).run session 0).calls) ∧
    ResultSet.Narrows RecordSet ∧ ResultSet.Narrows Plan := by
  intro q run
  have hb : q.clauses = [] ↔ Dialect.IsBlank expression := d.clauses_parse_eq_nil_iff expression
  have hrun : run = _ := d.run_search expression type session 0
  have hcalls : run.calls = ((q.compile type : Program ρ σ ε σ).run session 0).calls := by
    rw [hrun]
  have hresult : run.result = ((q.compile type : Program ρ σ ε σ).run session 0).result := by
    rw [hrun]
  rw [hcalls, ← hb]
  refine ⟨all_mem_calls_compile_iff type session q, fun hq =>
    calls_compile_of_eq_nil type session hq 0, fun hm => ⟨fun hσ set hset => ?_, ?_, ?_⟩,
    narrows_recordSet, narrows_plan⟩
  · exact ends_compile hσ session type hm 0 set (hresult ▸ hset)
  · intro c _ hc turn
    rw [run_compile_of_isMalformed hc]
  · obtain ⟨c, hc, -⟩ := hm
    exact calls_compile type session (List.ne_nil_of_mem hc) 0

theorem search_narrows_third_clause :
    let session : Session RecordId Plan Plan.Outage := Plan.session [⟨1, 7⟩] none
    let run := (Dialect.standard.search (some "name=Ann and 7 and 1x") ⟨"User", 1⟩).run session 0
    let blank := (Dialect.standard.search (some "\u3000") ⟨"User", 1⟩).run session 0
    (∃ c ∈ (Dialect.standard.parse (some "name=Ann and 7 and 1x")).clauses, c.isMalformed) ∧
      (∃ plan, run.result = .ok plan ∧ ResultSet.size plan = 0) ∧
      run.calls = [.select (.equals "User" "name" "Ann"), .fetch ⟨1, 7⟩,
        .select (.singleton ⟨1, 7⟩)] ∧
      Dialect.IsBlank (some "\u3000") ∧ blank.calls = [.select (.all "User")] := by
  intro session run blank
  have hm : ∃ c ∈ (Dialect.standard.parse (some "name=Ann and 7 and 1x")).clauses,
      c.isMalformed := by decide
  have hb : Dialect.IsBlank (some "\u3000") := by
    intro text htext
    cases htext
    decide
  have hrun := search_narrows session .standard (some "name=Ann and 7 and 1x") ⟨"User", 1⟩
  have hblank := search_narrows session .standard (some "\u3000") ⟨"User", 1⟩
  obtain ⟨-, -, hrun, -, hplan⟩ := hrun
  obtain ⟨hsize, -, hcalls⟩ := hrun hm
  exact ⟨hm, ⟨_, rfl, hsize hplan _ rfl⟩, hcalls.trans (by decide), hb, hblank.2.1 hb⟩

end Calls
end RecordSearch
