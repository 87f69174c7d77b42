import RecordSearch.SortedBy.Lookup
import RecordSearch.Store.Transaction

set_option autoImplicit false

namespace RecordSearch

namespace SortedBy
variable {α κ : Type} [Ord κ] {key : α → κ} [Std.LawfulEqOrd κ] [Std.TransOrd κ] [DecidableEq κ]

theorem ofList_toList (s : SortedBy key) : ofList s.toList = s := by
  refine eq_of_find?_eq fun k => ?_
  rw [find?_ofList, find?_reverse]

theorem ofList_append (l m : List α) :
    (ofList (l ++ m) : SortedBy key) = (ofList l).union (ofList m) := by
  refine eq_of_find?_eq fun k => ?_
  simp only [find?_union, find?_ofList, List.reverse_append, List.find?_append]

/-- Whether an element is kept may depend on its key alone, or an earlier one would come back. -/
theorem ofList_filter (p : κ → Bool) (l : List α) :
    (ofList (l.filter fun a => p (key a)) : SortedBy key) =
      (ofList l).filter fun a => p (key a) := by
  refine eq_of_find?_eq fun k => ?_
  rw [find?_filter, find?_ofList, find?_ofList, ← List.filter_reverse]
  induction l.reverse with
  | nil => rfl
  | cons a m ih => grind

theorem ofList_inter (l m : List α) :
    (ofList (l.filter fun a => key a ∈ m.map key) : SortedBy key) =
      (ofList l).inter (ofList m) := by
  have hc : ∀ k, (ofList m : SortedBy key).contains k = decide (k ∈ m.map key) := fun k => by
    rw [Bool.eq_iff_iff, decide_eq_true_iff, contains_ofList]
  rw [ofList_filter fun k => k ∈ m.map key, inter]
  simp only [hc]

theorem perm_union (s t : SortedBy key) :
    (s.union t).toList.Perm (t.toList ++ (s.filter fun a => !t.contains (key a)).toList) := by
  have hmem : ∀ a, a ∈ (s.filter fun a => !t.contains (key a)).toList ↔
      a ∈ s.toList ∧ ∀ b ∈ t.toList, key b ≠ key a := fun a => by
    simp [mem_filter, contains, find?_eq_none_iff]
  have hnodup : (t.toList ++ (s.filter fun a => !t.contains (key a)).toList).Nodup :=
    List.nodup_append.mpr ⟨t.nodup, nodup _, fun b hb a ha hba =>
      ((hmem a).mp ha).2 b hb (congrArg key hba)⟩
  refine (List.perm_ext_iff_of_nodup (nodup _) hnodup).mpr fun a => ?_
  rw [mem_union, List.mem_append, hmem]

theorem size_union_add_size_inter (s t : SortedBy key) :
    (s.union t).size + (s.inter t).size = s.size + t.size := by
  have hu := (perm_union s t).length_eq
  have hs := s.toList.length_eq_length_filter_add fun a => t.contains (key a)
  rw [List.length_append] at hu
  simp only [size, inter, filter] at hu ⊢
  omega

end SortedBy

/-- A way to put a record set together. A singleton is a selection too. -/
inductive Composition where
  | empty
  | collect (records : List Record)
  | select (s : Store) (selection : Selection Record)
  | union (a b : Composition)
  | inter (a b : Composition)

namespace Composition

def set : Composition → RecordSet
  | empty => .empty
  | collect records => .ofList records
  | select s selection => s.select selection
  | union a b => a.set.union b.set
  | inter a b => a.set.inter b.set

/-- The records that go into the set, those that take the place of others behind them. -/
def listing : Composition → List Record
  | empty => []
  | collect records => records
  | select s selection => (s.select selection).toList
  | union a b => a.listing ++ b.listing
  | inter a b => a.listing.filter fun r => r.id ∈ b.listing.map Record.id

theorem set_eq_ofList (e : Composition) : e.set = SortedBy.ofList e.listing := by
  induction e with
  | empty => rfl
  | collect records => rfl
  | select s selection => exact (SortedBy.ofList_toList _).symm
  | union a b iha ihb => rw [set, listing, SortedBy.ofList_append, iha, ihb]
  | inter a b iha ihb => rw [set, listing, SortedBy.ofList_inter, iha, ihb]

end Composition

/-- The set lists, in the order of the ids, the last record in `l` with each id; its ids and its
size are those of the records that it lists. -/
structure RecordSet.Lists (set : RecordSet) (l : List Record) : Prop where
  ascending : set.toList.Pairwise fun r t => compare r.id t.id = .lt
  mem_iff : ∀ r, r ∈ set.toList ↔ LastIn Record.id l r
  find?_iff : ∀ id r, set.find? id = some r ↔ r ∈ set.toList ∧ r.id = id
  contains_iff : ∀ id, set.contains id ↔ id ∈ set.toList.map Record.id
  perm_ids : (set.toList.map Record.id).Perm (l.map Record.id).dedup
  size_eq : set.size = set.toList.length

theorem RecordSet.lists_ofList (l : List Record) : Lists (.ofList l) l where
  ascending := (SortedBy.ofList l).ascending
  mem_iff _ := SortedBy.mem_ofList
  find?_iff _ _ := SortedBy.find?_eq_some_iff
  contains_iff _ := SortedBy.contains_iff
  perm_ids := SortedBy.perm_keys_ofList l
  size_eq := rfl

theorem Composition.lists_listing (e : Composition) : e.set.Lists e.listing := by
  rw [set_eq_ofList]
  exact RecordSet.lists_ofList e.listing

/-- A set that is put together lists the records that go into it, as one that is collected does;
and of two such sets, the union has the ids of either and the records of the second, the
intersection the ids of both and the records of the first. -/
theorem Composition.lists_set (e f : Composition) :
    let a := e.set
    let b := f.set
    a.Lists e.listing ∧ (∀ l, RecordSet.Lists (.ofList l) l) ∧
    ((∀ id, (a.union b).contains id ↔ a.contains id ∨ b.contains id) ∧
      ∀ r, r ∈ (a.union b).toList ↔ r ∈ b.toList ∨ r ∈ a.toList ∧ ¬b.contains r.id) ∧
    ((∀ id, (a.inter b).contains id ↔ a.contains id ∧ b.contains id) ∧
      ∀ r, r ∈ (a.inter b).toList ↔ r ∈ a.toList ∧ b.contains r.id) ∧
    (a.union b).size + (a.inter b).size = a.size + b.size := by
  intro a b
  refine ⟨e.lists_listing, RecordSet.lists_ofList, ⟨fun id => ?_, fun r => ?_⟩,
    ⟨fun id => ?_, fun r => ?_⟩, a.size_union_add_size_inter b⟩
  · rw [SortedBy.contains_union, Bool.or_eq_true]
  · simp only [SortedBy.mem_union, SortedBy.contains_iff, SortedBy.keys, List.mem_map, not_exists,
      not_and, ne_eq]
  · rw [SortedBy.contains_inter, Bool.and_eq_true]
  · simp only [SortedBy.mem_inter, SortedBy.contains_iff, SortedBy.keys, List.mem_map]

/-- Where the two sides hold different records under one id, each operation keeps its own side's. -/
example :
    let ann : Record := ⟨⟨0, 0⟩, "User", .ofList [("name", .text "Ann")]⟩
    let bob : Record := ⟨⟨0, 0⟩, "User", .ofList [("name", .text "Bob")]⟩
    let s := Store.ofActions [.insert "User" [("name", .text "Bob")]]
    let a := Composition.collect [bob, ann]
    let b := Composition.select s (.all "User")
    (a.union b).listing = [bob, ann, bob] ∧ (a.union b).set.toList = [bob] ∧
      (a.inter b).set.toList = [ann] := by
  decide

end RecordSearch
