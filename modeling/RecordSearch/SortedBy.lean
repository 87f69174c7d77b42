/-!
Lists in strictly ascending order of a key, so with at most one element a key. An element that
comes in takes the place of the one with its key. Such a list is told by the element that it
holds under each key.
-/

set_option autoImplicit false

namespace RecordSearch

structure SortedBy {α κ : Type} [Ord κ] (key : α → κ) where
  toList : List α
  ascending : toList.Pairwise fun a b => compare (key a) (key b) = .lt
  deriving DecidableEq

structure Span (κ : Type) [Ord κ] where
  low : κ
  high : κ
  low_le_high : (compare low high).isLE

namespace SortedBy
variable {α κ : Type} [Ord κ] {key : α → κ}

def empty : SortedBy key := ⟨[], .nil⟩

def singleton (a : α) : SortedBy key := ⟨[a], List.pairwise_singleton _ a⟩

def size (s : SortedBy key) : Nat := s.toList.length

def keys (s : SortedBy key) : List κ := s.toList.map key

def filter (p : α → Bool) (s : SortedBy key) : SortedBy key :=
  ⟨s.toList.filter p, s.ascending.sublist List.filter_sublist⟩

/-- The elements with keys in the span: those below it lie in front, those above it behind. -/
def within (span : Span κ) (s : SortedBy key) : SortedBy key where
  toList := (s.toList.dropWhile fun a => (compare (key a) span.low).isLT).takeWhile fun a =>
    (compare (key a) span.high).isLE
  ascending := s.ascending.sublist
    ((List.takeWhile_sublist _).trans (List.dropWhile_sublist _))

def place (key : α → κ) (a : α) : List α → List α
  | [] => [a]
  | b :: l =>
      match compare (key a) (key b) with
      | .lt => a :: b :: l
      | .eq => a :: l
      | .gt => b :: place key a l

theorem mem_of_mem_place {a b : α} {l : List α} (h : b ∈ place key a l) : b = a ∨ b ∈ l := by
  induction l with
  | nil => simpa [place] using h
  | cons c l ih =>
    rw [place] at h
    split at h <;> grind

theorem place_ascending [Std.TransOrd κ] {l : List α}
    (h : l.Pairwise fun a b => compare (key a) (key b) = .lt) (a : α) :
    (place key a l).Pairwise fun a b => compare (key a) (key b) = .lt := by
  induction l with
  | nil => exact List.pairwise_singleton _ a
  | cons b l ih =>
    obtain ⟨hb, hl⟩ := List.pairwise_cons.mp h
    rw [place]
    split
    · next hab =>
      refine List.pairwise_cons.mpr ⟨fun c hc => ?_, h⟩
      rcases List.mem_cons.mp hc with rfl | hc
      · exact hab
      · exact Std.TransCmp.lt_trans hab (hb c hc)
    · next hab =>
      exact List.pairwise_cons.mpr ⟨fun c hc => Std.TransCmp.lt_of_eq_of_lt hab (hb c hc), hl⟩
    · next hab =>
      refine List.pairwise_cons.mpr ⟨fun c hc => ?_, ih hl⟩
      rcases mem_of_mem_place hc with rfl | hc
      · exact Std.OrientedCmp.lt_of_gt hab
      · exact hb c hc

def insert [Std.TransOrd κ] (s : SortedBy key) (a : α) : SortedBy key :=
  ⟨place key a s.toList, place_ascending s.ascending a⟩

/-- Of elements with one key, the last is kept. -/
def ofList [Std.TransOrd κ] (l : List α) : SortedBy key := l.foldl insert empty

/-- The elements of both; those of `t` take the place of those of `s`. -/
def union [Std.TransOrd κ] (s t : SortedBy key) : SortedBy key := t.toList.foldl insert s

section Lookup
variable [DecidableEq κ]

def find? (s : SortedBy key) (k : κ) : Option α := s.toList.find? fun a => key a = k

def contains (s : SortedBy key) (k : κ) : Bool := (s.find? k).isSome

/-- The elements of `s` with keys in `t`. -/
def inter (s t : SortedBy key) : SortedBy key := s.filter fun a => t.contains (key a)

end Lookup
end SortedBy
end RecordSearch
