import RecordSearch.Search
import RecordSearch.Store.Transaction

/-!
A workbench: named stores to fill and to ask, and named sets of records to combine. A kept set
does not change when its store does. A question that is wrong has its error as its answer.
-/

set_option autoImplicit false

namespace RecordSearch

inductive Question where
  | typeId (typeName : String)
  | count
  | get (id : String)
  | property (id field : String)
  | select (selection : Selection Record)
  | search (typeName : String) (typeId : Option TypeId) (expression : Option String)
      (dialect : Option Dialect)
  | compile (typeName : String) (typeId : Option TypeId) (q : Query)
  | collect (ids : List String)
  | emptySet
  | union (a b : String)
  | inter (a b : String)
  | same (a b : String)
  | contains (a id : String)
  | records (a : String)

inductive Command where
  | register (typeName : String)
  | insert (typeName : String) (properties : List Property)
  | ask (question : Question)

/-- A command, the store that it is for, and the name under which to keep the set it gives. -/
structure Task where
  store : String
  keepAs : Option String
  command : Command

inductive Answer where
  | typeId (typeId : Option TypeId)
  | inserted (id : RecordId)
  | count (n : Nat)
  | record (r : Option Record)
  | value (v : Option PropertyValue)
  | noRecord
  | set (s : RecordSet)
  | truth (b : Bool)
  | records (s : RecordSet)
  | error (e : SearchError)
  | exhausted (e : StoreError)

/-- The set to keep of an answer: a record that was found makes a set of its own. -/
def Answer.kept? : Answer → Option RecordSet
  | .set s => some s
  | .record (some r) => some (.singleton r)
  | _ => none

structure Workbench where
  stores : String → Store
  sets : String → RecordSet

namespace Workbench

def empty : Workbench := ⟨fun _ => .empty, fun _ => .empty⟩

def withStore (w : Workbench) (name : String) (s : Store) : Workbench :=
  { w with stores := fun n => if n = name then s else w.stores n }

def withSet (w : Workbench) (name : String) (s : RecordSet) : Workbench :=
  { w with sets := fun n => if n = name then s else w.sets n }

def ask (w : Workbench) (s : Store) : Question → Except SearchError Answer
  | .typeId typeName => return .typeId (s.typeId? typeName)
  | .count => return .count s.size
  | .get id => return .record (s.find? (← RecordId.parse id))
  | .property id field => do
      match s.find? (← RecordId.parse id) with
      | some r => return .value (r.property? field)
      | none => return .noRecord
  | .select selection => return .set (s.select selection)
  | .search typeName typeId expression dialect => do
      let program ← searchIn dialect expression (s.recordType typeName typeId)
      return .set (s.run program).value
  | .compile typeName typeId q =>
      return .set (s.run (q.compile (s.recordType typeName typeId))).value
  | .collect ids => return .set (s.recordsOf (← ids.mapM RecordId.parse))
  | .emptySet => return .set .empty
  | .union a b => return .set ((w.sets a).union (w.sets b))
  | .inter a b => return .set ((w.sets a).inter (w.sets b))
  | .same a b => return .truth (w.sets a = w.sets b)
  | .contains a id => return .truth ((w.sets a).contains (← RecordId.parse id))
  | .records a => return .records (w.sets a)

def answer (w : Workbench) (s : Store) : Command → Answer × Store
  | .register typeName =>
      match s.tryRegister typeName with
      | .ok (typeId, s) => (.typeId (some typeId), s)
      | .error e => (.exhausted e, s)
  | .insert typeName properties =>
      match s.tryInsert typeName properties with
      | .ok (id, s) => (.inserted id, s)
      | .error e => (.exhausted e, s)
  | .ask question =>
      match w.ask s question with
      | .ok a => (a, s)
      | .error e => (.error e, s)

def perform (w : Workbench) (task : Task) : Answer × Workbench :=
  let (a, s) := w.answer (w.stores task.store) task.command
  let w := w.withStore task.store s
  match task.keepAs, a.kept? with
  | some name, some set => (a, w.withSet name set)
  | _, _ => (a, w)

def answers (w : Workbench) : List Task → List Answer
  | [] => []
  | task :: tasks =>
      let (a, w) := w.perform task
      a :: w.answers tasks

end Workbench
end RecordSearch
