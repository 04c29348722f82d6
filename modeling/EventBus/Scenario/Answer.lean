import EventBus.EventLog
import EventBus.Machine.Program
import EventBus.Scenario.Script

/-!
# Answers

What the steps of a scenario answer, what its handlers and sinks write into the journal, and the
store in which it keeps maps, registries, caches and logs of its own.
-/

namespace EventBus.Scenario

inductive Answer where
  | done
  | text (s : String)
  | flag (b : Bool)
  | flags (bs : List Bool)
  | count (n : Nat)
  | names (ns : List String)
  | size (n : Nat) (isEmpty : Bool)
  | groups (gs : List (String × List String))
  | busError (error : BusError)
  | handlerError (error : HandlerError)
  | failures (fs : List Failure)
  | bus (identifier mode display debug : String)
  | type (name : String) (isRoot : Bool) (supers : List String) (debug display : String)
  | event (type debug : String) (concrete : List String) (views downcasts : List (String × String))
  | binding (display debug subscriber type owner name : String) (params : List String)
  | method (owner name : String) (params : List String) (debug : String)
  | queue (pending : Nat) (draining : Bool) (debug : String)
  | types (sorted : List String) (isEmpty : Bool)
  | log (entries : List String) (count : Nat)
  | unwound (message : String)
  | list (answers : List Answer)

inductive Entry where
  | line (s : String)
  | answer (a : Answer)
  | failure (type binding error : String)
  | numbered (n : Nat) (binding error : String)

structure Store where
  calls : Table (Nat × Nat) Nat
  reports : Table Nat Nat
  maps : Table Nat HandlerMap
  registries : Table Nat Registry
  caches : Table Nat HierarchyCache
  snapshots : Table Nat (List Binding)
  logs : SharedLogs
  answers : List Answer

namespace Store

def empty : Store := ⟨.empty, .empty, .empty, .empty, .empty, .empty, .empty, []⟩

def map (s : Store) (i : Nat) : HandlerMap := (s.maps.get? i).getD default

def registry (s : Store) (i : Nat) : Registry := (s.registries.get? i).getD default

def cache (s : Store) (i : Nat) : HierarchyCache := (s.caches.get? i).getD default

def snapshot (s : Store) (i : Nat) : List Binding := (s.snapshots.get? i).getD []

end Store

abbrev Code := Program Store Entry Int

abbrev Stage := World Store Entry Int

end EventBus.Scenario
