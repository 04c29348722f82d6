import EventBus.Discovery
import EventBus.HierarchyCache
import EventBus.Queue
import EventBus.Registry
import EventBus.Trace

/-!
# Buses

A bus has a name and a dispatch discipline, the registry of its handlers, the hierarchies of the
types it has seen, one delivery queue per thread, and a sink for handler failures. Registering and
unregistering are all or nothing.
-/

namespace EventBus

open Text

/-- How resolved bindings are invoked: at once, or through the posting thread's queue. -/
inductive DispatchMode where
  | immediate
  | queued
deriving DecidableEq, Repr

namespace DispatchMode

def name : DispatchMode → String
  | immediate => "immediate"
  | queued => "queued"

def debug : DispatchMode → String
  | immediate => "Immediate"
  | queued => "Queued"

end DispatchMode

structure Config where
  identifier : String
  mode : DispatchMode
deriving DecidableEq, Repr

namespace Config

def default : Config := ⟨"default", .immediate⟩

def debug (c : Config) : String :=
  record "EventBusConfig"
    [("identifier", quoted c.identifier), ("dispatch", c.mode.debug)]

end Config

structure Failure where
  eventType : EventType
  handler : String
  error : String
deriving DecidableEq, Repr

def Failure.debug (f : Failure) : String :=
  record "Failure"
    [("event_type", f.eventType.debug), ("handler", quoted f.handler), ("error", quoted f.error)]

inductive Sink where
  | ignore
  | log (name : String)
  | record (failures : List Failure)
  | custom (id : Nat)
deriving DecidableEq, Repr

structure Bus (α : Type) where
  config : Config
  registry : Registry
  cache : HierarchyCache
  queues : Queues α
  sink : Sink
  discovery : Discovery

namespace Bus

variable {α : Type}

def debug (b : Bus α) : String :=
  Text.record "EventBus"
    [("identifier", quoted b.config.identifier), ("dispatch", b.config.mode.debug),
      ("event_types", toString b.registry.types.length)]

def display (b : Bus α) : String := "EventBus(" ++ b.config.identifier ++ ")"

def ownerOf (m : HandlerMap) : String := m.owner?.getD "<no handlers>"

def register (b : Bus α) (s : Subscriber) : Except BusError (Bus α × Notice) := do
  let m ← b.discovery s
  return ({ b with registry := b.registry.putAll m },
    .registered b.config.identifier (ownerOf m) m.size)

def unregister (b : Bus α) (s : Subscriber) : Except BusError (Bus α × Notice) := do
  let m ← b.discovery s
  let r ← b.registry.removeAll m
  return ({ b with registry := r }, .unregistered b.config.identifier (ownerOf m) m.size)

def isRegistered (b : Bus α) (s : Subscriber) : Bool :=
  match b.discovery s with
  | .ok m => !m.isEmpty && b.registry.containsAll m
  | .error _ => false

def handlerCount (b : Bus α) (t : EventType) : Nat := b.registry.count t

/-- The bindings an event of type `t` reaches, type by type in the order of the hierarchy. -/
def resolve (b : Bus α) (g : TypeGraph) (t : EventType) : List Binding :=
  b.registry.resolve (b.cache.flatten g t)

def remember (b : Bus α) (g : TypeGraph) (t : EventType) : Bus α :=
  { b with cache := b.cache.request g t }

section

variable {b b' : Bus α} {s : Subscriber} {n : Notice} {e : BusError}

theorem register_eq_ok_iff : b.register s = .ok (b', n) ↔
    ∃ m, b.discovery s = .ok m ∧ b' = { b with registry := b.registry.putAll m } ∧
      n = .registered b.config.identifier (ownerOf m) m.size := by
  simp only [register, bind, Except.bind, pure, Except.pure]
  cases b.discovery s <;> simp [eq_comm]

theorem register_eq_error_iff : b.register s = .error e ↔ b.discovery s = .error e := by
  simp only [register, bind, Except.bind, pure, Except.pure]
  cases b.discovery s <;> simp

theorem unregister_eq_ok_iff : b.unregister s = .ok (b', n) ↔
    ∃ m r, b.discovery s = .ok m ∧ b.registry.removeAll m = .ok r ∧
      b' = { b with registry := r } ∧ n = .unregistered b.config.identifier (ownerOf m) m.size := by
  simp only [unregister, bind, Except.bind, pure, Except.pure]
  cases b.discovery s with
  | error e => simp
  | ok m => cases hr : b.registry.removeAll m <;> simp [hr, eq_comm]

theorem unregister_eq_error_iff : b.unregister s = .error e ↔
    b.discovery s = .error e ∨ ∃ m, b.discovery s = .ok m ∧ b.registry.removeAll m = .error e := by
  simp only [unregister, bind, Except.bind, pure, Except.pure]
  cases b.discovery s with
  | error e => simp
  | ok m => cases hr : b.registry.removeAll m <;> simp [hr]

end

end Bus

/-- A bus under construction. What is left out takes its default. -/
structure Builder where
  config : Config
  sink : Option Sink
  discovery : Option Discovery

namespace Builder

def new : Builder := ⟨.default, none, none⟩

def ofConfig (c : Config) : Builder := ⟨c, none, none⟩

def identifier (b : Builder) (name : String) : Builder :=
  { b with config := { b.config with identifier := name } }

def dispatch (b : Builder) (mode : DispatchMode) : Builder :=
  { b with config := { b.config with mode := mode } }

def errorSink (b : Builder) (s : Sink) : Builder := { b with sink := some s }

def withDiscovery (b : Builder) (d : Discovery) : Builder := { b with discovery := some d }

def debug (b : Builder) : String :=
  record "EventBusBuilder"
    [("config", b.config.debug), ("custom_sink", flag b.sink.isSome),
      ("custom_discovery", flag b.discovery.isSome)]

/-- The finished bus. By default failures are logged under the bus's name, and handlers are found
as declared. -/
def build {α : Type} (b : Builder) : Bus α where
  config := b.config
  registry := .empty
  cache := .empty
  queues := .empty
  sink := b.sink.getD (.log b.config.identifier)
  discovery := b.discovery.getD .declared

end Builder

instance {α : Type} : Inhabited (Bus α) := ⟨Builder.new.build⟩

end EventBus
