import EventBus.World

/-!
# Programs

The code of handlers, sinks and threads as data: what it asks of the world, one request after the
other, and how it ends. A behaviour says which program each method body and each sink runs.
-/

namespace EventBus

inductive Program (σ ε α : Type) where
  | finish (ending : Ending)
  | panic (payload : Panic)
  | look (next : World σ ε α → Program σ ε α)
  | store (value : σ) (next : Program σ ε α)
  | note (entry : ε) (next : Program σ ε α)
  | post (bus : BusId) (event : Event α) (next : Program σ ε α)
  | register (bus : BusId) (subscriber : SubscriberId)
      (next : Except BusError Unit → Program σ ε α)
  | unregister (bus : BusId) (subscriber : SubscriberId)
      (next : Except BusError Unit → Program σ ε α)
  | enqueue (bus : BusId) (delivery : Delivery α) (next : Program σ ε α)
  /-- Delivers what waits in the thread's queue, unless a drain of the thread is under way. -/
  | drain (bus : BusId) (next : Program σ ε α)
  /-- Calls a binding by itself; its failure is an answer and not reported. -/
  | invoke (binding : Binding) (event : Event α)
      (next : Except HandlerError Unit → Program σ ε α)
  /-- Runs `body` and goes on with the panic that ended it, if one did. -/
  | attempt (body : Program σ ε α) (next : Option Panic → Program σ ε α)
  /-- Runs `body` on a new thread and waits for it. -/
  | spawn (body : Program σ ε α) (next : Option Panic → Program σ ε α)
  | declare (type : EventType) (supers : List EventType) (next : Program σ ε α)
  | activate (subscriber : SubscriberId) (methods : List Method) (next : Program σ ε α)
  | forget (bus : BusId) (next : Program σ ε α)

structure Behaviour (σ ε α : Type) where
  body : BodyId → SubscriberId → Event α → Program σ ε α
  sink : Nat → Delivery α → HandlerError → Program σ ε α

end EventBus
