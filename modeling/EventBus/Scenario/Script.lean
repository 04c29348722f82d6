import EventBus.Bus
import EventBus.Scenario.Recipe

/-!
# Scripts

A scenario sets up buses, subscribers and bare queues and then takes steps. Subscribers either
follow a script of their own or are one of a few fixed characters. Buses, subscribers, maps,
registries, caches, logs, snapshots and queues are called by number.
-/

namespace EventBus.Scenario

structure BindingRef where
  subscriber : Nat
  slot : Nat
  type? : Option EventType

inductive Finder where
  | declared
  | reversed
  | first
  | twice
  | rebound (type : EventType)
  | both (type : EventType)
  | nothing
  | failing (arity : Nat)

inductive Inquiry where
  | isRegistered (bus sub : Nat)
  | count (bus : Nat) (type : EventType)
  | busInfo (bus : Nat)
  | busEq (a b : Nat)
  | failures (bus : Nat)
  | failureCount (bus : Nat)
  | flatten (cache : Nat) (type : EventType)
  | flattenSame (cache : Nat) (type : EventType)
  | cacheSize (cache : Nat)
  | eventType (type : EventType)
  | typeEq (a b : EventType)
  | event (recipe? : Option Recipe)
  | discover (sub : Nat) (finder : Finder) (map : Nat)
  | mapOf (map : Nat) (bindings : List BindingRef)
  | mapInsert (map : Nat) (binding : BindingRef)
  | mapGet (map : Nat) (type : EventType)
  | mapGroups (map : Nat)
  | mapTypes (map : Nat)
  | mapSize (map : Nat)
  | mapDebug (map : Nat)
  | registryPut (registry map : Nat)
  | registryRemove (registry map : Nat)
  | registryContains (registry map : Nat)
  | registryGet (registry : Nat) (type : EventType)
  | registryCount (registry : Nat) (type : EventType)
  | registryResolve (registry : Nat) (types : List EventType)
  | registryTypes (registry : Nat)
  | snapshot (registry : Nat) (type : EventType) (snapshot : Nat)
  | snapshotShow (snapshot : Nat)
  | bindingShow (binding : BindingRef)
  | bindingEq (a b : BindingRef)
  | methodShow (sub slot : Nat)
  | queue (queue : Nat)
  | logPush (log : Nat) (entry : String)
  | log (log : Nat) (entry : String)
  | logShare (log copy : Nat)

inductive Step where
  | ask (inquiry : Inquiry)
  | post (bus : Nat) (event : Recipe)
  | repost (bus : Nat)
  | register (bus sub : Nat)
  | unregister (bus sub : Nat)
  | activate (sub : Nat) (slots : List Nat)
  | clearFailures (bus : Nat)
  | thread (steps : List Step)
  | setSupers (node : Nat) (supers : List EventType)
  | invoke (binding : BindingRef) (event : Recipe)
  | enqueue (queue : Nat) (binding : BindingRef) (event : Recipe)
  | drain (queue : Nat)

inductive Condition where
  | lt (k : Int)
  | ge (k : Int)
  | eq (k : Int)

def Condition.holds (n : Int) : Condition → Bool
  | lt k => n < k
  | ge k => k ≤ n
  | eq k => n == k

inductive Deed where
  | note (message : String)
  | fail (fault : Fault)
  | panic (payload : Panic)
  | step (step : Step)

structure Action where
  conditions : List Condition
  deed : Deed

/-- A method of a scripted subscriber. It acts on its first `limit` calls; a quiet one hides its
failures. -/
structure MethodScript where
  method : Method
  actions : List Action
  limit : Nat
  quiet : Bool

inductive Fixture where
  | orderAudit
  | deadLetters
  | pingCounter (name : String)
  | relay (bus : Nat)
  | fanout (bus : Nat)
  | faulty
  | inspector
  | silent

inductive SubscriberScript where
  | scripted (type : String) (methods : List MethodScript) (active : Option (List Nat))
  | fixture (fixture : Fixture)

inductive SinkScript where
  | record
  | ignore
  | log (name : String)
  | logDefault
  | closure
  | panic (message : String) (on : Option (List Nat))
  | post (bus : Nat) (event : Recipe) (limit : Nat)

inductive BusScript where
  | new
  | named (identifier : String)
  | configured (config : Config)
  | handle (bus : Nat)
  | built (identifier? : Option String) (mode? : Option DispatchMode)
      (sink? : Option SinkScript) (finder? : Option Finder)

structure QueueScript where
  mode : DispatchMode
  sink : SinkScript

structure Script where
  nodes : List (List EventType)
  buses : List BusScript
  subscribers : List SubscriberScript
  queues : List QueueScript
  steps : List Step

end EventBus.Scenario
