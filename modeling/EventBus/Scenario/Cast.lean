import EventBus.Scenario.Answer

/-!
# The cast of a scenario

Who takes part: the methods of each subscriber, which bus each number stands for, how handlers are
found, and the buses and subscribers a scenario starts with.
-/

namespace EventBus.Scenario

namespace Finder

def rebind (t : EventType) (b : Binding) : Binding := { b with type := t }

def change : Finder → List Binding → List Binding
  | declared, bs => bs
  | reversed, bs => bs.reverse
  | first, bs => bs.take 1
  | twice, bs => bs ++ bs
  | rebound t, bs => bs.map (rebind t)
  | both t, bs => bs.flatMap fun b => [b, rebind t b]
  | nothing, _ => []
  | failing _, bs => bs

def discovery : Finder → Discovery
  | nothing => fun _ => .ok .empty
  | failing n => fun _ => .error (.malformedSignature "custom" "none" n)
  | finder => fun s => do
    let m ← Discovery.declared s
    return HandlerMap.ofList (finder.change m.toList)

end Finder

namespace Fixture

def typeName : Fixture → String
  | orderAudit => "driver::sub::OrderAudit"
  | deadLetters => "driver::sub::DeadLetters"
  | pingCounter _ => "driver::sub::PingCounter"
  | relay _ => "driver::sub::Relay"
  | fanout _ => "driver::sub::Fanout"
  | faulty => "driver::sub::Faulty"
  | inspector => "driver::sub::Inspector"
  | silent => "driver::sub::Silent"

def methods (f : Fixture) : List Method :=
  let typed (name type : String) (i : Nat) : Method :=
    .typed f.typeName name (Kind.typeOf type) i
  let erased (name type : String) (i : Nat) : Method :=
    .erased f.typeName name (Kind.typeOf type) i
  match f with
  | orderAudit =>
    [typed "on_shipped" "OrderShipped" 0, typed "on_order" "OrderEvent" 1,
      erased "on_auditable" "Auditable" 2, erased "on_any" "AnyEvent" 3]
  | deadLetters => [typed "on_dead" "DeadEvent" 0]
  | pingCounter _ => [typed "on_ping" "Ping" 0]
  | relay _ => [typed "on_ping" "Ping" 0, typed "on_pong" "Pong" 1]
  | fanout _ => [typed "on_ping" "Ping" 0, typed "on_pong" "Pong" 1]
  | faulty => [typed "rejects" "Ping" 0, typed "panics" "Ping" 1, typed "survives" "Ping" 2]
  | inspector => [erased "on_auditable" "Auditable" 0, erased "on_root" "AnyEvent" 1]
  | silent => []

end Fixture

namespace SubscriberScript

def typeName : SubscriberScript → String
  | scripted t _ _ => t
  | fixture f => f.typeName

def methods : SubscriberScript → List Method
  | scripted _ ms _ => ms.map (·.method)
  | fixture f => f.methods

def active : SubscriberScript → List Method
  | scripted _ ms none => ms.map (·.method)
  | scripted _ ms (some slots) => slots.filterMap fun i => (ms.map (·.method))[i]?
  | fixture f => f.methods

end SubscriberScript

def SinkScript.sink (id : BusId) : SinkScript → Sink
  | record => .record []
  | ignore => .ignore
  | log name => .log name
  | logDefault => .log Config.default.identifier
  | closure | panic .. | post .. => .custom id

/-- The builder of a bus with identity `id`; a further handle of a bus has none of its own. -/
def BusScript.builder? (id : BusId) : BusScript → Option Builder
  | new => some .new
  | named name => some (Builder.new.identifier name)
  | configured c => some (.ofConfig c)
  | handle _ => none
  | built name? mode? sink? finder? =>
    let b := Builder.new
    let b := name?.elim b b.identifier
    let b := mode?.elim b b.dispatch
    let b := sink?.elim b fun s => b.errorSink (s.sink id)
    some (finder?.elim b fun f => b.withDiscovery f.discovery)

def BusScript.sink? : BusScript → Option SinkScript
  | built _ _ sink? _ => sink?
  | _ => none

def QueueScript.builder (id : BusId) (q : QueueScript) : Builder :=
  (Builder.new.dispatch q.mode).errorSink (q.sink.sink id)

structure Cast where
  subscribers : List SubscriberScript
  handles : List BusId
  firstQueue : BusId
  sinks : List (BusId × SinkScript)

namespace Cast

def bus (c : Cast) (i : Nat) : BusId := c.handles[i]?.getD c.firstQueue

def queue (c : Cast) (i : Nat) : BusId := c.firstQueue + i

def method? (c : Cast) (sub slot : Nat) : Option Method :=
  (c.subscribers[sub]?).bind fun s => s.methods[slot]?

def binding? (c : Cast) (r : BindingRef) : Option Binding :=
  (c.method? r.subscriber r.slot).map fun m =>
    ⟨r.subscriber, m, r.type?.getD (m.params.head?.getD .root)⟩

end Cast

def assemble : List BusScript → List BusId → List (Builder × Option SinkScript) →
    List BusId × List (Builder × Option SinkScript)
  | [], handles, built => (handles, built)
  | b :: bs, handles, built =>
    match b.builder? built.length with
    | some builder => assemble bs (handles ++ [built.length]) (built ++ [(builder, b.sink?)])
    | none =>
      match b with
      | .handle of => assemble bs (handles ++ [handles[of]?.getD 0]) built
      | _ => assemble bs handles built

namespace Script

def assembled (s : Script) : List BusId × List (Builder × Option SinkScript) :=
  assemble s.buses [] []

def builders (s : Script) : List (Builder × Option SinkScript) :=
  let n := s.assembled.2.length
  s.assembled.2 ++ s.queues.zipIdx.map fun (q, i) => (q.builder (n + i), some q.sink)

def cast (s : Script) : Cast where
  subscribers := s.subscribers
  handles := s.assembled.1
  firstQueue := s.assembled.2.length
  sinks := s.builders.zipIdx.filterMap fun ((_, sink?), i) => sink?.map ((i, ·))

def stage (s : Script) : Stage where
  graph := Kind.graph s.nodes
  subscribers := s.subscribers.zipIdx.map fun (sub, i) => ⟨i, sub.typeName, sub.active⟩
  buses := s.builders.map (·.1.build)
  thread := 0
  nextThread := 1
  store := .empty
  journal := []

end Script
end EventBus.Scenario
