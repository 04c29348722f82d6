import EventBus.Machine.Program

/-!
# The machine

A small-step machine for programs. The stack holds what waits for the code at work: the rest of a
program, a call of a handler, the rest of an immediate dispatch, a queue being drained. A handler
call stops every panic; a panic that a sink raises goes on to the nearest call, guard or thread,
and a drain it passes drops its queue.
-/

namespace EventBus

variable {σ ε α : Type}

/-- Who wants the outcome of a call: the program that made it, or a bus that reports failures. -/
inductive Use (σ ε α : Type) where
  | direct (next : Except HandlerError Unit → Program σ ε α)
  | delivery (bus : BusId)

structure Call (σ ε α : Type) where
  delivery : Delivery α
  use : Use σ ε α

inductive Frame (σ ε α : Type) where
  | resume (next : Program σ ε α)
  | call (call : Call σ ε α)
  | report (bus : BusId) (delivery : Delivery α) (error : HandlerError)
  /-- An immediate dispatch with the bindings still to come. -/
  | handing (bus : BusId) (event : Event α) (rest : List Binding)
  | draining (bus : BusId) (owner : ThreadId)
  | guarded (next : Option Panic → Program σ ε α)
  /-- A thread that `parent` waits for. -/
  | joined (parent : ThreadId) (next : Option Panic → Program σ ε α)

inductive Control (σ ε α : Type) where
  | run (program : Program σ ε α)
  | call (call : Call σ ε α)
  | settle (call : Call σ ε α) (outcome : Except HandlerError Unit)
  | report (bus : BusId) (delivery : Delivery α) (error : HandlerError)
  | returned (ending : Ending)
  | unwinding (payload : Panic)

structure Machine (σ ε α : Type) where
  world : World σ ε α
  control : Control σ ε α
  stack : List (Frame σ ε α)

namespace World

def enqueueAll (w : World σ ε α) (b : BusId) (ds : List (Delivery α)) : World σ ε α :=
  w.modifyBus b fun bus => { bus with queues := bus.queues.enqueueAll w.thread ds }

def keep (w : World σ ε α) (b : BusId) (d : Delivery α) (e : HandlerError) : World σ ε α :=
  match (w.bus b).sink with
  | .ignore | .custom _ => w
  | .log name =>
    w.tell (.failed name d.event.type.name d.binding.display (w.showEvent d.event) e.message)
  | .record fs =>
    w.modifyBus b fun bus =>
      { bus with sink := .record (fs ++ [⟨d.event.type, d.binding.display, e.message⟩]) }

/-- Drops the queue of `owner` after a panic, and says so if deliveries are lost. -/
def abandon (w : World σ ε α) (b : BusId) (owner : ThreadId) : World σ ε α :=
  let (lost, queues) := (w.bus b).queues.release owner
  let w := w.modifyBus b fun bus => { bus with queues := queues }
  if lost = 0 then w else w.tell (.discarded lost)

end World

namespace Machine

/-- Starts a drain of the calling thread's queue unless one is under way, then goes on. -/
def drain (w : World σ ε α) (b : BusId) (next : Program σ ε α) (k : List (Frame σ ε α)) :
    Machine σ ε α :=
  match (w.bus b).queues.claim? w.thread with
  | some queues =>
    ⟨w.modifyBus b fun bus => { bus with queues := queues }, .returned .done,
      .draining b w.thread :: .resume next :: k⟩
  | none => ⟨w, .run next, k⟩

def request (w : World σ ε α) (k : List (Frame σ ε α)) : Program σ ε α → Machine σ ε α
  | .finish ending => ⟨w, .returned ending, k⟩
  | .panic payload => ⟨w, .unwinding payload, k⟩
  | .look next => ⟨w, .run (next w), k⟩
  | .store value next => ⟨{ w with store := value }, .run next, k⟩
  | .note entry next => ⟨w.note entry, .run next, k⟩
  | .post b event next =>
    match w.post b event with
    | (w, .dropped) => ⟨w, .run next, k⟩
    | (w, .buried dead) => ⟨w, .run (.post b dead (.finish .done)), .resume next :: k⟩
    | (w, .delivered bindings) =>
      match (w.bus b).config.mode with
      | .immediate => ⟨w, .returned .done, .handing b event bindings :: .resume next :: k⟩
      | .queued => drain (w.enqueueAll b (bindings.map (⟨event, ·⟩))) b next k
  | .register b s next =>
    match w.subscriber? s with
    | none => ⟨w, .run (next (.ok ())), k⟩
    | some sub =>
      match w.register b sub with
      | .ok w => ⟨w, .run (next (.ok ())), k⟩
      | .error e => ⟨w, .run (next (.error e)), k⟩
  | .unregister b s next =>
    match w.subscriber? s with
    | none => ⟨w, .run (next (.ok ())), k⟩
    | some sub =>
      match w.unregister b sub with
      | .ok w => ⟨w, .run (next (.ok ())), k⟩
      | .error e => ⟨w, .run (next (.error e)), k⟩
  | .enqueue b d next =>
    match (w.bus b).config.mode with
    | .immediate => ⟨w, .call ⟨d, .delivery b⟩, .resume next :: k⟩
    | .queued => ⟨w.enqueueAll b [d], .run next, k⟩
  | .drain b next =>
    match (w.bus b).config.mode with
    | .immediate => ⟨w, .run next, k⟩
    | .queued => drain w b next k
  | .invoke binding event next => ⟨w, .call ⟨⟨event, binding⟩, .direct next⟩, k⟩
  | .attempt body next => ⟨w, .run body, .guarded next :: k⟩
  | .spawn body next =>
    ⟨{ w with thread := w.nextThread, nextThread := w.nextThread + 1 }, .run body,
      .joined w.thread next :: k⟩
  | .declare t supers next => ⟨{ w with graph := w.graph.declare t supers }, .run next, k⟩
  | .activate s methods next =>
    ⟨{ w with subscribers := w.subscribers.modify s ({ · with methods := methods }) },
      .run next, k⟩
  | .forget b next =>
    ⟨w.modifyBus b fun bus =>
      match bus.sink with
      | .record _ => { bus with sink := .record [] }
      | _ => bus, .run next, k⟩

def resume (w : World σ ε α) (ending : Ending) (k : List (Frame σ ε α)) :
    Frame σ ε α → Machine σ ε α
  | .resume next => ⟨w, .run next, k⟩
  | .call c => ⟨w, .settle c (c.delivery.binding.method.shape.outcome ending), k⟩
  | .report .. => ⟨w, .returned .done, k⟩
  | .handing _ _ [] => ⟨w, .returned .done, k⟩
  | .handing b event (c :: cs) =>
    ⟨w, .call ⟨⟨event, c⟩, .delivery b⟩, .handing b event cs :: k⟩
  | .draining b owner =>
    match (w.bus b).queues.next owner with
    | (some d, queues) =>
      ⟨w.modifyBus b fun bus => { bus with queues := queues }, .call ⟨d, .delivery b⟩,
        .draining b owner :: k⟩
    | (none, queues) =>
      ⟨w.modifyBus b fun bus => { bus with queues := queues }, .returned .done, k⟩
  | .guarded next => ⟨w, .run (next none), k⟩
  | .joined parent next => ⟨{ w with thread := parent }, .run (next none), k⟩

def unwind (w : World σ ε α) (payload : Panic) (k : List (Frame σ ε α)) :
    Frame σ ε α → Machine σ ε α
  | .resume _ => ⟨w, .unwinding payload, k⟩
  | .call c => ⟨w, .settle c (.error (.panicked payload.message)), k⟩
  | .report .. => ⟨w, .unwinding payload, k⟩
  | .handing .. => ⟨w, .unwinding payload, k⟩
  | .draining b owner => ⟨w.abandon b owner, .unwinding payload, k⟩
  | .guarded next => ⟨w, .run (next (some payload)), k⟩
  | .joined parent next => ⟨{ w with thread := parent }, .run (next (some payload)), k⟩

/-- Calls a handler: its code runs if the target and the event fit the method. -/
def enter (code : Behaviour σ ε α) (w : World σ ε α) (k : List (Frame σ ε α))
    (c : Call σ ε α) : Machine σ ε α :=
  let b := c.delivery.binding
  match b.accept (w.subscriberType b.target) c.delivery.event with
  | .ok event => ⟨w, .run (code.body b.method.body b.target event), .call c :: k⟩
  | .error e => ⟨w, .settle c (.error e), k⟩

def settle (w : World σ ε α) (k : List (Frame σ ε α)) (c : Call σ ε α)
    (outcome : Except HandlerError Unit) : Machine σ ε α :=
  match c.use, outcome with
  | .direct next, o => ⟨w, .run (next o), k⟩
  | .delivery _, .ok () => ⟨w, .returned .done, k⟩
  | .delivery b, .error e => ⟨w, .report b c.delivery e, k⟩

def report (code : Behaviour σ ε α) (w : World σ ε α) (k : List (Frame σ ε α)) (b : BusId)
    (d : Delivery α) (e : HandlerError) : Machine σ ε α :=
  match (w.bus b).sink with
  | .custom id => ⟨w, .run (code.sink id d e), .report b d e :: k⟩
  | _ => ⟨w.keep b d e, .returned .done, k⟩

/-- One step. A machine whose stack is empty has halted once it returned or panicked. -/
def step (code : Behaviour σ ε α) (m : Machine σ ε α) : Machine σ ε α :=
  match m.control, m.stack with
  | .run p, k => request m.world k p
  | .call c, k => enter code m.world k c
  | .settle c o, k => settle m.world k c o
  | .report b d e, k => report code m.world k b d e
  | .returned e, f :: k => resume m.world e k f
  | .unwinding p, f :: k => unwind m.world p k f
  | .returned _, [] => m
  | .unwinding _, [] => m

def result? (m : Machine σ ε α) : Option (Except Panic Ending) :=
  match m.control, m.stack with
  | .returned e, [] => some (.ok e)
  | .unwinding p, [] => some (.error p)
  | _, _ => none

def run (code : Behaviour σ ε α) : Nat → Machine σ ε α → Machine σ ε α
  | 0, m => m
  | fuel + 1, m => if m.result?.isSome then m else run code fuel (m.step code)

end Machine
end EventBus
