import EventBus.Bus

/-!
# Worlds

A world holds all that running code can reach: the type graph, the subscribers, the buses, the
thread at work, a store for the code's own use and a journal of what was noted and noticed, oldest
first. `post` reads the registry once and decides what becomes of a posted event.
-/

namespace EventBus

/-- A line of the journal: a note of running code, or a notice of a bus. -/
inductive Happening (ε : Type) where
  | note (entry : ε)
  | notice (notice : Notice)

structure World (σ ε α : Type) where
  graph : TypeGraph
  subscribers : List Subscriber
  buses : List (Bus α)
  thread : ThreadId
  nextThread : ThreadId
  store : σ
  journal : List (Happening ε)

namespace World

variable {σ ε α : Type}

def bus (w : World σ ε α) (b : BusId) : Bus α := w.buses[b]?.getD default

def modifyBus (w : World σ ε α) (b : BusId) (f : Bus α → Bus α) : World σ ε α :=
  { w with buses := w.buses.modify b f }

def subscriber? (w : World σ ε α) (s : SubscriberId) : Option Subscriber := w.subscribers[s]?

def subscriberType (w : World σ ε α) (s : SubscriberId) : String :=
  (w.subscriber? s).elim "" (·.type)

def tell (w : World σ ε α) (n : Notice) : World σ ε α :=
  { w with journal := w.journal ++ [.notice n] }

def note (w : World σ ε α) (e : ε) : World σ ε α :=
  { w with journal := w.journal ++ [.note e] }

def showPiece (w : World σ ε α) : Piece → String
  | .text s => s
  | .bus b => (w.bus b).debug

/-- The text that shows an event; a bus in it is shown as it is now. -/
def showEvent (w : World σ ε α) (e : Event α) : String :=
  String.join (e.pieces.map w.showPiece)

def register (w : World σ ε α) (b : BusId) (s : Subscriber) : Except BusError (World σ ε α) := do
  let (bus, notice) ← (w.bus b).register s
  return (w.modifyBus b fun _ => bus).tell notice

def unregister (w : World σ ε α) (b : BusId) (s : Subscriber) :
    Except BusError (World σ ε α) := do
  let (bus, notice) ← (w.bus b).unregister s
  return (w.modifyBus b fun _ => bus).tell notice

section

variable {w w' : World σ ε α} {b : BusId} {s : Subscriber}

theorem register_eq_ok_iff : w.register b s = .ok w' ↔
    ∃ r, (w.bus b).register s = .ok r ∧ w' = (w.modifyBus b fun _ => r.1).tell r.2 := by
  simp only [register, bind, Except.bind, pure, Except.pure]
  cases (w.bus b).register s <;> simp [eq_comm]

theorem unregister_eq_ok_iff : w.unregister b s = .ok w' ↔
    ∃ r, (w.bus b).unregister s = .ok r ∧ w' = (w.modifyBus b fun _ => r.1).tell r.2 := by
  simp only [unregister, bind, Except.bind, pure, Except.pure]
  cases (w.bus b).unregister s <;> simp [eq_comm]

end

/-! ## Posting -/

def resolve (w : World σ ε α) (b : BusId) (e : Event α) : List Binding :=
  (w.bus b).resolve w.graph e.type

def remember (w : World σ ε α) (b : BusId) (e : Event α) : World σ ε α :=
  w.modifyBus b (·.remember w.graph e.type)

/-- What becomes of a posted event: it goes to its handlers, or a dead event is posted in its
place, or, being a dead event without handlers, it is dropped. -/
inductive Fate (α : Type) where
  | delivered (bindings : List Binding)
  | buried (dead : Event α)
  | dropped

def announce (w : World σ ε α) (b : BusId) (e : Event α) (bs : List Binding) : World σ ε α :=
  let bus := w.bus b
  w.tell (.dispatching bus.config.identifier e.type.name bs.length bus.config.mode.name)

def bury (w : World σ ε α) (b : BusId) (e : Event α) : World σ ε α :=
  w.tell (.unhandled (w.bus b).config.identifier e.type.name)

def drop (w : World σ ε α) (b : BusId) : World σ ε α :=
  w.tell (.dropped (w.bus b).config.identifier)

/-- Reads the registry of `b` once for `e`. The dead event in the place of an event that nobody
handles is not resolved here: it is a post of its own, which reads the registry anew. -/
def post (w : World σ ε α) (b : BusId) (e : Event α) : World σ ε α × Fate α :=
  let w₁ := w.remember b e
  match w.resolve b e with
  | c :: cs => (w₁.announce b e (c :: cs), .delivered (c :: cs))
  | [] =>
    if e.type = .dead then (w₁.drop b, .dropped)
    else (w₁.bury b e, .buried (.dead b e))

end World
end EventBus
