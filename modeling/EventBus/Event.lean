import EventBus.EventType

/-!
# Events

An event is a value of a concrete type. A handler on a supertype sees it through a projection:
the type decides what part of the value, if any, stands for a target type. A dead event wraps an
event that no handler wanted, with the bus it was posted to.
-/

namespace EventBus

abbrev BusId := Nat

/-- A piece of an event's description: fixed text, or a bus as it is when shown. -/
inductive Piece where
  | text (s : String)
  | bus (id : BusId)
deriving DecidableEq, Repr

inductive Projection (β : Type) where
  | nothing
  | whole
  | part (value : β)

def Projection.get {β : Type} (self : β) : Projection β → Option β
  | nothing => none
  | whole => some self
  | part p => some p

inductive Event (α : Type) where
  | value (type : EventType) (data : α) (description : List Piece)
      (project : EventType → Projection (Event α))
  | dead (source : BusId) (event : Event α)

namespace Event

variable {α : Type}

def type : Event α → EventType
  | value t _ _ _ => t
  | dead _ _ => .dead

def data? : Event α → Option α
  | value _ d _ _ => some d
  | dead _ _ => none

def pieces : Event α → List Piece
  | value _ _ d _ => d
  | dead source event =>
    [.text "DeadEvent \x7b source: ", .bus source, .text ", event: "] ++ event.pieces ++
      [.text " \x7d"]

def project? (e : Event α) (target : EventType) : Option (Event α) :=
  match e with
  | value _ _ _ project => (project target).get e
  | dead _ _ => if target = .dead then some e else none

/-- The event as a value of type `target`: what the projection finds, if it has that very type. -/
def view? (e : Event α) (target : EventType) : Option (Event α) :=
  match e.project? target with
  | some p => if p.type = target then some p else none
  | none => none

def isOf (e : Event α) (t : EventType) : Bool := e.type == t

def leaf (type : EventType) (data : α) (description : List Piece) : Event α :=
  value type data description fun target => if target = type then .whole else .nothing

/-- A value that stands for its own type, and else for what the first of its parents with an
answer finds. -/
def derived (type : EventType) (data : α) (description : List Piece)
    (parents : List (Event α)) : Event α :=
  value type data description fun target =>
    if target = type then .whole
    else match parents.findSome? (·.project? target) with
      | some p => .part p
      | none => .nothing

theorem type_of_view? {e p : Event α} {t : EventType} (h : e.view? t = some p) : p.type = t := by
  unfold view? at h
  split at h
  · split at h
    · cases h; assumption
    · cases h
  · cases h

theorem project?_value (t u : EventType) (d : α) (s : List Piece)
    (p : EventType → Projection (Event α)) :
    (value t d s p).project? u = (p u).get (value t d s p) := rfl

theorem project?_derived (t u : EventType) (d : α) (s : List Piece) (ps : List (Event α)) :
    (derived t d s ps).project? u =
      if u = t then some (derived t d s ps) else ps.findSome? (·.project? u) := by
  conv => lhs; rw [derived, project?_value]
  by_cases h : u = t
  · simp [h, Projection.get, derived]
  · simp only [h, if_false]
    cases ps.findSome? (·.project? u) <;> rfl

end Event
end EventBus
