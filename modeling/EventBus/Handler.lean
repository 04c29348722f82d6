import EventBus.Error
import EventBus.Event

/-!
# Handler methods and bindings

A method describes one handling method of a subscriber type. A binding ties a method to one
subscriber and one event type; bindings are what registries store and buses invoke.
-/

namespace EventBus

open Text

def EventType.debug (t : EventType) : String := tuple "EventType" [quoted t.name]

abbrev SubscriberId := Nat

abbrev BodyId := Nat

inductive Shape where
  | raw
  | typed (param : EventType)
  | erased
deriving DecidableEq, Repr

/-- A handling method. A typed or erased one needs a target whose type is its owner. -/
structure Method where
  owner : String
  name : String
  params : List EventType
  shape : Shape
  body : BodyId
deriving DecidableEq, Repr

namespace Method

def raw (owner name : String) (params : List EventType) (body : BodyId) : Method :=
  ⟨owner, name, params, .raw, body⟩

def typed (owner name : String) (param : EventType) (body : BodyId) : Method :=
  ⟨owner, name, [param], .typed param, body⟩

def erased (owner name : String) (param : EventType) (body : BodyId) : Method :=
  ⟨owner, name, [param], .erased, body⟩

def debug (m : Method) : String :=
  openRecord "HandlerMethod"
    [("owner", quoted m.owner), ("name", quoted m.name),
      ("params", list (m.params.map EventType.debug))]

end Method

/-- The outcome of a call whose code came to an end: an error that a typed or erased method
returns is a failure of the handler, whatever it is. -/
def Shape.outcome : Shape → Ending → Except HandlerError Unit
  | _, .done => .ok ()
  | _, .fault f => .error (.failed f)
  | .raw, .error e => .error e
  | .typed _, .error e => .error (.failed e.toFault)
  | .erased, .error e => .error (.failed e.toFault)

structure Binding where
  target : SubscriberId
  method : Method
  type : EventType
deriving DecidableEq, Repr

namespace Binding

/-- Two bindings are the same iff they agree on target, method name and event type. -/
def same (b c : Binding) : Bool :=
  b.target == c.target && b.method.name == c.method.name && b.type == c.type

def isIn (b : Binding) (bs : List Binding) : Bool := bs.any (·.same b)

def subscriberName (b : Binding) : String := b.method.owner

def display (b : Binding) : String :=
  b.method.owner ++ "::" ++ b.method.name ++ "(" ++ b.type.name ++ ")"

def debug (b : Binding) : String :=
  record "HandlerBinding"
    [("target", "<s" ++ toString b.target ++ ">"), ("method", quoted b.method.name),
      ("event_type", b.type.debug)]

theorem same_iff {b c : Binding} :
    b.same c = true ↔ b.target = c.target ∧ b.method.name = c.method.name ∧ b.type = c.type := by
  simp [same, and_assoc]

theorem same_refl (b : Binding) : b.same b = true := by simp [same]

theorem same_comm (b c : Binding) : b.same c = c.same b := by
  simp only [same, Bool.beq_comm]

theorem same_trans {a b c : Binding} (h : a.same b = true) (h' : b.same c = true) :
    a.same c = true := by
  rw [same_iff] at *
  exact ⟨h.1.trans h'.1, h.2.1.trans h'.2.1, h.2.2.trans h'.2.2⟩

theorem isIn_iff {b : Binding} {bs : List Binding} :
    b.isIn bs = true ↔ ∃ c ∈ bs, c.same b = true := by
  simp [isIn]

/-- What a call does first: the code's input, if the target and the event fit the method. -/
def accept {α : Type} (b : Binding) (targetType : String) (event : Event α) :
    Except HandlerError (Event α) :=
  match b.method.shape with
  | .raw => .ok event
  | .erased =>
    if targetType = b.method.owner then .ok event
    else .error (.subscriberMismatch b.method.owner)
  | .typed param =>
    if targetType = b.method.owner then
      match event.view? param with
      | some view => .ok view
      | none => .error (.eventMismatch param.name event.type.name)
    else .error (.subscriberMismatch b.method.owner)

end Binding
end EventBus
