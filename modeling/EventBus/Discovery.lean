import EventBus.HandlerMap

/-!
# Subscribers and discovery

A subscriber lists its handling methods. A discovery strategy turns the list into bindings; the
declared one binds each method to its only parameter type and refuses the whole subscriber if
some method has none or several.
-/

namespace EventBus

structure Subscriber where
  id : SubscriberId
  type : String
  methods : List Method

abbrev Discovery := Subscriber → Except BusError HandlerMap

namespace Discovery

def bind (target : SubscriberId) (m : Method) : Except BusError Binding :=
  match m.params with
  | [t] => .ok ⟨target, m, t⟩
  | ps => .error (.malformedSignature m.owner m.name ps.length)

def declared : Discovery := fun s => do
  let bs ← s.methods.mapM (bind s.id)
  return HandlerMap.ofList bs

end Discovery
end EventBus
