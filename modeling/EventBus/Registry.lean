import EventBus.HandlerMap

/-!
# The handler registry

A registry holds the bindings registered for each event type. Maps are merged in whole and taken
out in whole: a withdrawal that names a binding the registry does not hold changes nothing.
-/

namespace EventBus

structure Registry where
  handlers : Table EventType (List Binding)

namespace Registry

def empty : Registry := ⟨.empty⟩

instance : Inhabited Registry := ⟨empty⟩

def get (r : Registry) (t : EventType) : List Binding := (r.handlers.get? t).getD []

/-- `current`, followed by those of `incoming` that it does not hold. -/
def merge (current incoming : List Binding) : List Binding :=
  incoming.foldl (fun bs b => if b.isIn bs then bs else bs ++ [b]) current

def putGroup (r : Registry) (g : EventType × List Binding) : Registry :=
  ⟨r.handlers.set g.1 (merge (r.get g.1) g.2)⟩

def putAll (r : Registry) (m : HandlerMap) : Registry := m.groups.entries.foldl putGroup r

def missing? (r : Registry) (m : HandlerMap) : Option Binding :=
  m.groups.entries.findSome? fun g => g.2.find? fun b => !b.isIn (r.get g.1)

/-- Takes a group out; a type left without bindings goes with it. -/
def removeGroup (r : Registry) (g : EventType × List Binding) : Registry :=
  match r.handlers.get? g.1 with
  | none => r
  | some current =>
    match current.filter fun b => !b.isIn g.2 with
    | [] => ⟨r.handlers.erase g.1⟩
    | rest => ⟨r.handlers.set g.1 rest⟩

/-- Takes every binding of the map out, or none if one of them is not registered. -/
def removeAll (r : Registry) (m : HandlerMap) : Except BusError Registry :=
  match r.missing? m with
  | some b => .error (.unknownSubscriber b.subscriberName)
  | none => .ok (m.groups.entries.foldl removeGroup r)

def containsAll (r : Registry) (m : HandlerMap) : Bool :=
  m.groups.entries.all fun g =>
    match r.handlers.get? g.1 with
    | some current => g.2.all (·.isIn current)
    | none => false

def resolve (r : Registry) (types : List EventType) : List Binding := types.flatMap r.get

def count (r : Registry) (t : EventType) : Nat := (r.get t).length

def types (r : Registry) : List EventType := r.handlers.keys

def isEmpty (r : Registry) : Bool := r.handlers.isEmpty

theorem get_putGroup_self (r : Registry) (g : EventType × List Binding) :
    (r.putGroup g).get g.1 = merge (r.get g.1) g.2 := by
  simp [putGroup, get]

theorem get_putGroup_ne (r : Registry) {g : EventType × List Binding} {t : EventType}
    (h : t ≠ g.1) : (r.putGroup g).get t = r.get t := by
  simp [putGroup, get, Table.get?_set_ne _ h]

theorem get_removeGroup_self (r : Registry) (g : EventType × List Binding) :
    (r.removeGroup g).get g.1 = (r.get g.1).filter fun b => !b.isIn g.2 := by
  unfold removeGroup
  split
  · rename_i h; simp [get, h]
  · rename_i current h
    split
    · rename_i hf; simp [get, h, hf]
    · simp [get, h]

theorem get_removeGroup_ne (r : Registry) {g : EventType × List Binding} {t : EventType}
    (h : t ≠ g.1) : (r.removeGroup g).get t = r.get t := by
  unfold removeGroup
  split
  · rfl
  · split
    · simp [get, Table.get?_erase_ne _ h]
    · simp [get, Table.get?_set_ne _ h]

end Registry
end EventBus
