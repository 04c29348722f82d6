import EventBus.Table

/-!
# Event types and the type graph

An event type is an identity with a printable name. The graph says which direct supertypes each
type declares; a type without an entry declares none. The root stands above every type and is
never listed.
-/

namespace EventBus

structure EventType where
  id : Nat
  name : String
deriving DecidableEq, Repr

namespace EventType

def root : EventType := ⟨0, "eventide_core::event::AnyEvent"⟩

/-- The type of the event that stands in for an undeliverable one. -/
def dead : EventType := ⟨1, "eventide::dead::DeadEvent"⟩

def isRoot (t : EventType) : Bool := t == root

theorem isRoot_iff {t : EventType} : t.isRoot = true ↔ t = root := by simp [isRoot]

end EventType

structure TypeGraph where
  declared : Table EventType (List EventType)

namespace TypeGraph

def supertypes (g : TypeGraph) (t : EventType) : List EventType :=
  (g.declared.get? t).getD []

def declare (g : TypeGraph) (t : EventType) (supers : List EventType) : TypeGraph :=
  ⟨g.declared.set t supers⟩

theorem supertypes_declare_self (g : TypeGraph) (t : EventType) (supers : List EventType) :
    (g.declare t supers).supertypes t = supers := by
  simp [declare, supertypes]

theorem supertypes_declare_ne (g : TypeGraph) {t u : EventType} (h : u ≠ t)
    (supers : List EventType) : (g.declare t supers).supertypes u = g.supertypes u := by
  simp [declare, supertypes, Table.get?_set_ne _ h]

end TypeGraph

end EventBus
