import EventBus.Hierarchy

/-!
# The hierarchy cache

A cache keeps the flattened hierarchy of each type it was asked about. The first answer for a
type stays, whatever the type declares later; entries are never dropped.
-/

namespace EventBus

/-- The flattenings stored so far, oldest first. An entry's place is its identity. -/
structure HierarchyCache where
  stored : Table EventType (List EventType)

namespace HierarchyCache

def empty : HierarchyCache := ⟨.empty⟩

instance : Inhabited HierarchyCache := ⟨empty⟩

def find? (c : HierarchyCache) (t : EventType) : Option (List EventType) := c.stored.get? t

def slot? (c : HierarchyCache) (t : EventType) : Option Nat :=
  c.stored.keys.idxOf? t

/-- The cache after a request for `t`: a missing entry is computed from the graph of the moment. -/
def request (c : HierarchyCache) (g : TypeGraph) (t : EventType) : HierarchyCache :=
  match c.find? t with
  | some _ => c
  | none => ⟨c.stored.set t (g.flatten t)⟩

def flatten (c : HierarchyCache) (g : TypeGraph) (t : EventType) : List EventType :=
  (c.find? t).getD (g.flatten t)

def size (c : HierarchyCache) : Nat := c.stored.size

def isEmpty (c : HierarchyCache) : Bool := c.stored.isEmpty

theorem find?_request_self (c : HierarchyCache) (g : TypeGraph) (t : EventType) :
    (c.request g t).find? t = some (c.flatten g t) := by
  unfold request flatten
  cases h : c.find? t with
  | some v => simpa using h
  | none => simp [find?]

theorem find?_request_ne (c : HierarchyCache) (g : TypeGraph) {t u : EventType} (h : u ≠ t) :
    (c.request g t).find? u = c.find? u := by
  unfold request
  cases c.find? t with
  | some v => rfl
  | none => simp [find?, Table.get?_set_ne _ h]

end HierarchyCache
end EventBus
