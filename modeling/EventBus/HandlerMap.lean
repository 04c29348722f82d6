import EventBus.Handler
import EventBus.Table

/-!
# Handler maps

The bindings found on a subscriber, grouped by event type. Types keep the order in which they
first came, bindings keep theirs within a type, and no group holds the same binding twice.
-/

namespace EventBus

open Text

structure Grouping (groups : Table EventType (List Binding)) : Prop where
  distinct : groups.keys.Nodup
  inhabited : ∀ g ∈ groups.entries, g.2 ≠ []
  keyed : ∀ g ∈ groups.entries, ∀ b ∈ g.2, b.type = g.1
  single : ∀ g ∈ groups.entries, g.2.Pairwise fun b c => b.same c = false

structure HandlerMap where
  groups : Table EventType (List Binding)
  grouping : Grouping groups

namespace Grouping

theorem empty : Grouping .empty where
  distinct := List.nodup_nil
  inhabited _ h := by cases h
  keyed _ h := by cases h
  single _ h := by cases h

theorem of_get? {groups : Table EventType (List Binding)} (h : Grouping groups) (t : EventType) :
    (∀ b ∈ (groups.get? t).getD [], b.type = t) ∧
      ((groups.get? t).getD []).Pairwise fun b c => b.same c = false := by
  cases hg : groups.get? t with
  | none => simp
  | some bs =>
    have hm := Table.mem_of_get? hg
    exact ⟨h.keyed _ hm, h.single _ hm⟩

theorem set {groups : Table EventType (List Binding)} (h : Grouping groups) {b : Binding}
    (hb : b.isIn ((groups.get? b.type).getD []) = false) :
    Grouping (groups.set b.type ((groups.get? b.type).getD [] ++ [b])) := by
  obtain ⟨hk, hs⟩ := h.of_get? b.type
  refine ⟨Table.nodup_keys_set h.distinct _ _, fun g hg => ?_, fun g hg c hc => ?_, fun g hg => ?_⟩
  · rcases Table.mem_set hg with rfl | hg
    · simp
    · exact h.inhabited g hg
  · rcases Table.mem_set hg with rfl | hg
    · rcases List.mem_append.mp hc with hc | hc
      · exact hk c hc
      · rw [List.mem_singleton.mp hc]
    · exact h.keyed g hg c hc
  · rcases Table.mem_set hg with rfl | hg
    · refine List.pairwise_append.mpr ⟨hs, List.pairwise_singleton _ _, fun c hc d hd => ?_⟩
      rw [List.mem_singleton.mp hd]
      simpa using List.any_eq_false.mp hb c hc
    · exact h.single g hg

end Grouping

namespace HandlerMap

def empty : HandlerMap := ⟨.empty, .empty⟩

instance : Inhabited HandlerMap := ⟨empty⟩

def get (m : HandlerMap) (t : EventType) : List Binding := (m.groups.get? t).getD []

def contains (m : HandlerMap) (b : Binding) : Bool := b.isIn (m.get b.type)

/-- Adds `b` to the group of its type, unless it is there already. -/
def insert (m : HandlerMap) (b : Binding) : HandlerMap :=
  if h : m.contains b then m
  else ⟨m.groups.set b.type (m.get b.type ++ [b]), m.grouping.set (Bool.eq_false_iff.mpr h)⟩

/-- What an insertion of `b` answers. -/
def isNew (m : HandlerMap) (b : Binding) : Bool := !m.contains b

def ofList (bs : List Binding) : HandlerMap := bs.foldl insert empty

def toList (m : HandlerMap) : List Binding := m.groups.values.flatten

def types (m : HandlerMap) : List EventType := m.groups.keys

def size (m : HandlerMap) : Nat := m.toList.length

def isEmpty (m : HandlerMap) : Bool := m.groups.isEmpty

/-- The type name of the subscriber the map was found on, as its first binding tells. -/
def owner? (m : HandlerMap) : Option String :=
  m.groups.values.findSome? fun bs => bs.head?.map (·.subscriberName)

def debug (m : HandlerMap) : String :=
  record "HandlerMap"
    [("entries", list (m.groups.entries.map fun g =>
      tuple "" [g.1.debug, list (g.2.map Binding.debug)]))]

theorem get_insert_self (m : HandlerMap) (b : Binding) :
    (m.insert b).get b.type = if m.contains b then m.get b.type else m.get b.type ++ [b] := by
  unfold insert
  split <;> simp [get]

theorem get_insert_ne (m : HandlerMap) {b : Binding} {t : EventType} (h : t ≠ b.type) :
    (m.insert b).get t = m.get t := by
  unfold insert
  split
  · rfl
  · simp [get, Table.get?_set_ne _ h]

end HandlerMap
end EventBus
