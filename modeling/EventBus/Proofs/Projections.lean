import EventBus.Proofs.Derivations
import EventBus.Proofs.Registries
import EventBus.Event
import Mathlib.Data.List.Nodup
import Mathlib.Logic.Relation

/-!
# Families of derived types

A family is a number of types that were derived, generic ones once for each choice of arguments. A
value is seen as another type iff listed supertypes lead there: both the list and the projection come
from the marked fields. It is then the first value of that type in it, parents before later fields.
-/

namespace EventBus

open Source Expansion

/-! ## Values of derived types -/

/-- A derived type: the item, and the types that its paths and the types of its fields stand for. -/
structure Member where
  type : EventType
  item : Item
  implementation : Implementation
  derived : derive item = .ok implementation
  path : Path → EventType
  field : Ty → EventType
  agree : ∀ s ∈ item.listing.supertypes, ∀ p ∈ item.parents, pathText s = parentText p →
    path s = field p.type

/-- The event of a value whose fields hold these: an implementation without parents projects to the
value alone, as an event does by default. -/
def Expansion.Implementation.event {α : Type} (i : Implementation) (type : EventType) (data : α)
    (description : List Piece) (field : Selector → Event α) : Event α :=
  if i.parents.isEmpty then .leaf type data description
  else .derived type data description (i.parents.map field)

/-- A value of a derived type with what its marked fields hold, or any other event. -/
inductive Value (α : Type) where
  | plain (event : Event α)
  | derived (member : Member) (data : α) (description : List Piece) (field : Selector → Value α)

namespace Value

variable {α : Type}

def event : Value α → Event α
  | plain e => e
  | derived m d s field => m.implementation.event m.type d s fun x => (field x).event

/-- The value and what is in its marked fields, depth first in the order of their declaration. -/
def preorder : Value α → List (Event α)
  | plain e => [e]
  | derived m d s field =>
    (derived m d s field).event :: m.item.parents.flatMap fun p => (field p.selector).preorder

end Value

structure Family where
  members : List Member
  distinct : (members.map (·.type)).Nodup
  /-- The root is declared by hand. -/
  proper : ∀ m ∈ members, m.type ≠ .root

namespace Family

def Supertype (F : Family) (t u : EventType) : Prop :=
  ∃ m ∈ F.members, m.type = t ∧ ∃ s ∈ m.item.listing.supertypes, m.path s = u

/-- Listed supertypes lead from `t` to `u`. -/
def Reaches (F : Family) : EventType → EventType → Prop := Relation.ReflTransGen F.Supertype

/-- The members declare in the graph what their implementations list. -/
def Declared (F : Family) (g : TypeGraph) : Prop :=
  ∀ m ∈ F.members, g.supertypes m.type = m.implementation.listed.map m.path

variable {α : Type}

/-- What is a value of the type: for a member one with values of their types in its marked fields,
and for another type an event that projects as by default. -/
inductive Has (F : Family) : EventType → Value α → Prop
  | plain {e : Event α} : (∀ m ∈ F.members, m.type ≠ e.type) →
      (∀ u, e.project? u = if u = e.type then some e else none) → Has F e.type (.plain e)
  | derived {m : Member} {data : α} {description : List Piece} {field : Selector → Value α} :
      m ∈ F.members → (∀ p ∈ m.item.parents, Has F (m.field p.type) (field p.selector)) →
        Has F m.type (.derived m data description field)

variable {F : Family}

/-! ## Lists and projections -/

theorem supertype_iff {m : Member} (hm : m ∈ F.members) {u : EventType} :
    F.Supertype m.type u ↔ ∃ p ∈ m.item.parents, m.field p.type = u := by
  obtain ⟨hheld, hlisted⟩ := mismatches_eq_nil_iff.mp (derive_eq_ok m.derived).1
  constructor
  · rintro ⟨m', hm', ht, s, hs, rfl⟩
    obtain rfl : m' = m := List.inj_on_of_nodup_map F.distinct hm' hm ht
    obtain ⟨p, hp, hps⟩ := hheld s hs
    exact ⟨p, hp, (m'.agree s hs p hp hps.symm).symm⟩
  · rintro ⟨p, hp, rfl⟩
    obtain ⟨s, hs, hsp⟩ := hlisted p hp
    exact ⟨m, hm, rfl, s, hs, m.agree s hs p hp hsp⟩

theorem reaches_iff {m : Member} (hm : m ∈ F.members) {u : EventType} :
    F.Reaches m.type u ↔ u = m.type ∨ ∃ p ∈ m.item.parents, F.Reaches (m.field p.type) u := by
  constructor
  · intro h
    rcases h.cases_head with h | ⟨t, hs, h⟩
    · exact .inl h.symm
    · obtain ⟨p, hp, rfl⟩ := (supertype_iff hm).mp hs
      exact .inr ⟨p, hp, h⟩
  · rintro (rfl | ⟨p, hp, h⟩)
    · exact .refl
    · exact .head ((supertype_iff hm).mpr ⟨p, hp, rfl⟩) h

theorem reaches_iff_eq {t u : EventType} (ht : ∀ m ∈ F.members, m.type ≠ t) :
    F.Reaches t u ↔ u = t := by
  constructor
  · intro h
    rcases h.cases_head with h | ⟨x, ⟨m, hm, hx, -⟩, -⟩
    · exact h.symm
    · exact absurd hx (ht m hm)
  · rintro rfl
    exact .refl

/-- An implementation projects to the value or, through its parents in order, to what they have. -/
theorem project?_derived (m : Member) (d : α) (s : List Piece) (field : Selector → Value α)
    (u : EventType) :
    (Value.derived m d s field).event.project? u =
      if u = m.type then some (Value.derived m d s field).event
      else m.item.parents.findSome? fun p => (field p.selector).event.project? u := by
  rw [Value.event, Implementation.event, (derive_eq_ok m.derived).2]
  cases hp : m.item.parents with
  | nil =>
    simp only [List.map_nil, List.isEmpty_nil, if_true, Event.leaf, Event.project?_value,
      List.findSome?_nil]
    split <;> rfl
  | cons p ps =>
    simp only [List.map_cons, List.isEmpty_cons, Bool.false_eq_true, if_false, Event.project?_derived]
    simp only [List.findSome?_cons, List.findSome?_map, List.map_map, Function.comp_def]

theorem Has.type {t : EventType} {v : Value α} (h : F.Has t v) : v.event.type = t := by
  cases h with
  | plain _ _ => rfl
  | derived _ _ =>
    rw [Value.event, Implementation.event]
    split <;> rfl

/-- A projection finds the first value of the type, its own value first. -/
theorem Has.project?_eq_find? {t : EventType} {v : Value α} (h : F.Has t v) (u : EventType) :
    v.event.project? u = v.preorder.find? (·.type = u) := by
  induction h with
  | @plain e _ hproject =>
    rw [Value.event, hproject, Value.preorder, List.find?_singleton]
    simp [eq_comm]
  | @derived m d s field hm hp ih =>
    have htype : (Value.derived m d s field).event.type = m.type := (Has.derived hm hp).type
    rw [project?_derived, Value.preorder, List.find?_cons, htype, List.find?_flatMap]
    by_cases hu : u = m.type
    · simp [hu]
    · rw [if_neg hu, decide_eq_false (Ne.symm hu)]
      rw [← List.head?_filterMap, ← List.head?_filterMap, List.filterMap_congr ih]

theorem Has.isSome_project?_iff {t : EventType} {v : Value α} (h : F.Has t v) (u : EventType) :
    (v.event.project? u).isSome ↔ F.Reaches t u := by
  induction h with
  | @plain e ht hproject =>
    rw [Value.event, hproject, reaches_iff_eq ht]
    split <;> simp [*]
  | @derived m d s field hm _ ih =>
    rw [project?_derived, reaches_iff hm]
    by_cases hu : u = m.type
    · simp [hu]
    · rw [if_neg hu, List.findSome?_isSome_iff, or_iff_right hu]
      exact exists_congr fun p => and_congr_right (ih p)

theorem Has.view?_eq_project? {t : EventType} {v : Value α} (h : F.Has t v) (u : EventType) :
    v.event.view? u = v.event.project? u := by
  rw [Event.view?, h.project?_eq_find? u]
  cases hf : v.preorder.find? (·.type = u) with
  | none => rfl
  | some e =>
    have he : e.type = u := by simpa using List.find?_some hf
    exact if_pos he

/-! ## Flattenings -/

theorem Reaches.mem_flatten {g : TypeGraph} (hg : F.Declared g) {t u : EventType} (h : F.Reaches t u) :
    u ∈ g.flatten t := by
  induction h with
  | refl => exact g.mem_flatten_self t
  | tail _ hs ih =>
    obtain ⟨m, hm, rfl, s, hs, rfl⟩ := hs
    refine TypeGraph.mem_flatten_of_supertype ih (F.proper m hm) ?_
    rw [hg m hm, (derive_eq_ok m.derived).2]
    exact List.mem_map_of_mem (List.mem_append_left _ hs)

end Family
end EventBus
