import EventBus.HierarchyCache
import EventBus.Proofs.Contents
import Mathlib.Data.List.Basic
import Mathlib.Data.List.Induction

/-!
# First answers

What a cache answers for a type was settled when it was first asked for it. Later requests add entries
behind those that are there, so an entry keeps its place, and there is one for each type asked for.
-/

namespace EventBus

namespace Table

variable {κ β : Type} [DecidableEq κ]

theorem put_of_not_mem {k : κ} (v : β) {es : List (κ × β)} (h : k ∉ es.map (·.1)) :
    put k v es = es ++ [(k, v)] := by
  induction es with
  | nil => rfl
  | cons e es ih =>
    rw [List.map_cons, List.mem_cons, not_or] at h
    rw [put, if_neg (Ne.symm h.1), ih h.2, List.cons_append]

/-- The value of a key stands at the place of the key. -/
theorem exists_place {t : Table κ β} {k : κ} {v : β} (h : t.get? k = some v) :
    ∃ i, t.keys.idxOf? k = some i ∧ t.entries[i]? = some (k, v) := by
  obtain ⟨es⟩ := t
  simp only [get?, keys] at h ⊢
  induction es with
  | nil => cases h
  | cons e es ih =>
    obtain ⟨j, w⟩ := e
    rw [List.map_cons, List.idxOf?_cons]
    by_cases hj : j = k
    · subst hj
      rw [List.lookup_cons_self] at h
      cases h
      exact ⟨0, if_pos (beq_self_eq_true j), rfl⟩
    · rw [List.lookup_cons, (beq_eq_false_iff_ne).mpr (Ne.symm hj)] at h
      obtain ⟨i, hi, hv⟩ := ih h
      refine ⟨i + 1, ?_, hv⟩
      rw [if_neg (by simpa using hj), hi]
      rfl

end Table

namespace HierarchyCache

/-- What a cache is asked: a type, and the graph at the moment it is asked for. -/
structure Lookup where
  graph : TypeGraph
  type : EventType

/-- The first time that `t` was asked for. -/
def first? (asked : List Lookup) (t : EventType) : Option Lookup := asked.find? (·.type = t)

theorem first?_append (asked more : List Lookup) (t : EventType) :
    first? (asked ++ more) t = (first? asked t).or (first? more t) :=
  List.find?_append

def requestAll (c : HierarchyCache) (asked : List Lookup) : HierarchyCache :=
  asked.foldl (fun c l => c.request l.graph l.type) c

theorem requestAll_cons (c : HierarchyCache) (l : Lookup) (asked : List Lookup) :
    c.requestAll (l :: asked) = (c.request l.graph l.type).requestAll asked := rfl

theorem requestAll_append (c : HierarchyCache) (asked more : List Lookup) :
    c.requestAll (asked ++ more) = (c.requestAll asked).requestAll more :=
  List.foldl_append

theorem find?_request (c : HierarchyCache) (g : TypeGraph) (t u : EventType) :
    (c.request g t).find? u = (c.find? u).or (if t = u then some (g.flatten u) else none) := by
  by_cases h : t = u
  · subst h
    rw [find?_request_self, if_pos rfl, flatten]
    cases c.find? t <;> rfl
  · rw [find?_request_ne c g (Ne.symm h), if_neg h, Option.or_none]

/-- An entry is that of the first time its type was asked for. -/
theorem find?_requestAll (asked : List Lookup) (t : EventType) : ∀ c : HierarchyCache,
    (c.requestAll asked).find? t = (c.find? t).or ((first? asked t).map (·.graph.flatten t)) := by
  induction asked with
  | nil => exact fun c => (Option.or_none).symm
  | cons l asked ih =>
    intro c
    rw [requestAll_cons, ih, find?_request, Option.or_assoc]
    by_cases h : l.type = t
    · simp [first?, h]
    · simp [first?, h]

theorem flatten_requestAll (asked : List Lookup) (g : TypeGraph) (t : EventType) :
    (empty.requestAll asked).flatten g t = ((first? asked t).elim g (·.graph)).flatten t := by
  rw [flatten, find?_requestAll, show empty.find? t = none from rfl, Option.none_or]
  cases first? asked t <;> rfl

theorem find?_requestAll_eq_none_iff {asked : List Lookup} {t : EventType} :
    (empty.requestAll asked).find? t = none ↔ t ∉ asked.map (·.type) := by
  rw [find?_requestAll, show empty.find? t = none from rfl, Option.none_or, Option.map_eq_none_iff,
    first?, List.find?_eq_none]
  simp

theorem flatten_requestAll_of_unchanged {asked : List Lookup} {g : TypeGraph}
    (h : ∀ l ∈ asked, l.graph = g) (t : EventType) :
    (empty.requestAll asked).flatten g t = g.flatten t := by
  rw [flatten_requestAll]
  cases hf : first? asked t with
  | none => rfl
  | some l => rw [Option.elim_some, h l (List.mem_of_find?_eq_some hf)]

/-! ## Places -/

theorem entries_request (c : HierarchyCache) (g : TypeGraph) (t : EventType) :
    (c.request g t).stored.entries = c.stored.entries ++
      if t ∈ c.stored.keys then [] else [(t, g.flatten t)] := by
  unfold request
  cases h : c.find? t with
  | some v => rw [if_pos (Table.mem_keys_iff.mpr ⟨v, h⟩), List.append_nil]
  | none =>
    have ht : t ∉ c.stored.keys := fun ht => by
      obtain ⟨v, hv⟩ := Table.mem_keys_iff.mp ht
      cases h.symm.trans hv
    rw [if_neg ht]
    exact Table.put_of_not_mem _ ht

theorem keys_request (c : HierarchyCache) (g : TypeGraph) (t : EventType) :
    (c.request g t).stored.keys =
      c.stored.keys ++ if t ∈ c.stored.keys then [] else [t] := by
  rw [Table.keys, entries_request, List.map_append]
  split <;> rfl

theorem entries_requestAll (asked : List Lookup) : ∀ c : HierarchyCache,
    ∃ more, (c.requestAll asked).stored.entries = c.stored.entries ++ more := by
  induction asked with
  | nil => exact fun c => ⟨[], (List.append_nil _).symm⟩
  | cons l asked ih =>
    intro c
    obtain ⟨more, hmore⟩ := ih (c.request l.graph l.type)
    rw [entries_request, List.append_assoc] at hmore
    exact ⟨_, hmore⟩

/-- There is one entry for each type asked for, in the order in which they came. -/
theorem keys_requestAll (asked : List Lookup) :
    (empty.requestAll asked).stored.keys = (asked.map (·.type)).eraseDups := by
  induction asked using List.reverseRecOn with
  | nil => rfl
  | append_singleton asked l ih =>
    rw [requestAll_append, requestAll_cons, requestAll, List.foldl_nil, keys_request, ih,
      List.map_append, List.eraseDups_append]
    simp only [List.mem_eraseDups, List.map_cons, List.map_nil]
    generalize asked.map (·.type) = types
    by_cases h : l.type ∈ types
    · simp [List.removeAll, h]
    · simp [List.removeAll, h, List.eraseDups_cons]

theorem size_requestAll (asked : List Lookup) :
    (empty.requestAll asked).size = (asked.map (·.type)).eraseDups.length := by
  rw [← keys_requestAll, Table.keys, List.length_map]
  rfl

/-- The allocation with the flattening of `t` is the `i`-th, and holds these types. -/
def Kept (c : HierarchyCache) (t : EventType) (i : Nat) (types : List EventType) : Prop :=
  c.slot? t = some i ∧ c.stored.entries[i]? = some (t, types)

theorem exists_kept {c : HierarchyCache} {t : EventType} {types : List EventType}
    (h : c.find? t = some types) : ∃ i, c.Kept t i types :=
  Table.exists_place h

theorem Kept.requestAll {c : HierarchyCache} {t : EventType} {i : Nat} {types : List EventType}
    (h : c.Kept t i types) (asked : List Lookup) : (c.requestAll asked).Kept t i types := by
  obtain ⟨hslot, hentry⟩ := h
  obtain ⟨more, hmore⟩ := entries_requestAll asked c
  refine ⟨?_, ?_⟩
  · rw [slot?, Table.keys, hmore, List.map_append, List.idxOf?, List.findIdx?_append]
    rw [slot?, Table.keys, List.idxOf?] at hslot
    rw [hslot]
    rfl
  · rw [hmore, List.getElem?_append_left (List.getElem?_eq_some_iff.mp hentry).1]
    exact hentry

theorem slot?_request_ne (c : HierarchyCache) (g : TypeGraph) {t u : EventType} (h : u ≠ t) :
    (c.request g t).slot? u = c.slot? u := by
  simp only [slot?, keys_request, List.idxOf?, List.findIdx?_append]
  split
  · simp
  · simp [List.findIdx?_cons, Ne.symm h]

end HierarchyCache
end EventBus
