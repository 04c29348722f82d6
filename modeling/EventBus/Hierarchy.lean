import EventBus.EventType

/-!
# The flattened hierarchy of a type

`TypeGraph.flatten` lists every type a handler of a given concrete type may be declared on: the
type itself, what it reaches through direct supertypes, breadth first in declaration order, and
the root last. Graphs may have cycles, repeated edges and edges to the root.
-/

namespace EventBus
namespace TypeGraph

/-- How many declared types are not yet listed; it bounds the search. -/
def unlisted (g : TypeGraph) (listed : List EventType) : Nat :=
  g.declared.entries.countP fun e => decide (e.1 ∉ listed)

theorem unlisted_append_le (g : TypeGraph) (listed : List EventType) (t : EventType) :
    g.unlisted (listed ++ [t]) ≤ g.unlisted listed :=
  List.countP_mono_left (by simp +contextual)

theorem unlisted_append_lt (g : TypeGraph) {listed : List EventType} {t : EventType}
    (hk : ∃ e ∈ g.declared.entries, e.1 = t) (ht : t ∉ listed) :
    g.unlisted (listed ++ [t]) < g.unlisted listed := by
  obtain ⟨e, he, rfl⟩ := hk
  obtain ⟨l₁, l₂, h⟩ := List.append_of_mem he
  have h₁ := unlisted_append_le ⟨⟨l₁⟩⟩ listed e.1
  have h₂ := unlisted_append_le ⟨⟨l₂⟩⟩ listed e.1
  simp only [unlisted] at h₁ h₂
  simp only [unlisted, h, List.countP_append, List.countP_cons]
  simp only [List.mem_append, List.mem_singleton, or_true, not_true, ht, not_false_eq_true,
    decide_true, decide_false] at h₁ h₂ ⊢
  simp only [Bool.false_eq_true, if_false, if_true]
  omega

theorem exists_declared_of_supertypes_ne_nil {g : TypeGraph} {t : EventType}
    (h : g.supertypes t ≠ []) : ∃ e ∈ g.declared.entries, e.1 = t := by
  unfold supertypes at h
  cases hl : g.declared.get? t with
  | none => simp [hl] at h
  | some v =>
    obtain ⟨l₁, l₂, heq, -⟩ := List.lookup_eq_some_iff.1 hl
    exact ⟨(t, v), by simp [heq], rfl⟩

/-- Breadth-first search: `listed` is what was met so far, in order, and `pending` the queue. -/
def explore (g : TypeGraph) (listed : List EventType) : List EventType → List EventType
  | [] => listed
  | t :: pending =>
    if t.isRoot ∨ t ∈ listed then
      explore g listed pending
    else
      explore g (listed ++ [t]) (pending ++ g.supertypes t)
termination_by pending => (g.unlisted listed, pending.length)
decreasing_by
  · exact Prod.Lex.right _ (by simp)
  · rename_i h
    have ht : t ∉ listed := fun hm => h (.inr hm)
    by_cases hs : g.supertypes t = []
    · rcases Nat.lt_or_eq_of_le (g.unlisted_append_le listed t) with hlt | heq
      · exact Prod.Lex.left _ _ hlt
      · rw [heq]
        exact Prod.Lex.right _ (by simp [hs])
    · exact Prod.Lex.left _ _ (g.unlisted_append_lt (exists_declared_of_supertypes_ne_nil hs) ht)

/-- Every type a handler for `concrete` may be declared on, the root last. -/
def flatten (g : TypeGraph) (concrete : EventType) : List EventType :=
  g.explore [] [concrete] ++ [EventType.root]

theorem flatten_root (g : TypeGraph) : g.flatten EventType.root = [EventType.root] := by
  simp [flatten, explore, EventType.isRoot]

end TypeGraph
end EventBus
