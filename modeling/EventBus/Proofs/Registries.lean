import EventBus.HierarchyCache
import EventBus.Registry

/-!
# Registries and flattenings in order

Three facts carry routing: a registry keeps every binding under its own type, no type has the same
binding twice, and no flattening lists a type twice. With a type it lists the supertypes.
-/

namespace EventBus

/-- Among bindings of which no two are the same, one that is there is found once. -/
theorem Binding.countP_same {b : Binding} {bs : List Binding}
    (hs : bs.Pairwise fun b c => b.same c = false) (hb : b ∈ bs) : bs.countP b.same = 1 := by
  obtain ⟨front, back, rfl⟩ := List.append_of_mem hb
  obtain ⟨-, hback, hfront⟩ := List.pairwise_append.mp hs
  have hf : front.countP b.same = 0 := by
    rw [List.countP_eq_zero]
    intro c hc
    rw [same_comm, hfront c hc b (List.mem_cons_self ..)]
    exact Bool.false_ne_true
  have hk : back.countP b.same = 0 := by
    rw [List.countP_eq_zero]
    intro c hc
    rw [(List.pairwise_cons.mp hback).1 c hc]
    exact Bool.false_ne_true
  rw [List.countP_append, List.countP_cons, hf, hk, same_refl]
  rfl

/-! ## Registries -/

namespace Registry

structure Orderly (r : Registry) : Prop where
  keyed : ∀ t, ∀ b ∈ r.get t, b.type = t
  single : ∀ t, (r.get t).Pairwise fun b c => b.same c = false

theorem mem_merge {b : Binding} : ∀ {incoming current : List Binding},
    b ∈ merge current incoming → b ∈ current ∨ b ∈ incoming
  | [], _, h => .inl h
  | c :: cs, current, h => by
    rw [merge, List.foldl_cons, ← merge] at h
    rcases mem_merge h with h | h
    · split at h
      · exact .inl h
      · rcases List.mem_append.mp h with h | h
        · exact .inl h
        · exact .inr (List.mem_singleton.mp h ▸ List.mem_cons_self ..)
    · exact .inr (List.mem_cons_of_mem c h)

theorem single_merge : ∀ {incoming current : List Binding},
    current.Pairwise (fun b c => b.same c = false) →
      (merge current incoming).Pairwise fun b c => b.same c = false
  | [], _, h => h
  | c :: cs, current, h => by
    rw [merge, List.foldl_cons, ← merge]
    apply single_merge
    split
    · exact h
    · rename_i hc
      refine List.pairwise_append.mpr ⟨h, List.pairwise_singleton _ _, fun a ha b hb => ?_⟩
      rw [List.mem_singleton.mp hb, Bool.eq_false_iff]
      intro hac
      exact hc (Binding.isIn_iff.mpr ⟨a, ha, hac⟩)

namespace Orderly

variable {r : Registry}

theorem empty : Orderly .empty where
  keyed _ _ h := by cases h
  single _ := List.Pairwise.nil

theorem putGroup (h : r.Orderly) {g : EventType × List Binding} (hg : ∀ b ∈ g.2, b.type = g.1) :
    (r.putGroup g).Orderly := by
  refine ⟨fun t => ?_, fun t => ?_⟩
  · intro b hb
    by_cases ht : t = g.1
    · subst ht
      rw [get_putGroup_self] at hb
      exact (mem_merge hb).elim (h.keyed _ b) (hg b)
    · rw [get_putGroup_ne r ht] at hb
      exact h.keyed t b hb
  · by_cases ht : t = g.1
    · subst ht
      rw [get_putGroup_self]
      exact single_merge (h.single _)
    · rw [get_putGroup_ne r ht]
      exact h.single t

theorem putAll (h : r.Orderly) (m : HandlerMap) : (r.putAll m).Orderly := by
  have fold : ∀ (gs : List (EventType × List Binding)) (r : Registry), r.Orderly →
      (∀ g ∈ gs, ∀ b ∈ g.2, b.type = g.1) → (gs.foldl Registry.putGroup r).Orderly := by
    intro gs
    induction gs with
    | nil => exact fun _ h _ => h
    | cons g gs ih =>
      intro r h hg
      exact ih _ (h.putGroup (hg g (List.mem_cons_self ..)))
        fun g' hg' => hg g' (List.mem_cons_of_mem g hg')
  exact fold _ r h m.grouping.keyed

theorem of_sublist (h : r.Orderly) {r' : Registry} (hs : ∀ t, List.Sublist (r'.get t) (r.get t)) :
    r'.Orderly where
  keyed t b hb := h.keyed t b ((hs t).subset hb)
  single t := (h.single t).sublist (hs t)

end Orderly

theorem get_removeGroup_sublist (r : Registry) (g : EventType × List Binding) (t : EventType) :
    List.Sublist ((r.removeGroup g).get t) (r.get t) := by
  by_cases ht : t = g.1
  · subst ht
    rw [get_removeGroup_self]
    exact List.filter_sublist
  · exact get_removeGroup_ne r ht ▸ List.Sublist.refl _

theorem get_removeGroups_sublist (t : EventType) : ∀ (gs : List (EventType × List Binding))
    (r : Registry), List.Sublist ((gs.foldl removeGroup r).get t) (r.get t)
  | [], _ => List.Sublist.refl _
  | g :: gs, r =>
    (get_removeGroups_sublist t gs (r.removeGroup g)).trans (get_removeGroup_sublist r g t)

theorem Orderly.removeAll {r r' : Registry} (h : r.Orderly) {m : HandlerMap}
    (hr : r.removeAll m = .ok r') : r'.Orderly := by
  unfold Registry.removeAll at hr
  split at hr
  · cases hr
  · cases hr
    exact h.of_sublist fun t => get_removeGroups_sublist t _ r

end Registry

/-! ## Flattenings -/

/-- A list of types that ends with the root and repeats none. -/
structure Flattening (types : List EventType) : Prop where
  distinct : types.Nodup
  rooted : ∃ front, types = front ++ [.root]

namespace TypeGraph

theorem explore_distinct (g : TypeGraph) (listed pending : List EventType) :
    listed.Nodup → .root ∉ listed →
      (g.explore listed pending).Nodup ∧ .root ∉ g.explore listed pending := by
  induction listed, pending using explore.induct g with
  | case1 listed =>
    intro hn hr
    rw [explore]
    exact ⟨hn, hr⟩
  | case2 listed t pending h ih =>
    intro hn hr
    rw [explore, if_pos h]
    exact ih hn hr
  | case3 listed t pending h ih =>
    intro hn hr
    rw [explore, if_neg h]
    obtain ⟨ht, hl⟩ := not_or.mp h
    apply ih
    · refine List.nodup_append.mpr ⟨hn, by simp, fun a ha b hb hab => hl ?_⟩
      rw [← List.mem_singleton.mp hb, ← hab]
      exact ha
    · intro hm
      rcases List.mem_append.mp hm with hm | hm
      · exact hr hm
      · exact ht (EventType.isRoot_iff.mpr (List.mem_singleton.mp hm).symm)

theorem flattening_flatten (g : TypeGraph) (t : EventType) : Flattening (g.flatten t) := by
  obtain ⟨hn, hr⟩ := g.explore_distinct [] [t] List.nodup_nil (by simp)
  refine ⟨List.nodup_append.mpr ⟨hn, by simp, fun a ha b hb hab => hr ?_⟩, _, rfl⟩
  rw [← List.mem_singleton.mp hb, ← hab]
  exact ha

/-! ### What is listed -/

theorem subset_explore (g : TypeGraph) (listed pending : List EventType) :
    listed ⊆ g.explore listed pending := by
  induction listed, pending using explore.induct g with
  | case1 listed =>
    rw [explore]
    exact List.Subset.refl _
  | case2 listed t pending h ih =>
    rw [explore, if_pos h]
    exact ih
  | case3 listed t pending h ih =>
    rw [explore, if_neg h]
    exact (List.append_subset.mp ih).1

theorem mem_explore_of_pending (g : TypeGraph) (listed pending : List EventType) {u : EventType}
    (hu : u ≠ .root) : u ∈ pending → u ∈ g.explore listed pending := by
  induction listed, pending using explore.induct g with
  | case1 listed => exact fun h => nomatch h
  | case2 listed t pending h ih =>
    intro hm
    rw [explore, if_pos h]
    rcases List.mem_cons.mp hm with rfl | hm
    · rcases h with h | h
      · exact absurd (EventType.isRoot_iff.mp h) hu
      · exact g.subset_explore _ _ h
    · exact ih hm
  | case3 listed t pending h ih =>
    intro hm
    rw [explore, if_neg h]
    rcases List.mem_cons.mp hm with rfl | hm
    · exact g.subset_explore _ _ (List.mem_append_right _ (List.mem_singleton_self u))
    · exact ih (List.mem_append_left _ hm)

theorem explore_closed (g : TypeGraph) (listed pending : List EventType) {t u : EventType}
    (hs : u ∈ g.supertypes t) (hu : u ≠ .root) :
    t ∈ g.explore listed pending → t ∉ listed → u ∈ g.explore listed pending := by
  induction listed, pending using explore.induct g with
  | case1 listed =>
    rw [explore]
    exact fun h hl => absurd h hl
  | case2 listed x pending h ih =>
    rw [explore, if_pos h]
    exact ih
  | case3 listed x pending h ih =>
    rw [explore, if_neg h]
    intro ht hl
    by_cases hx : t = x
    · subst hx
      exact g.mem_explore_of_pending _ _ hu (List.mem_append_right _ hs)
    · exact ih ht (by simp [hl, hx])

theorem mem_flatten_self (g : TypeGraph) (t : EventType) : t ∈ g.flatten t := by
  by_cases ht : t = .root
  · exact List.mem_append_right _ (List.mem_singleton.mpr ht)
  · exact List.mem_append_left _ (g.mem_explore_of_pending [] [t] ht (List.mem_singleton_self t))

/-- A flattening is closed under supertypes; those of the root do not count. -/
theorem mem_flatten_of_supertype {g : TypeGraph} {c t u : EventType} (ht : t ∈ g.flatten c)
    (hr : t ≠ .root) (hs : u ∈ g.supertypes t) : u ∈ g.flatten c := by
  by_cases hu : u = .root
  · exact List.mem_append_right _ (List.mem_singleton.mpr hu)
  · rcases List.mem_append.mp ht with ht | ht
    · exact List.mem_append_left _ (g.explore_closed [] [c] hs hu ht List.not_mem_nil)
    · exact absurd (List.mem_singleton.mp ht) hr

end TypeGraph

namespace HierarchyCache

def Orderly (c : HierarchyCache) : Prop :=
  ∀ t types, c.find? t = some types → Flattening types

theorem Orderly.empty : Orderly .empty := fun _ _ h => by cases h

theorem Orderly.flatten {c : HierarchyCache} (h : c.Orderly) (g : TypeGraph) (t : EventType) :
    Flattening (c.flatten g t) := by
  unfold HierarchyCache.flatten
  cases hf : c.find? t with
  | none => exact g.flattening_flatten t
  | some types => exact h t types hf

theorem Orderly.request {c : HierarchyCache} (h : c.Orderly) (g : TypeGraph) (t : EventType) :
    (c.request g t).Orderly := by
  intro u types hu
  by_cases htu : u = t
  · subst htu
    rw [find?_request_self] at hu
    cases hu
    exact h.flatten g u
  · rw [find?_request_ne c g htu] at hu
    exact h u types hu

end HierarchyCache
end EventBus
