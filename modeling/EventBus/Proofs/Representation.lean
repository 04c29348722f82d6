import EventBus.Proofs.Histories
import EventBus.Proofs.Membership
import EventBus.Proofs.Registrations
import Mathlib.Data.Set.Card

/-!
# What a registry stores

Each type that is stored has a group of its own: some bindings of that type, no two the same. So the
stored types are those that have bindings, and a removal takes one stored binding for each that it
is asked for.
-/

namespace EventBus

open Registry

variable {α : Type}

/-! ## Types and counts -/

namespace Registry

variable {r r' : Registry} {m : HandlerMap}

theorem count_pos_iff {t : EventType} : 0 < r.count t ↔ r.get t ≠ [] := List.length_pos_iff

theorem get_of_mem (h : Grouping r.handlers) {g : EventType × List Binding}
    (hg : g ∈ r.handlers.entries) : r.get g.1 = g.2 := by
  unfold get
  rw [Table.get?_of_mem h.distinct hg]
  rfl

theorem mem_types_iff_count (h : Grouping r.handlers) {t : EventType} :
    t ∈ r.types ↔ 0 < r.count t := by
  rw [count_pos_iff]
  exact h.mem_keys_iff

theorem isEmpty_iff_types : r.isEmpty = true ↔ r.types = [] := by
  simp [isEmpty, Table.isEmpty, types, Table.keys]

theorem isEmpty_iff_count (h : Grouping r.handlers) : r.isEmpty = true ↔ ∀ t, r.count t = 0 := by
  rw [isEmpty_iff_types, List.eq_nil_iff_forall_not_mem]
  apply forall_congr'
  intro t
  rw [mem_types_iff_count h, Nat.pos_iff_ne_zero, not_not]

theorem ncard_types (h : Grouping r.handlers) : {t | 0 < r.count t}.ncard = r.types.length := by
  have hset : {t | 0 < r.count t} = (r.types.toFinset : Set EventType) := by
    ext t
    simp [mem_types_iff_count h]
  have hn : r.types.Nodup := h.distinct
  rw [hset, Set.ncard_coe_finset, List.toFinset_card_of_nodup hn]

/-! ## Removals -/

/-- A binding that a removal takes out is stored once before, and not at all afterwards. -/
theorem countP_removed (h : r.Orderly) (hr : r.removeAll m = .ok r') {t : EventType} {b : Binding}
    (hb : b ∈ m.get t) : (r.get t).countP b.same = 1 ∧ (r'.get t).countP b.same = 0 := by
  obtain ⟨hm, rfl⟩ := HandlerMap.mem_get_iff.mp hb
  constructor
  · obtain ⟨c, hc, hcb⟩ := Binding.isIn_iff.mp ((removeAll_eq_ok_iff.mp hr).1 b hm)
    rw [← Binding.countP_same (h.single b.type) hc]
    apply List.countP_congr
    intro d _
    rw [Binding.same_comm] at hcb
    exact ⟨Binding.same_trans (Binding.same_comm b c ▸ hcb), Binding.same_trans hcb⟩
  · have hgone := isIn_of_removeAll hr hm
    apply List.countP_eq_zero.mpr
    intro d hd hbd
    rw [Binding.same_comm] at hbd
    exact Bool.false_ne_true (hgone.symm.trans (Binding.isIn_iff.mpr ⟨d, hd, hbd⟩))

end Registry

/-! ## Histories -/

/-- Requests to a bus are puts and removals to its registry. -/
theorem Bus.exists_history {b : Bus α} {h : History} (hb : b.registry = h.registry)
    (requests : List Bus.Request) :
    ∃ h' : History, (b.serveAll requests).registry = h'.registry := by
  induction requests generalizing b h with
  | nil => exact ⟨h, hb⟩
  | cons request requests ih =>
    suffices hnext : ∃ h' : History, (b.serve request).registry = h'.registry by
      obtain ⟨h', hb'⟩ := hnext
      exact ih hb'
    obtain heq | ⟨s, m, -, -, heq⟩ | ⟨s, m, r, -, -, hr, heq⟩ | ⟨g, t, -, heq⟩ | ⟨d, -, heq⟩ :=
      b.serve_cases request <;> rw [heq]
    · exact ⟨h, hb⟩
    · exact ⟨h ++ [.put m], by rw [History.registry_concat, ← hb]; rfl⟩
    · refine ⟨h ++ [.remove m], ?_⟩
      rw [History.registry_concat, ← hb, apply, hr]
    · exact ⟨h, hb⟩
    · exact ⟨h, hb⟩

/-- Puts and removals keep, for each stored type, a group that is not empty, has no equal bindings
and only bindings of that type. So the types listed are those that have bindings, each once; a
registry is empty iff no type has any, and a bus shows the number of types that have some, whatever
it was asked for. A removal takes out one stored binding for each of its map: each type loses as many
as the map has for it. -/
theorem History.stores_groups (h : History) :
    let r : Registry := h.registry
    (∀ g ∈ r.handlers.entries, r.get g.1 = g.2 ∧ g.2 ≠ [] ∧
        (g.2.Pairwise fun b c => b.same c = false) ∧ ∀ b ∈ g.2, b.type = g.1) ∧
      (r.types.Nodup ∧ ∀ t, t ∈ r.types ↔ 0 < r.count t) ∧
      (r.isEmpty = true ↔ ∀ t, r.count t = 0) ∧
      (∀ (b : Bus α) requests, b.registry = r →
        let b' := b.serveAll requests
        b'.debug = Text.record "EventBus"
          [("identifier", Text.quoted b'.config.identifier), ("dispatch", b'.config.mode.debug),
            ("event_types", toString {t | 0 < b'.handlerCount t}.ncard)]) ∧
      ∀ m r', r.removeAll m = .ok r' → ∀ t,
        (∀ b ∈ m.get t, (r.get t).countP b.same = 1 ∧ (r'.get t).countP b.same = 0) ∧
          r'.get t = ((r.get t).filter fun b => !b.isIn (m.get t)) ∧
          r'.count t + (m.get t).length = r.count t := by
  intro r
  obtain ⟨ho, hg⟩ := h.orderly
  refine ⟨fun g hm => ⟨get_of_mem hg hm, hg.inhabited g hm, hg.single g hm, hg.keyed g hm⟩,
    ⟨hg.distinct, fun t => mem_types_iff_count hg⟩, isEmpty_iff_count hg, ?shown, ?removed⟩
  case shown =>
    intro b requests hb b'
    obtain ⟨h', hb'⟩ := Bus.exists_history hb requests
    have hshown : {t | 0 < b'.handlerCount t}.ncard = b'.registry.types.length := by
      unfold Bus.handlerCount
      rw [hb']
      exact ncard_types h'.orderly.2
    unfold Bus.debug
    rw [hshown]
  case removed =>
    intro m r' hr t
    exact ⟨fun b hb => countP_removed ho hr hb, get_removeAll hr t, count_removeAll ho hr t⟩

end EventBus
