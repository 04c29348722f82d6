import EventBus.Bus
import EventBus.Proofs.Registries
import Mathlib.Data.List.Basic
import Mathlib.Data.List.Nodup

/-!
# Routing

Whatever was registered and unregistered before, an event finds each binding registered on a type
of its flattening once, type by type.
-/

namespace EventBus

theorem pairwise_idxOf_lt {κ : Type} [DecidableEq κ] {ks : List κ} (h : ks.Nodup) :
    ks.Pairwise fun i j => ks.idxOf i < ks.idxOf j := by
  rw [List.pairwise_iff_getElem]
  intro i j hi hj hij
  rw [h.idxOf_getElem i hi, h.idxOf_getElem j hj]
  exact hij

namespace Registry

def Holds (r : Registry) (b : Binding) : Prop := ∃ t, b ∈ r.get t

section

variable {r : Registry} (hr : r.Orderly) {types : List EventType}
include hr

theorem holds_iff {b : Binding} : r.Holds b ↔ b ∈ r.get b.type := by
  refine ⟨fun ⟨t, ht⟩ => ?_, fun h => ⟨_, h⟩⟩
  rw [hr.keyed t b ht]
  exact ht

theorem mem_resolve {b : Binding} : b ∈ r.resolve types ↔ r.Holds b ∧ b.type ∈ types := by
  rw [holds_iff hr, resolve, List.mem_flatMap]
  constructor
  · rintro ⟨t, ht, hb⟩
    rw [hr.keyed t b hb]
    exact ⟨hb, ht⟩
  · rintro ⟨hb, ht⟩
    exact ⟨b.type, ht, hb⟩

theorem resolve_single (ht : types.Nodup) :
    (r.resolve types).Pairwise fun b c => b.same c = false := by
  rw [resolve, List.pairwise_flatMap]
  refine ⟨fun t _ => hr.single t, ht.imp fun {t u} htu b hb c hc => ?_⟩
  rw [Bool.eq_false_iff]
  intro hbc
  apply htu
  rw [← hr.keyed t b hb, ← hr.keyed u c hc]
  exact (Binding.same_iff.mp hbc).2.2

theorem resolve_once (ht : types.Nodup) {b : Binding} (hb : r.Holds b) (hm : b.type ∈ types) :
    (r.resolve types).countP b.same = 1 :=
  Binding.countP_same (resolve_single hr ht) ((mem_resolve hr).mpr ⟨hb, hm⟩)

theorem resolve_ordered (ht : types.Nodup) :
    (r.resolve types).Pairwise fun b c => types.idxOf b.type ≤ types.idxOf c.type := by
  rw [resolve, List.pairwise_flatMap]
  constructor
  · intro t _
    refine List.Pairwise.imp_of_mem ?_ (hr.single t)
    intro b c hb hc _
    exact Nat.le_of_eq (by rw [hr.keyed t b hb, hr.keyed t c hc])
  · refine (pairwise_idxOf_lt ht).imp fun {t u} htu b hb c hc => ?_
    rw [hr.keyed t b hb, hr.keyed u c hc]
    exact Nat.le_of_lt htu

theorem filter_get (t u : EventType) :
    (r.get u).filter (·.type = t) = if u = t then r.get t else [] := by
  split
  · rename_i h
    subst h
    rw [List.filter_eq_self]
    intro b hb
    exact decide_eq_true (hr.keyed u b hb)
  · rename_i h
    rw [List.filter_eq_nil_iff]
    intro b hb
    rw [hr.keyed u b hb]
    simpa using h

theorem filter_resolve (ht : types.Nodup) {t : EventType} (hm : t ∈ types) :
    (r.resolve types).filter (·.type = t) = r.get t := by
  induction types with
  | nil => cases hm
  | cons u us ih =>
    obtain ⟨hu, hus⟩ := List.nodup_cons.mp ht
    rw [resolve, List.flatMap_cons, ← resolve, List.filter_append, filter_get hr]
    by_cases hut : u = t
    · subst hut
      have hrest : (r.resolve us).filter (·.type = u) = [] := by
        rw [List.filter_eq_nil_iff]
        intro b hb
        have hb' := ((mem_resolve hr).mp hb).2
        rw [decide_eq_true_eq]
        intro hbu
        exact hu (hbu ▸ hb')
      rw [if_pos rfl, hrest, List.append_nil]
    · rw [if_neg hut, List.nil_append]
      exact ih hus ((List.mem_cons.mp hm).resolve_left (Ne.symm hut))

theorem countP_get (s : SubscriberId) (name : String) (t : EventType) :
    (r.get t).countP (fun b => b.target == s && b.method.name == name) =
      if (r.get t).any fun b => b.target == s && b.method.name == name then 1 else 0 := by
  have hk := hr.keyed t
  have hs := hr.single t
  generalize r.get t = bs at hk hs
  induction bs with
  | nil => rfl
  | cons b bs ih =>
    obtain ⟨hb, hs⟩ := List.pairwise_cons.mp hs
    rw [List.countP_cons, List.any_cons]
    cases hp : b.target == s && b.method.name == name with
    | false => simpa using ih (fun c hc => hk c (List.mem_cons_of_mem b hc)) hs
    | true =>
      have hrest : bs.countP (fun b => b.target == s && b.method.name == name) = 0 := by
        rw [List.countP_eq_zero]
        intro c hc hcp
        have hbc : b.same c = true := by
          rw [Binding.same_iff, hk b (List.mem_cons_self ..), hk c (List.mem_cons_of_mem b hc)]
          simp only [Bool.and_eq_true, beq_iff_eq] at hp hcp
          exact ⟨hp.1.trans hcp.1.symm, hp.2.trans hcp.2.symm, rfl⟩
        rw [hb c hc] at hbc
        cases hbc
      simp [hrest]

theorem countP_resolve (s : SubscriberId) (name : String) :
    (r.resolve types).countP (fun b => b.target == s && b.method.name == name) =
      types.countP fun t => (r.get t).any fun b => b.target == s && b.method.name == name := by
  induction types with
  | nil => rfl
  | cons t ts ih =>
    rw [resolve, List.flatMap_cons, ← resolve, List.countP_append, ih, countP_get hr,
      List.countP_cons, Nat.add_comm]

end

end Registry

/-! ## Routing after any use of a bus -/

namespace Bus

/-- What changes where a bus's events go: registrations, whether they succeed or not, lookups of
hierarchies, and a change of strategy. -/
inductive Request where
  | register (subscriber : Subscriber)
  | unregister (subscriber : Subscriber)
  | lookup (graph : TypeGraph) (type : EventType)
  | adopt (discovery : Discovery)

variable {α : Type}

def serve (b : Bus α) : Request → Bus α
  | .register s =>
    match b.register s with
    | .ok (b', _) => b'
    | .error _ => b
  | .unregister s =>
    match b.unregister s with
    | .ok (b', _) => b'
    | .error _ => b
  | .lookup g t => b.remember g t
  | .adopt d => { b with discovery := d }

def serveAll (b : Bus α) (requests : List Request) : Bus α := requests.foldl serve b

/-- All that a request can do to a bus. -/
theorem serve_cases (b : Bus α) (request : Request) :
    b.serve request = b ∨
    (∃ s m, request = .register s ∧ b.discovery s = .ok m ∧
      b.serve request = { b with registry := b.registry.putAll m }) ∨
    (∃ s m r, request = .unregister s ∧ b.discovery s = .ok m ∧ b.registry.removeAll m = .ok r ∧
      b.serve request = { b with registry := r }) ∨
    (∃ g t, request = .lookup g t ∧ b.serve request = b.remember g t) ∨
    ∃ d, request = .adopt d ∧ b.serve request = { b with discovery := d } := by
  cases request with
  | register s =>
    simp only [serve]
    split
    · rename_i b' n h
      obtain ⟨m, hm, rfl, -⟩ := register_eq_ok_iff.mp h
      exact .inr (.inl ⟨s, m, rfl, hm, rfl⟩)
    · exact .inl rfl
  | unregister s =>
    simp only [serve]
    split
    · rename_i b' n h
      obtain ⟨m, r, hm, hr, rfl, -⟩ := unregister_eq_ok_iff.mp h
      exact .inr (.inr (.inl ⟨s, m, r, rfl, hm, hr, rfl⟩))
    · exact .inl rfl
  | lookup g t => exact .inr (.inr (.inr (.inl ⟨g, t, rfl, rfl⟩)))
  | adopt d => exact .inr (.inr (.inr (.inr ⟨d, rfl, rfl⟩)))

structure Orderly (b : Bus α) : Prop where
  registry : b.registry.Orderly
  cache : b.cache.Orderly

namespace Orderly

variable {b : Bus α}

theorem build (builder : Builder) : (builder.build : Bus α).Orderly :=
  ⟨Registry.Orderly.empty, HierarchyCache.Orderly.empty⟩

theorem serve (h : b.Orderly) (request : Request) : (b.serve request).Orderly := by
  obtain hb | ⟨s, m, -, -, hb⟩ | ⟨s, m, r, -, -, hr, hb⟩ | ⟨g, t, -, hb⟩ | ⟨d, -, hb⟩ :=
    b.serve_cases request <;> rw [hb]
  · exact h
  · exact ⟨h.registry.putAll m, h.cache⟩
  · exact ⟨h.registry.removeAll hr, h.cache⟩
  · exact ⟨h.registry, h.cache.request g t⟩
  · exact ⟨h.registry, h.cache⟩

theorem serveAll (h : b.Orderly) : ∀ requests : List Request, (b.serveAll requests).Orderly := by
  intro requests
  induction requests generalizing b with
  | nil => exact h
  | cons request requests ih => exact ih (h.serve request)

end Orderly

/-- An event finds each registered binding on a type of its flattening once and nothing else, in
the order of the flattening and, for one type, in that of the registry. The handlers of the root
come last, and one method of one subscriber comes once for each type it is bound to. -/
theorem resolve_exactly_once (builder : Builder) (requests : List Request) (g : TypeGraph)
    (e : Event α) :
    let b : Bus α := builder.build.serveAll requests
    let types := b.cache.flatten g e.type
    let found := b.resolve g e.type
    (∀ c, c ∈ found ↔ b.registry.Holds c ∧ c.type ∈ types) ∧
      (∀ c, b.registry.Holds c → c.type ∈ types → found.countP c.same = 1) ∧
      found.Pairwise (fun c d => c.same d = false) ∧
      found.Pairwise (fun c d => types.idxOf c.type ≤ types.idxOf d.type) ∧
      (∀ t ∈ types, found.filter (·.type = t) = b.registry.get t) ∧
      (∃ front, found = front ++ b.registry.get .root ∧ ∀ c ∈ front, c.type ≠ .root) ∧
      ∀ s name, found.countP (fun c => c.target == s && c.method.name == name) =
        types.countP fun t =>
          (b.registry.get t).any fun c => c.target == s && c.method.name == name := by
  intro b types found
  have hb : b.Orderly := (Orderly.build builder).serveAll requests
  have hr := hb.registry
  obtain ⟨hn, front, hfront⟩ := hb.cache.flatten g e.type
  refine ⟨fun c => Registry.mem_resolve hr, fun c => Registry.resolve_once hr hn,
    Registry.resolve_single hr hn, Registry.resolve_ordered hr hn,
    fun t => Registry.filter_resolve hr hn, ⟨b.registry.resolve front, ?_, ?_⟩,
    Registry.countP_resolve hr⟩
  · show b.registry.resolve (b.cache.flatten g e.type) = _
    rw [hfront, Registry.resolve, List.flatMap_append, List.flatMap_singleton, ← Registry.resolve]
  · intro c hc hroot
    rw [hfront, List.nodup_append] at hn
    exact hn.2.2 c.type ((Registry.mem_resolve hr).mp hc).2 .root (List.mem_singleton_self _) hroot

end Bus
end EventBus
