import EventBus.Proofs.DispatchOrder
import EventBus.Proofs.Requests
import Mathlib

/-!
# What a bus consults

The types that a bus looks at for an event are those that the first lookup of the event's type found,
whatever was declared since. Each bus makes lookups of its own, with the posts to it.
-/

namespace EventBus

open HierarchyCache

variable {σ ε α : Type}

theorem Bus.serve_cache {b : Bus α} {request : Request} (h : ∀ g t, request ≠ .lookup g t) :
    (b.serve request).cache = b.cache := by
  obtain hb | ⟨s, m, -, -, hb⟩ | ⟨s, m, r, -, -, -, hb⟩ | ⟨g, t, hlookup, -⟩ | ⟨d, -, hb⟩ :=
    b.serve_cases request
  · rw [hb]
  · rw [hb]
  · rw [hb]
  · exact absurd hlookup (h g t)
  · rw [hb]

theorem Bus.serveAll_cache {requests : List Request} : ∀ {b : Bus α},
    (∀ g t, .lookup g t ∉ requests) → (b.serveAll requests).cache = b.cache := by
  induction requests with
  | nil => exact fun _ => rfl
  | cons request requests ih =>
    intro b h
    rw [serveAll, List.foldl_cons, ← serveAll, ih fun g t hm => h g t (List.mem_cons_of_mem _ hm)]
    exact serve_cache fun g t hr => h g t (hr ▸ List.mem_cons_self ..)

theorem Bus.Served.cache {requests : List Request} {b b' : Bus α} (h : Served requests b b')
    (hr : ∀ g t, .lookup g t ∉ requests) : b'.cache = b.cache := by
  obtain ⟨served, hs, ha⟩ := h
  exact ha.cache.trans (serveAll_cache fun g t hm => hr g t (hs.subset hm))

namespace Machine

/-- What the next step asks the cache of `b`. -/
def lookups (m : Machine σ ε α) (b : BusId) : List Lookup :=
  match m.control with
  | .run (.post c e _) => if b = c ∧ c < m.world.buses.length then [⟨m.world.graph, e.type⟩] else []
  | _ => []

theorem cache_step (code : Behaviour σ ε α) (m : Machine σ ε α) (b : BusId) :
    ((m.step code).world.bus b).cache = (m.world.bus b).cache.requestAll (m.lookups b) := by
  have quiet : (∀ g t, .lookup g t ∉ m.requests b) →
      ((m.step code).world.bus b).cache = (m.world.bus b).cache :=
    ((serves_step code m).buses b).cache
  obtain ⟨w, control, k⟩ := m
  cases control with
  | run p =>
    cases p with
    | post c e next =>
      obtain ⟨-, hbus⟩ := w.bus_post c e
      refine ((alike_post (w := w) (k := k) c e next).2 b).cache.trans ?_
      simp only [hbus, lookups]
      split
      · rename_i hc
        rw [hc.1]
        rfl
      · rfl
    | register c s next => exact quiet fun g t h => by simp [requests] at h
    | unregister c s next => exact quiet fun g t h => by simp [requests] at h
    | _ => exact quiet fun _ _ => List.not_mem_nil
  | _ => exact quiet fun _ _ => List.not_mem_nil

end Machine

namespace Crew

variable (c : Crew σ ε α) (code : Behaviour σ ε α) (picks : Nat → Pick σ ε α) (b : BusId)

/-- What the first `n` steps asked the cache of `b`. -/
def asked (n : Nat) : List Lookup :=
  during (fun m => (c.after code picks m).seen (picks m) (·.lookups b)) 0 n

theorem cache_step (pick : Pick σ ε α) :
    ((c.step code pick).world.bus b).cache =
      (c.world.bus b).cache.requestAll (c.seen pick (·.lookups b)) := by
  cases pick with
  | start p => rfl
  | work i =>
    simp only [Crew.step, seen, picked?]
    cases c.strands[i]? with
    | none => rfl
    | some s => exact Machine.cache_step code (c.machine s) b

theorem cache_after (n : Nat) :
    ((c.after code picks n).world.bus b).cache =
      (c.world.bus b).cache.requestAll (c.asked code picks b n) := by
  induction n with
  | zero => rfl
  | succ n ih =>
    rw [asked, during_succ _ (Nat.zero_le n), ← asked, requestAll_append, ← ih]
    exact cache_step _ code b (picks n)

theorem first?_asked {m n : Nat} (h : m ≤ n) {t : EventType} {first : Lookup}
    (hm : first? (c.asked code picks b m) t = some first) :
    first? (c.asked code picks b n) t = some first := by
  rw [asked, during_append _ (Nat.zero_le m) h, ← asked, first?_append, hm]
  rfl

/-- A cache answers with what the graph of the first lookup of the type gave, and the allocation that
holds it stays where and as it is. Lookups of other types neither make nor change it, and there is one
for each type asked for. On a graph that does not change the answer is that of the graph. So a bus,
whose cache is asked by the posts to it alone, looks for the handlers of an event at the types that
the first post of such an event to it found. -/
theorem first_answer_wins :
    (∀ (before : List Lookup) (g : TypeGraph) (t : EventType),
      let cache := HierarchyCache.empty.requestAll before
      (∃ first i, first? (before ++ [⟨g, t⟩]) t = some first ∧
        cache.flatten g t = first.graph.flatten t ∧
        ∀ later, ((cache.request g t).requestAll later).Kept t i (first.graph.flatten t)) ∧
      (cache.find? t = none ↔ t ∉ before.map (·.type)) ∧
      (∀ g' u, u ≠ t → (cache.request g' u).find? t = cache.find? t ∧
        (cache.request g' u).slot? t = cache.slot? t) ∧
      cache.size = (before.map (·.type)).eraseDups.length ∧
      ((∀ l ∈ before, l.graph = g) → cache.flatten g t = g.flatten t)) ∧
    ((c.world.bus b).cache = .empty → ∀ n,
      let w := (c.after code picks n).world
      (w.bus b).cache = HierarchyCache.empty.requestAll (c.asked code picks b n) ∧
      (∀ e, w.resolve b e = (w.bus b).registry.resolve
        (((first? (c.asked code picks b n) e.type).elim w.graph (·.graph)).flatten e.type)) ∧
      ∀ m t first, m ≤ n → first? (c.asked code picks b m) t = some first →
        first? (c.asked code picks b n) t = some first) := by
  refine ⟨fun before g t => ?_, fun hb n => ?_⟩
  · intro cache
    refine ⟨?_, find?_requestAll_eq_none_iff, fun g' u hu => ?_, size_requestAll before,
      fun h => flatten_requestAll_of_unchanged h t⟩
    · obtain ⟨i, hi⟩ := exists_kept (cache.find?_request_self g t)
      have hflatten : cache.flatten g t =
          ((first? before t).getD ⟨g, t⟩).graph.flatten t := by
        rw [flatten_requestAll]
        cases first? before t <;> rfl
      rw [hflatten] at hi
      refine ⟨(first? before t).getD ⟨g, t⟩, i, ?_, hflatten, hi.requestAll⟩
      rw [first?_append, show first? [⟨g, t⟩] t = some ⟨g, t⟩ by simp [first?]]
      cases first? before t <;> rfl
    · exact ⟨cache.find?_request_ne g' hu.symm, cache.slot?_request_ne g' hu.symm⟩
  · intro w
    have hcache : (w.bus b).cache = HierarchyCache.empty.requestAll (c.asked code picks b n) :=
      (cache_after c code picks b n).trans (by rw [hb])
    refine ⟨hcache, fun e => ?_, fun m t first hm => first?_asked c code picks b hm⟩
    rw [World.resolve, Bus.resolve, hcache, flatten_requestAll]

end Crew

namespace Ripple

def watched : Bus Unit :=
  { (default : Bus Unit) with registry := ⟨⟨[(pong, [handler pong 1])]⟩⟩ }

def watching : Crew Unit Unit Unit :=
  ⟨⟨⟨.empty⟩, [], [watched, watched], 0, 1, (), []⟩,
    [⟨0, .run (.post 0 (event ping) (.declare ping [pong] (.post 1 (event ping) (.finish .done)))),
      []⟩]⟩

theorem watched_apart :
    ((watching.world.bus 0).cache = .empty ∧ (watching.world.bus 1).cache = .empty) ∧
      (watching.after code (fun _ => .work 0) 6).world.resolve 0 (event ping) = [] ∧
      (watching.after code (fun _ => .work 0) 6).world.resolve 1 (event ping) =
        [handler pong 1] := by
  refine ⟨⟨rfl, rfl⟩, ?_, ?_⟩
  · rw [((Crew.first_answer_wins watching code (fun _ => .work 0) 0).2 rfl 6).2.1]
    cbv
  · rw [((Crew.first_answer_wins watching code (fun _ => .work 0) 1).2 rfl 6).2.1]
    cbv

end Ripple
end EventBus
