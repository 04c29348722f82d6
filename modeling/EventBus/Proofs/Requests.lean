import EventBus.Proofs.Crews
import EventBus.Proofs.Lookups
import EventBus.Proofs.Routing

/-!
# Requests in a run

Whatever a step does, it changes the routing of a bus by requests alone: by the registrations and
withdrawals of the program at work and by the lookups of its posts. So what requests keep holds of
every bus all along a run, and what is said of dead events does as long as nobody declares them
supertypes.
-/

namespace EventBus

variable {σ ε α : Type}

/-! ## Buses that route alike -/

namespace Bus

structure Alike (b b' : Bus α) : Prop where
  registry : b'.registry = b.registry
  cache : b'.cache = b.cache
  discovery : b'.discovery = b.discovery

theorem Alike.refl (b : Bus α) : Alike b b := ⟨rfl, rfl, rfl⟩

theorem Alike.trans {b b' b'' : Bus α} (h : Alike b b') (h' : Alike b' b'') : Alike b b'' :=
  ⟨h'.registry.trans h.registry, h'.cache.trans h.cache, h'.discovery.trans h.discovery⟩

theorem Alike.orderly {b b' : Bus α} (h : Alike b b') (hb : b.Orderly) : b'.Orderly :=
  ⟨h.registry ▸ hb.registry, h.cache ▸ hb.cache⟩

/-- Some of the requests, in their order, lead from `b` to a bus that routes like `b'`. -/
def Served (requests : List Request) (b b' : Bus α) : Prop :=
  ∃ served, served.Sublist requests ∧ Alike (b.serveAll served) b'

theorem Served.of_alike {requests : List Request} {b b' : Bus α} (h : Alike b b') :
    Served requests b b' :=
  ⟨[], List.nil_sublist _, h⟩

theorem Served.alike {requests : List Request} {b b' b'' : Bus α} (h : Served requests b b')
    (h' : b'.Alike b'') : Served requests b b'' := by
  obtain ⟨served, hs, ha⟩ := h
  exact ⟨served, hs, ha.trans h'⟩

/-- The request is no more than a question. -/
def Request.Asks : Request → Prop
  | .lookup .. => True
  | _ => False

theorem serveAll_asks {requests : List Request} : ∀ {b : Bus α}, (∀ r ∈ requests, r.Asks) →
    (b.serveAll requests).registry = b.registry := by
  induction requests with
  | nil => exact fun _ => rfl
  | cons r rs ih =>
    intro b h
    refine (ih (b := b.serve r) fun r' hr' => h r' (List.mem_cons_of_mem r hr')).trans ?_
    have hr := h r (List.mem_cons_self ..)
    cases r with
    | lookup g t => rfl
    | _ => cases hr

theorem Served.registry {requests : List Request} {b b' : Bus α} (h : Served requests b b')
    (hr : ∀ r ∈ requests, r.Asks) : b'.registry = b.registry := by
  obtain ⟨served, hs, ha⟩ := h
  exact ha.registry.trans (serveAll_asks fun r hmem => hr r (hs.subset hmem))

/-- What is asked of `g` changes no hierarchy that is found in `g`. -/
theorem flatten_serveAll {requests : List Request} {g : TypeGraph} (t : EventType) :
    ∀ {b : Bus α}, (∀ r ∈ requests, ∃ u, r = .lookup g u) →
      (b.serveAll requests).cache.flatten g t = b.cache.flatten g t := by
  induction requests with
  | nil => exact fun _ => rfl
  | cons r rs ih =>
    intro b h
    obtain ⟨u, rfl⟩ := h r (List.mem_cons_self ..)
    exact (ih fun r' hr' => h r' (List.mem_cons_of_mem _ hr')).trans
      (HierarchyCache.flatten_request b.cache g u t)

theorem Served.flatten {requests : List Request} {b b' : Bus α} (h : Served requests b b')
    {g : TypeGraph} (hr : ∀ r ∈ requests, ∃ u, r = .lookup g u) (t : EventType) :
    b'.cache.flatten g t = b.cache.flatten g t := by
  obtain ⟨served, hs, ha⟩ := h
  rw [ha.cache]
  exact flatten_serveAll t fun r hmem => hr r (hs.subset hmem)

theorem Served.orderly {requests : List Request} {b b' : Bus α} (h : Served requests b b')
    (hb : b.Orderly) : b'.Orderly := by
  obtain ⟨served, -, h⟩ := h
  exact h.orderly (hb.serveAll served)

end Bus

/-! ## The requests of a step -/

namespace World

/-- What the buses of `w` are asked for, and the types that are declared, on the way to `w'`. -/
structure Serves (requests : BusId → List Bus.Request) (types : List EventType)
    (w w' : World σ ε α) : Prop where
  buses : ∀ c, (w.bus c).Served (requests c) (w'.bus c)
  graph : w'.graph = w.graph ∨ ∃ t ∈ types, ∃ supers, w'.graph = w.graph.declare t supers

section

variable {w w' : World σ ε α} {requests : BusId → List Bus.Request} {types : List EventType}

theorem serves_of_alike (h : ∀ c, (w.bus c).Alike (w'.bus c)) (hg : w'.graph = w.graph) :
    Serves requests types w w' :=
  ⟨fun c => .of_alike (h c), .inl hg⟩

theorem serves_refl (w : World σ ε α) : Serves requests types w w :=
  serves_of_alike (fun c => .refl (w.bus c)) rfl

theorem alike_modifyBus (w : World σ ε α) (b : BusId) {f : Bus α → Bus α}
    (h : (w.bus b).Alike (f (w.bus b))) (c : BusId) : (w.bus c).Alike ((w.modifyBus b f).bus c) := by
  rw [bus_modifyBus]
  split
  · rename_i hc
    rw [hc.1]
    exact h
  · exact .refl _

theorem serves_modifyBus (w : World σ ε α) (b : BusId) {f : Bus α → Bus α}
    (h : (w.bus b).Alike (f (w.bus b))) : Serves requests types w (w.modifyBus b f) :=
  serves_of_alike (alike_modifyBus w b h) rfl

/-- A bus of the world is served what is asked of it, and no other bus anything. -/
theorem serves_one {b : BusId} {served : List Bus.Request}
    (hs : served.Sublist (requests b)) (hg : w'.graph = w.graph)
    (h : ∀ c, w'.bus c = if c = b ∧ b < w.buses.length then (w.bus b).serveAll served else w.bus c) :
    Serves requests types w w' := by
  refine ⟨fun c => ?_, .inl hg⟩
  rw [h]
  split
  · rename_i hc
    rw [hc.1]
    exact ⟨served, hs, .refl _⟩
  · exact .of_alike (.refl _)

theorem bus_register {b : BusId} {s : Subscriber} (h : w.register b s = .ok w') :
    w'.graph = w.graph ∧ ∀ c, w'.bus c =
      if c = b ∧ b < w.buses.length then (w.bus b).serveAll [.register s] else w.bus c := by
  obtain ⟨⟨bus, n⟩, hb, rfl⟩ := register_eq_ok_iff.mp h
  refine ⟨rfl, fun c => (bus_modifyBus w b c _).trans ?_⟩
  simp only [Bus.serveAll, List.foldl, Bus.serve, hb]

theorem bus_unregister {b : BusId} {s : Subscriber} (h : w.unregister b s = .ok w') :
    w'.graph = w.graph ∧ ∀ c, w'.bus c =
      if c = b ∧ b < w.buses.length then (w.bus b).serveAll [.unregister s] else w.bus c := by
  obtain ⟨⟨bus, n⟩, hb, rfl⟩ := unregister_eq_ok_iff.mp h
  refine ⟨rfl, fun c => (bus_modifyBus w b c _).trans ?_⟩
  simp only [Bus.serveAll, List.foldl, Bus.serve, hb]

theorem bus_post (w : World σ ε α) (b : BusId) (e : Event α) :
    (w.post b e).1.graph = w.graph ∧ ∀ c, (w.post b e).1.bus c =
      if c = b ∧ b < w.buses.length then (w.bus b).serveAll [.lookup w.graph e.type]
      else w.bus c := by
  have remembered : ∀ c, (w.remember b e).bus c = if c = b ∧ b < w.buses.length then
      (w.bus b).serveAll [.lookup w.graph e.type] else w.bus c := fun c => bus_modifyBus w b c _
  unfold post
  cases w.resolve b e with
  | cons c cs => exact ⟨rfl, remembered⟩
  | nil =>
    simp only
    split
    · exact ⟨rfl, remembered⟩
    · exact ⟨rfl, remembered⟩

end

end World

namespace Machine

/-- What the next step asks of `b`. -/
def requests (m : Machine σ ε α) (b : BusId) : List Bus.Request :=
  match m.control with
  | .run (.post c e _) =>
    if c = b then [.lookup m.world.graph e.type] else []
  | .run (.register c s _) =>
    if c = b then ((m.world.subscriber? s).map .register).toList else []
  | .run (.unregister c s _) =>
    if c = b then ((m.world.subscriber? s).map .unregister).toList else []
  | _ => []

def declares (m : Machine σ ε α) : List EventType :=
  match m.control with
  | .run (.declare t _ _) => [t]
  | _ => []

section

variable {w w' : World σ ε α} {k : List (Frame σ ε α)} {rs : BusId → List Bus.Request}
  {types : List EventType}

/-- A drain changes queues only. -/
theorem alike_drain (b : BusId) (next : Program σ ε α) :
    (drain w b next k).world.graph = w.graph ∧
      ∀ c, (w.bus c).Alike ((drain w b next k).world.bus c) := by
  unfold drain
  split
  · exact ⟨rfl, World.alike_modifyBus w b ⟨rfl, rfl, rfl⟩⟩
  · exact ⟨rfl, fun c => .refl _⟩

/-- Once its lookup is made, a post changes queues only. -/
theorem alike_post (b : BusId) (e : Event α) (next : Program σ ε α) :
    (request w k (.post b e next)).world.graph = (w.post b e).1.graph ∧
      ∀ c, ((w.post b e).1.bus c).Alike ((request w k (.post b e next)).world.bus c) := by
  simp only [request]
  split
  · rename_i w₁ hp
    rw [hp]
    exact ⟨rfl, fun c => .refl _⟩
  · rename_i w₁ dead hp
    rw [hp]
    exact ⟨rfl, fun c => .refl _⟩
  · rename_i w₁ bs hp
    rw [hp]
    split
    · exact ⟨rfl, fun c => .refl _⟩
    · obtain ⟨hgraph, halike⟩ :=
        alike_drain (w := w₁.enqueueAll b (bs.map (⟨e, ·⟩))) (k := k) b next
      exact ⟨hgraph, fun c => (World.alike_modifyBus w₁ b ⟨rfl, rfl, rfl⟩ c).trans (halike c)⟩

theorem serves_request (p : Program σ ε α) :
    World.Serves (requests ⟨w, .run p, k⟩) (declares ⟨w, .run p, k⟩) w (request w k p).world := by
  cases p with
  | post b e next =>
    obtain ⟨hgraph, hbus⟩ := w.bus_post b e
    obtain ⟨hgraph', halike⟩ := alike_post (w := w) (k := k) b e next
    have hpost : World.Serves (Machine.requests ⟨w, .run (.post b e next), k⟩) [] w
        (w.post b e).1 :=
      World.serves_one (by simp [Machine.requests]) hgraph hbus
    exact ⟨fun c => (hpost.buses c).alike (halike c), .inl (hgraph'.trans hgraph)⟩
  | register b s next =>
    simp only [request]
    split
    · exact World.serves_refl w
    · rename_i sub hsub
      split
      · rename_i h
        obtain ⟨hgraph, hbus⟩ := World.bus_register h
        exact World.serves_one (by simp [Machine.requests, hsub]) hgraph hbus
      · exact World.serves_refl w
  | unregister b s next =>
    simp only [request]
    split
    · exact World.serves_refl w
    · rename_i sub hsub
      split
      · rename_i h
        obtain ⟨hgraph, hbus⟩ := World.bus_unregister h
        exact World.serves_one (by simp [Machine.requests, hsub]) hgraph hbus
      · exact World.serves_refl w
  | enqueue b d next =>
    simp only [request]
    split
    · exact World.serves_refl w
    · exact World.serves_modifyBus w b ⟨rfl, rfl, rfl⟩
  | drain b next =>
    simp only [request]
    split
    · exact World.serves_refl w
    · obtain ⟨hgraph, halike⟩ := alike_drain (w := w) (k := k) b next
      exact World.serves_of_alike halike hgraph
  | declare t supers next =>
    exact ⟨fun c => .of_alike (.refl _), .inr ⟨t, List.mem_singleton_self t, supers, rfl⟩⟩
  | forget b next =>
    refine World.serves_modifyBus w b ?_
    split <;> exact ⟨rfl, rfl, rfl⟩
  | _ => exact ⟨fun c => .of_alike (.refl _), .inl rfl⟩

theorem serves_resume (x : Ending) (f : Frame σ ε α) :
    World.Serves rs types w (resume w x k f).world := by
  cases f with
  | handing b e bs => cases bs <;> exact World.serves_refl w
  | draining b owner =>
    simp only [resume]
    split <;> exact World.serves_modifyBus w b ⟨rfl, rfl, rfl⟩
  | joined parent next => exact ⟨fun c => .of_alike (.refl _), .inl rfl⟩
  | _ => exact World.serves_refl w

theorem serves_unwind (p : Panic) (f : Frame σ ε α) :
    World.Serves rs types w (unwind w p k f).world := by
  cases f with
  | draining b owner =>
    have h : World.Serves rs types w (w.setQueues b ((w.bus b).queues.release owner).2) :=
      World.serves_modifyBus w b ⟨rfl, rfl, rfl⟩
    simp only [unwind, World.abandon]
    split
    · exact h
    · exact ⟨h.buses, h.graph⟩
  | joined parent next => exact ⟨fun c => .of_alike (.refl _), .inl rfl⟩
  | _ => exact World.serves_refl w

end

theorem serves_step (code : Behaviour σ ε α) (m : Machine σ ε α) :
    World.Serves m.requests m.declares m.world (m.step code).world := by
  obtain ⟨w, c, k⟩ := m
  cases c with
  | run p => exact serves_request p
  | call c =>
    simp only [step, enter]
    split <;> exact World.serves_refl w
  | settle c o =>
    obtain ⟨d, use⟩ := c
    cases use with
    | direct next => exact World.serves_refl w
    | delivery b => cases o <;> exact World.serves_refl w
  | report b d e =>
    simp only [step, report]
    split
    · exact World.serves_refl w
    · unfold World.keep
      split
      · exact World.serves_refl w
      · exact World.serves_refl w
      · exact World.serves_of_alike (fun c => .refl _) rfl
      · exact World.serves_modifyBus w b ⟨rfl, rfl, rfl⟩
  | returned x =>
    cases k with
    | nil => exact World.serves_refl w
    | cons f k => exact serves_resume x f
  | unwinding p =>
    cases k with
    | nil => exact World.serves_refl w
    | cons f k => exact serves_unwind p f

end Machine

theorem Machine.lookup_mem {m : Machine σ ε α} {b : BusId} {g : TypeGraph} {t : EventType}
    (h : .lookup g t ∈ m.requests b) : g = m.world.graph := by
  unfold requests at h
  split at h
  · split at h
    · simp only [List.mem_singleton, Bus.Request.lookup.injEq] at h
      exact h.1
    · cases h
  · split at h
    · simp at h
    · cases h
  · split at h
    · simp at h
    · cases h
  · cases h

/-! ## Crews -/

namespace Crew

theorem serves_step (code : Behaviour σ ε α) (c : Crew σ ε α) (pick : Pick σ ε α) :
    World.Serves (fun b => c.seen pick (·.requests b)) (c.seen pick (·.declares)) c.world
      (c.step code pick).world := by
  cases pick with
  | start p => exact ⟨fun b => .of_alike (.refl _), .inl rfl⟩
  | work i =>
    simp only [Crew.step, seen, picked?]
    cases c.strands[i]? with
    | none => exact World.serves_refl c.world
    | some s =>
      obtain ⟨hbuses, hgraph⟩ := Machine.serves_step code (c.machine s)
      exact ⟨hbuses, hgraph⟩

/-- Whoever looks up a hierarchy does so in the graph as it is. -/
theorem lookup_seen {c : Crew σ ε α} {pick : Pick σ ε α} {b : BusId} {g : TypeGraph} {t : EventType}
    (h : .lookup g t ∈ c.seen pick (·.requests b)) : g = c.world.graph := by
  unfold seen at h
  split at h
  · exact Machine.lookup_mem h
  · cases h

theorem asks_of_post {c : Crew σ ε α} {pick : Pick σ ε α} {i : Nat} (hp : pick = .work i) {t : ThreadId}
    {b b' : BusId} {e : Event α} {next : Program σ ε α} {k : List (Frame σ ε α)}
    (hs : c.strands[i]? = some ⟨t, .run (.post b e next), k⟩) :
    ∀ r ∈ c.seen pick (·.requests b'), r.Asks := by
  intro r hr
  subst hp
  simp only [seen, picked?, hs, Machine.requests, machine] at hr
  split at hr
  · rw [List.mem_singleton.mp hr]
    trivial
  · cases hr

/-- A registry stays as it is as long as its bus is only asked. -/
theorem registry_after (c : Crew σ ε α) (code : Behaviour σ ε α) (picks : Nat → Pick σ ε α)
    {b : BusId} {j n : Nat} (hjn : j ≤ n)
    (hr : ∀ m, j ≤ m → m < n → ∀ r ∈ (c.after code picks m).seen (picks m) (·.requests b), r.Asks) :
    ((c.after code picks n).world.bus b).registry =
      ((c.after code picks j).world.bus b).registry := by
  induction n, hjn using Nat.le_induction with
  | base => rfl
  | succ n hjn ih =>
    rw [← ih fun m hjm hmn => hr m hjm (Nat.lt_succ_of_lt hmn)]
    exact ((serves_step code _ (picks n)).buses b).registry (hr n hjn (Nat.lt_succ_self n))

/-- An event finds whom it found as long as its bus is only asked and nobody declares types. -/
theorem resolve_after (c : Crew σ ε α) (code : Behaviour σ ε α) (picks : Nat → Pick σ ε α) {b : BusId}
    {j n : Nat} (hjn : j ≤ n)
    (hd : ∀ m, j ≤ m → m < n → (c.after code picks m).seen (picks m) (·.declares) = [])
    (hr : ∀ m, j ≤ m → m < n → ∀ r ∈ (c.after code picks m).seen (picks m) (·.requests b), r.Asks)
    (e : Event α) : (c.after code picks n).world.resolve b e = (c.after code picks j).world.resolve b e := by
  induction n, hjn using Nat.le_induction with
  | base => rfl
  | succ n hjn ih =>
    rw [← ih (fun m hjm hmn => hd m hjm (Nat.lt_succ_of_lt hmn))
      fun m hjm hmn => hr m hjm (Nat.lt_succ_of_lt hmn)]
    have hserves := serves_step code (c.after code picks n) (picks n)
    have hasks := hr n hjn (Nat.lt_succ_self n)
    have hgraph : (c.after code picks (n + 1)).world.graph = (c.after code picks n).world.graph := by
      rcases hserves.graph with h | ⟨t, ht, -⟩
      · exact h
      · rw [hd n hjn (Nat.lt_succ_self n)] at ht
        cases ht
    unfold World.resolve Bus.resolve
    rw [hgraph, after, (hserves.buses b).registry hasks, (hserves.buses b).flatten]
    intro r hmem
    cases r with
    | lookup g u => exact ⟨u, by rw [lookup_seen hmem]⟩
    | _ => cases hasks _ hmem

theorem orderly_after {c : Crew σ ε α} (h : ∀ b, (c.world.bus b).Orderly) (code : Behaviour σ ε α)
    (picks : Nat → Pick σ ε α) (n : Nat) (b : BusId) :
    ((c.after code picks n).world.bus b).Orderly := by
  induction n with
  | zero => exact h b
  | succ n ih => exact ((serves_step code _ (picks n)).buses b).orderly ih

end Crew
end EventBus
