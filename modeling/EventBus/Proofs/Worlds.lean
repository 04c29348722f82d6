import EventBus.Machine.Step

/-!
# What operations on a world leave alone

Most operations touch no queue (`Calm`), and many leave the routing of a bus as it is (`Steady`).
A post in particular changes a cache, which keeps its answers, and the journal (`post_cases`).
-/

namespace EventBus

variable {σ ε α : Type}

theorem HierarchyCache.flatten_request (c : HierarchyCache) (g : TypeGraph) (t u : EventType) :
    (c.request g t).flatten g u = c.flatten g u := by
  unfold flatten
  by_cases h : u = t
  · subst h
    rw [find?_request_self]
    rfl
  · rw [find?_request_ne c g h]

def Sink.custom? : Sink → Option Nat
  | .custom id => some id
  | _ => none

namespace World

variable {w w' w'' : World σ ε α}

theorem bus_modifyBus (w : World σ ε α) (b c : BusId) (f : Bus α → Bus α) :
    (w.modifyBus b f).bus c = if c = b ∧ b < w.buses.length then f (w.bus b) else w.bus c := by
  simp only [modifyBus, bus, List.getElem?_modify]
  by_cases hc : b = c
  · subst hc
    by_cases hb : b < w.buses.length
    · simp [hb]
    · simp [hb]
  · simp [hc, Ne.symm hc]

theorem bus_modifyBus_self {b : BusId} (hb : b < w.buses.length) (f : Bus α → Bus α) :
    (w.modifyBus b f).bus b = f (w.bus b) := by
  rw [bus_modifyBus, if_pos ⟨rfl, hb⟩]

theorem view_modifyBus {β : Type} (v : Bus α → β) (f : Bus α → Bus α) (b c : BusId)
    (h : v (f (w.bus b)) = v (w.bus b)) : v ((w.modifyBus b f).bus c) = v (w.bus c) := by
  rw [bus_modifyBus]
  split
  · rename_i hc
    rw [h, hc.1]
  · rfl

/-- A bus in queued mode is a bus of the world. -/
theorem lt_length_of_queued {b : BusId} (h : (w.bus b).config.mode = .queued) :
    b < w.buses.length := by
  rcases Nat.lt_or_ge b w.buses.length with hb | hb
  · exact hb
  · simp only [bus, List.getElem?_eq_none hb, Option.getD_none] at h
    cases h

theorem subscriberType_congr (h : w'.subscribers = w.subscribers) :
    w'.subscriberType = w.subscriberType := by
  unfold subscriberType subscriber?
  rw [h]

/-! ## Queues -/

/-- No queue was touched, and the same thread is at work. -/
structure Calm (w w' : World σ ε α) : Prop where
  thread : w'.thread = w.thread
  nextThread : w'.nextThread = w.nextThread
  config : ∀ c, (w'.bus c).config = (w.bus c).config
  queues : ∀ c, (w'.bus c).queues = (w.bus c).queues

namespace Calm

theorem refl (w : World σ ε α) : Calm w w := ⟨rfl, rfl, fun _ => rfl, fun _ => rfl⟩

theorem trans (h : Calm w w') (h' : Calm w' w'') : Calm w w'' where
  thread := h'.thread.trans h.thread
  nextThread := h'.nextThread.trans h.nextThread
  config c := (h'.config c).trans (h.config c)
  queues c := (h'.queues c).trans (h.queues c)

theorem modifyBus (w : World σ ε α) (b : BusId) (f : Bus α → Bus α)
    (hc : (f (w.bus b)).config = (w.bus b).config)
    (hq : (f (w.bus b)).queues = (w.bus b).queues) : Calm w (w.modifyBus b f) where
  thread := rfl
  nextThread := rfl
  config c := view_modifyBus (·.config) f b c hc
  queues c := view_modifyBus (·.queues) f b c hq

theorem tell (w : World σ ε α) (n : Notice) : Calm w (w.tell n) := ⟨rfl, rfl, fun _ => rfl, fun _ => rfl⟩

theorem note (w : World σ ε α) (e : ε) : Calm w (w.note e) := ⟨rfl, rfl, fun _ => rfl, fun _ => rfl⟩

theorem keep (w : World σ ε α) (b : BusId) (d : Delivery α) (e : HandlerError) :
    Calm w (w.keep b d e) := by
  unfold World.keep
  split
  · exact refl w
  · exact refl w
  · exact tell w _
  · exact modifyBus w b _ rfl rfl

theorem register {b : BusId} {s : Subscriber} (h : w.register b s = .ok w') :
    Calm w w' ∧ w'.subscribers = w.subscribers := by
  obtain ⟨⟨bus, n⟩, hr, rfl⟩ := register_eq_ok_iff.mp h
  obtain ⟨m, -, rfl, -⟩ := Bus.register_eq_ok_iff.mp hr
  exact ⟨(modifyBus w b _ rfl rfl).trans (tell _ _), rfl⟩

theorem unregister {b : BusId} {s : Subscriber} (h : w.unregister b s = .ok w') :
    Calm w w' ∧ w'.subscribers = w.subscribers := by
  obtain ⟨⟨bus, n⟩, hr, rfl⟩ := unregister_eq_ok_iff.mp h
  obtain ⟨m, r, -, -, rfl, -⟩ := Bus.unregister_eq_ok_iff.mp hr
  exact ⟨(modifyBus w b _ rfl rfl).trans (tell _ _), rfl⟩

end Calm

/-! ## Routing -/

/-- Posts to `b` by the thread at work go where they went, and their failures to the same sink. -/
structure Steady (b : BusId) (w w' : World σ ε α) : Prop where
  thread : w'.thread = w.thread
  size : w'.buses.length = w.buses.length
  graph : w'.graph = w.graph
  subscribers : w'.subscribers = w.subscribers
  config : (w'.bus b).config = (w.bus b).config
  registry : (w'.bus b).registry = (w.bus b).registry
  flatten : ∀ t, (w'.bus b).cache.flatten w.graph t = (w.bus b).cache.flatten w.graph t
  custom : (w'.bus b).sink.custom? = (w.bus b).sink.custom?

namespace Steady

variable {b : BusId}

theorem refl (b : BusId) (w : World σ ε α) : Steady b w w :=
  ⟨rfl, rfl, rfl, rfl, rfl, rfl, fun _ => rfl, rfl⟩

theorem trans (h : Steady b w w') (h' : Steady b w' w'') : Steady b w w'' where
  thread := h'.thread.trans h.thread
  size := h'.size.trans h.size
  graph := h'.graph.trans h.graph
  subscribers := h'.subscribers.trans h.subscribers
  config := h'.config.trans h.config
  registry := h'.registry.trans h.registry
  flatten t := (h.graph ▸ h'.flatten t).trans (h.flatten t)
  custom := h'.custom.trans h.custom

theorem modifyBus (w : World σ ε α) (b : BusId) (f : Bus α → Bus α)
    (hc : (f (w.bus b)).config = (w.bus b).config)
    (hr : (f (w.bus b)).registry = (w.bus b).registry)
    (hf : ∀ t, (f (w.bus b)).cache.flatten w.graph t = (w.bus b).cache.flatten w.graph t)
    (hs : (f (w.bus b)).sink.custom? = (w.bus b).sink.custom?) :
    Steady b w (w.modifyBus b f) where
  thread := rfl
  size := by simp [World.modifyBus]
  graph := rfl
  subscribers := rfl
  config := view_modifyBus (·.config) f b b hc
  registry := view_modifyBus (·.registry) f b b hr
  flatten t := view_modifyBus (·.cache.flatten w.graph t) f b b (hf t)
  custom := view_modifyBus (·.sink.custom?) f b b hs

theorem tell (b : BusId) (w : World σ ε α) (n : Notice) : Steady b w (w.tell n) :=
  ⟨rfl, rfl, rfl, rfl, rfl, rfl, fun _ => rfl, rfl⟩

theorem note (b : BusId) (w : World σ ε α) (e : ε) : Steady b w (w.note e) :=
  ⟨rfl, rfl, rfl, rfl, rfl, rfl, fun _ => rfl, rfl⟩

theorem store (b : BusId) (w : World σ ε α) (s : σ) : Steady b w { w with store := s } :=
  ⟨rfl, rfl, rfl, rfl, rfl, rfl, fun _ => rfl, rfl⟩

theorem remember (w : World σ ε α) (b : BusId) (e : Event α) : Steady b w (w.remember b e) :=
  modifyBus w b _ rfl rfl (fun _ => HierarchyCache.flatten_request _ _ _ _) rfl

theorem queues (w : World σ ε α) (b : BusId) (q : Bus α → Queues α) :
    Steady b w (w.modifyBus b fun bus => { bus with queues := q bus }) :=
  modifyBus w b _ rfl rfl (fun _ => rfl) rfl

theorem keep (w : World σ ε α) (b : BusId) (d : Delivery α) (e : HandlerError) :
    Steady b w (w.keep b d e) := by
  unfold World.keep
  split
  · exact refl b w
  · exact refl b w
  · exact tell b w _
  · rename_i fs h
    exact modifyBus w b _ rfl rfl (fun _ => rfl) (by rw [h]; rfl)

theorem resolve (h : Steady b w w') (e : Event α) : w'.resolve b e = w.resolve b e := by
  unfold World.resolve Bus.resolve
  rw [h.registry, h.graph, h.flatten]

theorem subscriberType (h : Steady b w w') (s : SubscriberId) :
    w'.subscriberType s = w.subscriberType s :=
  congrFun (subscriberType_congr h.subscribers) s

end Steady

/-! ## Posting -/

/-- The deliveries of `e` itself that a post of it to `b` makes now. -/
def finds (w : World σ ε α) (b : BusId) (e : Event α) : List (Delivery α) :=
  (w.resolve b e).map (⟨e, ·⟩)

@[simp]
theorem finds_eq_nil {b : BusId} {e : Event α} : w.finds b e = [] ↔ w.resolve b e = [] :=
  List.map_eq_nil_iff

/-- The deliveries that a post of `e` to `b` makes where no registry changes: of the event, or of
the dead event in its place. -/
def reach (w : World σ ε α) (b : BusId) (e : Event α) : List (Delivery α) :=
  match w.resolve b e with
  | [] => if e.type = .dead then [] else (w.resolve b (.dead b e)).map (⟨.dead b e, ·⟩)
  | bs => bs.map (⟨e, ·⟩)

theorem reach_of_found {b : BusId} {e : Event α} (h : w.resolve b e ≠ []) :
    w.reach b e = w.finds b e := by
  unfold reach finds
  cases hr : w.resolve b e with
  | nil => exact absurd hr h
  | cons c cs => rfl

theorem reach_of_buried {b : BusId} {e : Event α} (h : w.resolve b e = []) (hd : e.type ≠ .dead) :
    w.reach b e = w.finds b (.dead b e) := by
  simp [reach, finds, h, hd]

theorem reach_of_dead {b : BusId} {e : Event α} (hd : e.type = .dead) :
    w.reach b e = w.finds b e := by
  by_cases h : w.resolve b e = []
  · simp [reach, finds, h, hd]
  · exact reach_of_found h

theorem Steady.finds {b : BusId} (h : Steady b w w') (e : Event α) :
    w'.finds b e = w.finds b e := by
  unfold World.finds
  rw [h.resolve]

theorem Steady.reach {b : BusId} (h : Steady b w w') (e : Event α) :
    w'.reach b e = w.reach b e := by
  unfold World.reach
  rw [h.resolve, h.resolve]

/-- A post looks up one hierarchy and tells what it does. What becomes of the event is decided by
what the registry holds for it. -/
theorem post_cases (w : World σ ε α) (b : BusId) (e : Event α) :
    ∃ w', Calm w w' ∧ Steady b w w' ∧
      ((∃ c cs, w.post b e = (w', .delivered (c :: cs)) ∧ w.resolve b e = c :: cs) ∨
        (w.post b e = (w', .buried (.dead b e)) ∧ w.resolve b e = [] ∧ e.type ≠ .dead) ∨
        (w.post b e = (w', .dropped) ∧ w.resolve b e = [] ∧ e.type = .dead)) := by
  have calm : Calm w (w.remember b e) := Calm.modifyBus w b _ rfl rfl
  have steady : Steady b w (w.remember b e) := Steady.remember w b e
  have told : ∀ n, Calm w ((w.remember b e).tell n) ∧ Steady b w ((w.remember b e).tell n) :=
    fun n => ⟨calm.trans (Calm.tell _ _), steady.trans (Steady.tell b _ _)⟩
  unfold post
  cases hr : w.resolve b e with
  | cons c cs => exact ⟨_, (told _).1, (told _).2, .inl ⟨c, cs, rfl, rfl⟩⟩
  | nil =>
    by_cases hd : e.type = .dead
    · exact ⟨_, (told _).1, (told _).2, .inr (.inr ⟨if_pos hd, rfl, hd⟩)⟩
    · exact ⟨_, (told _).1, (told _).2, .inr (.inl ⟨if_neg hd, rfl, hd⟩)⟩

end World

/-- What runs while the dead event in the place of `e` is posted to `b`. -/
def Program.bury (b : BusId) (e : Event α) : Program σ ε α :=
  .post b (.dead b e) (.finish .done)

namespace Machine

/-- A post without handlers touches no queue. It is over if its event is a dead one; if not, the
dead event in the place of the event is still to be posted. -/
theorem request_post (w : World σ ε α) (k : List (Frame σ ε α)) (b : BusId) (e : Event α)
    (next : Program σ ε α) :
    ∃ w', w.Calm w' ∧ World.Steady b w w' ∧
      ((w.resolve b e = [] ∧ e.type = .dead ∧ request w k (.post b e next) = ⟨w', .run next, k⟩) ∨
        (w.resolve b e = [] ∧ e.type ≠ .dead ∧
          request w k (.post b e next) = ⟨w', .run (.bury b e), .resume next :: k⟩) ∨
        ∃ c cs, w.resolve b e = c :: cs ∧ w.post b e = (w', .delivered (c :: cs))) := by
  obtain ⟨w', hc, hs, h⟩ := w.post_cases b e
  refine ⟨w', hc, hs, ?_⟩
  rcases h with ⟨c, cs, hp, hr⟩ | ⟨hp, hr, hd⟩ | ⟨hp, hr, hd⟩
  · exact .inr (.inr ⟨c, cs, hr, hp⟩)
  · exact .inr (.inl ⟨hr, hd, by simp only [request, hp]; rfl⟩)
  · exact .inl ⟨hr, hd, by simp only [request, hp]⟩

end Machine

/-! ## Requests of a registry -/

namespace Machine

variable (w : World σ ε α) (k : List (Frame σ ε α)) (b : BusId) (s : SubscriberId)
  (next : Except BusError Unit → Program σ ε α)

/-- A program that registers goes on with the answer, and no queue is touched. -/
theorem request_register : ∃ w' o, request w k (.register b s next) = ⟨w', .run (next o), k⟩ ∧
    w.Calm w' ∧ w'.subscribers = w.subscribers := by
  simp only [request]
  split
  · exact ⟨w, _, rfl, .refl w, rfl⟩
  · split
    · rename_i w' h
      exact ⟨w', _, rfl, World.Calm.register h⟩
    · exact ⟨w, _, rfl, .refl w, rfl⟩

theorem request_unregister : ∃ w' o, request w k (.unregister b s next) = ⟨w', .run (next o), k⟩ ∧
    w.Calm w' ∧ w'.subscribers = w.subscribers := by
  simp only [request]
  split
  · exact ⟨w, _, rfl, .refl w, rfl⟩
  · split
    · rename_i w' h
      exact ⟨w', _, rfl, World.Calm.unregister h⟩
    · exact ⟨w, _, rfl, .refl w, rfl⟩

end Machine
end EventBus
