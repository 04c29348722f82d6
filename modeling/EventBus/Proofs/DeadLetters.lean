import EventBus.Proofs.Accounts
import EventBus.Proofs.Requests
import EventBus.Proofs.DispatchOrder

/-!
# Dead letters

An event that resolves to nothing is buried: a dead event that wraps it is posted in its place and
goes to the handlers of dead events. A dead event without handlers goes nowhere. So posts nest once at
most, since a dead event is not buried again.
-/

namespace EventBus

variable {σ ε α : Type}

theorem TypeGraph.flatten_of_lone {g : TypeGraph} {t : EventType} (ht : t.isRoot = false)
    (h : g.supertypes t = []) : g.flatten t = [t, .root] := by
  rw [flatten, explore, if_neg (by simp [ht]), h, List.append_nil, explore]
  rfl

/-! ## Dead events stand alone -/

namespace Bus

/-- The flattening kept of the type of dead events, if there is one, has the root above it only. -/
def DeadAlone (b : Bus α) : Prop := ∀ types, b.cache.find? .dead = some types → types = [.dead, .root]

variable {b : Bus α}

theorem DeadAlone.build (builder : Builder) : (builder.build : Bus α).DeadAlone :=
  fun _ h => by cases h

theorem DeadAlone.flatten (h : b.DeadAlone) {g : TypeGraph} (hg : g.supertypes .dead = []) :
    b.cache.flatten g .dead = [.dead, .root] := by
  unfold HierarchyCache.flatten
  cases hf : b.cache.find? .dead with
  | none => exact TypeGraph.flatten_of_lone (by decide) hg
  | some types => exact h types hf

theorem DeadAlone.serve (h : b.DeadAlone) {request : Request}
    (hr : ∀ g t, request = .lookup g t → g.supertypes .dead = []) : (b.serve request).DeadAlone := by
  obtain hb | ⟨s, m, -, -, hb⟩ | ⟨s, m, r, -, -, -, hb⟩ | ⟨g, t, hlookup, hb⟩ | ⟨d, -, hb⟩ :=
    b.serve_cases request <;> rw [hb]
  · exact h
  · exact h
  · exact h
  · intro types htypes
    simp only [remember] at htypes
    by_cases ht : EventType.dead = t
    · subst ht
      rw [HierarchyCache.find?_request_self, h.flatten (hr g _ hlookup)] at htypes
      cases htypes
      rfl
    · rw [HierarchyCache.find?_request_ne _ g ht] at htypes
      exact h types htypes
  · exact h

theorem DeadAlone.serveAll : ∀ {requests : List Request} {b : Bus α}, b.DeadAlone →
    (∀ g t, .lookup g t ∈ requests → g.supertypes .dead = []) → (b.serveAll requests).DeadAlone
  | [], _, h, _ => h
  | request :: requests, b, h, hr => by
    refine serveAll (b := b.serve request) (h.serve fun g t hl => hr g t ?_)
      fun g t hl => hr g t (List.mem_cons_of_mem _ hl)
    rw [hl]
    exact List.mem_cons_self ..

end Bus

namespace World

/-- Every bus has its handlers and hierarchies in order, and dead events have no supertypes. -/
structure Tidy (w : World σ ε α) : Prop where
  orderly : ∀ b, (w.bus b).Orderly
  alone : ∀ b, (w.bus b).DeadAlone
  dead : w.graph.supertypes .dead = []

theorem Tidy.of_built {w : World σ ε α} (h : ∀ bus ∈ w.buses, ∃ builder : Builder, bus = builder.build)
    (hd : w.graph.supertypes .dead = []) : w.Tidy := by
  have hbus : ∀ b, ∃ builder : Builder, w.bus b = builder.build := by
    intro b
    unfold bus
    cases hb : w.buses[b]? with
    | none => exact ⟨.new, rfl⟩
    | some bus => exact h bus (List.mem_of_getElem? hb)
  refine ⟨fun b => ?_, fun b => ?_, hd⟩
  · obtain ⟨builder, hb⟩ := hbus b
    exact hb ▸ .build builder
  · obtain ⟨builder, hb⟩ := hbus b
    exact hb ▸ .build builder

theorem Tidy.serves {w w' : World σ ε α} {requests : BusId → List Bus.Request}
    {types : List EventType} (h : w.Tidy) (hw : Serves requests types w w') (ht : .dead ∉ types)
    (hr : ∀ b g t, .lookup g t ∈ requests b → g = w.graph) : w'.Tidy where
  orderly b := (hw.buses b).orderly (h.orderly b)
  alone b := by
    obtain ⟨served, hsub, halike⟩ := hw.buses b
    have hserved := (h.alone b).serveAll fun g t hl => by
      rw [hr b g t (hsub.subset hl)]
      exact h.dead
    intro types htypes
    rw [halike.cache] at htypes
    exact hserved types htypes
  dead := by
    rcases hw.graph with hg | ⟨t, hmem, supers, hg⟩
    · rw [hg, h.dead]
    · have hne : EventType.dead ≠ t := fun hd => ht (by rw [hd]; exact hmem)
      rw [hg, TypeGraph.supertypes_declare_ne _ hne, h.dead]

theorem Tidy.resolve_dead {w : World σ ε α} (h : w.Tidy) (b : BusId) (e : Event α) :
    w.resolve b (.dead b e) = (w.bus b).registry.get .dead ++ (w.bus b).registry.get .root := by
  rw [resolve, Bus.resolve, show (Event.dead b e).type = .dead from rfl, (h.alone b).flatten h.dead]
  simp only [Registry.resolve, List.flatMap_cons, List.flatMap_nil, List.append_nil]

/-- The handlers of the root are among those of every event. -/
theorem Tidy.root_sublist {w : World σ ε α} (h : w.Tidy) (b : BusId) (e : Event α) :
    ((w.bus b).registry.get .root).Sublist (w.resolve b e) := by
  obtain ⟨-, front, hfront⟩ := (h.orderly b).cache.flatten w.graph e.type
  rw [resolve, Bus.resolve, hfront, Registry.resolve, List.flatMap_append, List.flatMap_singleton]
  exact List.sublist_append_right ..

end World

theorem Crew.tidy_after {c : Crew σ ε α} (h : c.world.Tidy) (code : Behaviour σ ε α)
    (picks : Nat → Pick σ ε α) {n : Nat}
    (hd : ∀ m < n, .dead ∉ (c.after code picks m).seen (picks m) (·.declares)) :
    (c.after code picks n).world.Tidy := by
  induction n with
  | zero => exact h
  | succ n ih =>
    refine (ih fun m hm => hd m (Nat.lt_succ_of_lt hm)).serves (serves_step code _ (picks n))
      (hd n (Nat.lt_succ_self n)) fun b g t hl => lookup_seen hl

/-! ## What is on its way -/

namespace World

/-- What waits in the queue of `t` on `b`. -/
def waiting (w : World σ ε α) (b : BusId) (t : ThreadId) : List (Delivery α) :=
  ((w.entry b t).map (·.pending)).getD []

end World

/-! ## What a post puts on its way -/

namespace Machine

section

variable {w : World σ ε α} {b : BusId}

theorem waiting_setQueues (hb : w.mode b = .queued) {q : Queues α}
    (h : ∀ t, ((q.get? t).map (·.pending)).getD [] = w.waiting b t) (c : BusId) (t : ThreadId) :
    (w.setQueues b q).waiting c t = w.waiting c t := by
  unfold World.waiting
  rw [World.entry_setQueues hb]
  split
  · rename_i hc
    rw [hc]
    exact h t
  · rfl

theorem waiting_drain (hb : w.mode b = .queued) (next : Program σ ε α) (k : List (Frame σ ε α))
    (c : BusId) (t : ThreadId) : (drain w b next k).world.waiting c t = w.waiting c t := by
  unfold drain
  split
  · rename_i queues hq
    obtain ⟨q, hget, -, hself, hother⟩ := Queues.of_claim?_some hq
    refine waiting_setQueues hb (fun u => ?_) c t
    by_cases hu : u = w.thread
    · subst hu
      rw [hself, World.waiting, World.entry, hget]
      rfl
    · rw [hother u hu]
      rfl
  · rfl

theorem waiting_enqueueAll (hb : w.mode b = .queued) {ds : List (Delivery α)} (hds : ds ≠ [])
    (c : BusId) (t : ThreadId) : (w.enqueueAll b ds).waiting c t =
      w.waiting c t ++ if c = b ∧ t = w.thread then ds else [] := by
  unfold World.waiting
  by_cases hct : c = b ∧ t = w.thread
  · obtain ⟨rfl, rfl⟩ := hct
    rw [entry_enqueueAll_self hb hds, if_pos ⟨rfl, rfl⟩]
    cases w.entry c w.thread <;> rfl
  · rw [if_neg hct, List.append_nil, World.enqueueAll_eq]
    have hq : ∀ v, v ≠ w.thread → ((w.bus b).queues.enqueueAll w.thread ds).get? v = w.entry b v :=
      fun v hv => Queues.get?_enqueueAll_ne hv _ ds
    rw [World.entry_setQueues_ne hb hq fun h => hct ⟨h.1.symm, h.2.symm⟩]

end

section

variable {w : World σ ε α} {b : BusId} (e : Event α) (next : Program σ ε α) (k : List (Frame σ ε α))

theorem waiting_of_calm {w' : World σ ε α} (h : World.Calm w w') (c : BusId) (t : ThreadId) :
    w'.waiting c t = w.waiting c t := by
  unfold World.waiting
  rw [h.entry]

/-- A post whose event has no handlers touches no queue. -/
theorem post_of_unheard (h : w.resolve b e = []) :
    World.Calm w (request w k (.post b e next)).world ∧
      (request w k (.post b e next)).strand =
        if e.type = .dead then ⟨w.thread, .run next, k⟩
        else ⟨w.thread, .run (.bury b e), .resume next :: k⟩ := by
  obtain ⟨w', hc, -, ⟨-, hd, hr⟩ | ⟨-, hd, hr⟩ | ⟨g, gs, hr, -⟩⟩ := request_post w k b e next
  · rw [hr, if_pos hd]
    exact ⟨hc, by simp only [strand, hc.thread]⟩
  · rw [hr, if_neg hd]
    exact ⟨hc, by simp only [strand, hc.thread]⟩
  · rw [h] at hr
    cases hr

theorem waiting_post (hb : w.mode b = .queued) (h : w.resolve b e ≠ []) (c : BusId) (t : ThreadId) :
    (request w k (.post b e next)).world.waiting c t =
      w.waiting c t ++ if c = b ∧ t = w.thread then w.finds b e else [] := by
  obtain ⟨w', hc, -, ⟨hr, -⟩ | ⟨hr, -⟩ | ⟨g, gs, hr, hp⟩⟩ := request_post w k b e next
  · exact absurd hr h
  · exact absurd hr h
  · have hb' : w'.mode b = .queued := by
      rw [hc.mode]
      exact hb
    have hmode : (w'.enqueueAll b ((g :: gs).map (⟨e, ·⟩))).mode b = .queued := by
      rw [World.enqueueAll_eq, World.mode_setQueues]
      exact hb'
    have hne : (g :: gs).map (fun g => (⟨e, g⟩ : Delivery α)) ≠ [] := List.cons_ne_nil _ _
    simp only [request, hp, show (w'.bus b).config.mode = .queued from hb']
    rw [waiting_drain hmode, waiting_enqueueAll hb' hne, waiting_of_calm hc, World.finds, hr, hc.thread]

theorem handing_post (hb : w.mode b = .immediate) (h : w.resolve b e ≠ []) :
    (∀ c t, (request w k (.post b e next)).world.waiting c t = w.waiting c t) ∧
      (request w k (.post b e next)).strand =
        ⟨w.thread, .returned .done, .handing b e (w.resolve b e) :: .resume next :: k⟩ := by
  obtain ⟨w', hc, -, ⟨hr, -⟩ | ⟨hr, -⟩ | ⟨g, gs, hr, hp⟩⟩ := request_post w k b e next
  · exact absurd hr h
  · exact absurd hr h
  · have hb' : (w'.bus b).config.mode = .immediate := by
      rw [hc.config]
      exact hb
    have hm : request w k (.post b e next) =
        ⟨w', .returned .done, .handing b e (g :: gs) :: .resume next :: k⟩ := by
      simp only [request, hp, hb']
    rw [hm, hr]
    exact ⟨waiting_of_calm hc, by simp only [strand, hc.thread]⟩

end

end Machine

/-! ## The dead events that are made -/

/-- The dead event that is made of an event without handlers. -/
def World.Fate.made : World.Fate α → List (Event α)
  | .buried dead => [dead]
  | _ => []

theorem World.made_post (w : World σ ε α) (b : BusId) (e : Event α) : (w.post b e).2.made =
    if w.resolve b e = [] ∧ e.type ≠ .dead then [.dead b e] else [] := by
  obtain ⟨w', -, -, h⟩ := w.post_cases b e
  rcases h with ⟨c, cs, hp, hr⟩ | ⟨hp, hr, hd⟩ | ⟨hp, hr, hd⟩
  · simp [hp, hr, Fate.made]
  · simp [hp, hr, hd, Fate.made]
  · simp [hp, hr, hd, Fate.made]

/-- The dead event that the next step makes. -/
def Machine.buries (m : Machine σ ε α) : List (Event α) :=
  match m.control with
  | .run (.post b e _) => (m.world.post b e).2.made
  | _ => []

namespace World

variable {w : World σ ε α}

/-- An event that finds nobody finds no handler of the root. -/
theorem Tidy.root_of_unheard (h : w.Tidy) {b : BusId} {e : Event α} (hr : w.resolve b e = []) :
    (w.bus b).registry.get .root = [] :=
  List.eq_nil_of_sublist_nil (hr ▸ h.root_sublist b e)

end World

theorem Machine.of_mem_buries {m : Machine σ ε α} (h : m.world.Tidy) {d : Event α}
    (hd : d ∈ m.buries) : ∃ b e, d = .dead b e ∧ e.type ≠ .dead ∧
      (m.world.bus b).registry.get .root = [] := by
  unfold buries at hd
  split at hd
  · rename_i b e next hcontrol
    rw [World.made_post] at hd
    split at hd
    · rename_i hb
      exact ⟨b, e, List.mem_singleton.mp hd, hb.2, h.root_of_unheard hb.1⟩
    · cases hd
  · cases hd

theorem Machine.length_buries_le (m : Machine σ ε α) : m.buries.length ≤ 1 := by
  unfold buries
  split
  · rw [World.made_post]
    split <;> simp
  · simp

namespace Crew

/-- The step `n`, a post of the strand `i` on `t` that goes on with `next` on `k`, puts the deliveries
of `e` to `bs` on their way: to the queue of its thread, or to be made at once. -/
structure Sends (c : Crew σ ε α) (code : Behaviour σ ε α) (picks : Nat → Pick σ ε α) (n i : Nat)
    (t : ThreadId) (b : BusId) (e : Event α) (bs : List Binding) (next : Program σ ε α)
    (k : List (Frame σ ε α)) : Prop where
  queued : (c.after code picks n).world.mode b = .queued → ∀ b' u,
    (c.after code picks (n + 1)).world.waiting b' u =
      (c.after code picks n).world.waiting b' u ++ if b' = b ∧ u = t then bs.map (⟨e, ·⟩) else []
  immediate : (c.after code picks n).world.mode b = .immediate →
    (∀ b' u, (c.after code picks (n + 1)).world.waiting b' u =
      (c.after code picks n).world.waiting b' u) ∧
    (c.after code picks (n + 1)).strands[i]? =
      some ⟨t, .returned .done, .handing b e bs :: .resume next :: k⟩

/-- The step `n` of the strand `i` puts nothing on its way and goes on with `p`. -/
structure GoesOn (c : Crew σ ε α) (code : Behaviour σ ε α) (picks : Nat → Pick σ ε α) (n i : Nat)
    (t : ThreadId) (p : Program σ ε α) (k : List (Frame σ ε α)) : Prop where
  waiting : ∀ b' u, (c.after code picks (n + 1)).world.waiting b' u =
    (c.after code picks n).world.waiting b' u
  strand : (c.after code picks (n + 1)).strands[i]? = some ⟨t, .run p, k⟩

section

variable {c : Crew σ ε α} (code : Behaviour σ ε α) {picks : Nat → Pick σ ε α} {n i : Nat}
  {t : ThreadId} {b : BusId} {e : Event α} {next : Program σ ε α} {k : List (Frame σ ε α)}
  (hp : picks n = .work i)
  (hs : (c.after code picks n).strands[i]? = some ⟨t, .run (.post b e next), k⟩)
include hp hs

theorem after_post :
    let m := Machine.request { (c.after code picks n).world with thread := t } k (.post b e next)
    (c.after code picks (n + 1)).world = m.world ∧
      (c.after code picks (n + 1)).strands[i]? = some m.strand := by
  obtain ⟨hstrand, hworld, -⟩ := own_turn hs hp
  exact ⟨hworld, hstrand⟩

/-- A post puts on its way what its event finds. -/
theorem sends_post (h : (c.after code picks n).world.resolve b e ≠ []) :
    c.Sends code picks n i t b e ((c.after code picks n).world.resolve b e) next k := by
  obtain ⟨hworld, hstrand⟩ := after_post code hp hs
  refine ⟨fun hm b' u => ?_, fun hm => ⟨fun b' u => ?_, ?_⟩⟩
  · rw [hworld]
    exact Machine.waiting_post (w := { (c.after code picks n).world with thread := t }) e next k hm h b' u
  · rw [hworld]
    exact (Machine.handing_post (w := { (c.after code picks n).world with thread := t }) e next k hm
      h).1 b' u
  · rw [hstrand]
    exact congrArg some (Machine.handing_post
      (w := { (c.after code picks n).world with thread := t }) e next k hm h).2

/-- A post of an event that nobody handles touches no queue. -/
theorem calm_post (h : (c.after code picks n).world.resolve b e = []) :
    (∀ b' u, (c.after code picks (n + 1)).world.entry b' u = (c.after code picks n).world.entry b' u) ∧
      (c.after code picks (n + 1)).strands[i]? = some (if e.type = .dead then ⟨t, .run next, k⟩
        else ⟨t, .run (.bury b e), .resume next :: k⟩) := by
  obtain ⟨hworld, hstrand⟩ := after_post code hp hs
  obtain ⟨hcalm, hm⟩ := Machine.post_of_unheard
    (w := { (c.after code picks n).world with thread := t }) e next k h
  rw [hm] at hstrand
  exact ⟨fun b' u => hworld ▸ hcalm.entry b' u, hstrand⟩

theorem goesOn_dropped (h : (c.after code picks n).world.resolve b e = []) (hd : e.type = .dead) :
    c.GoesOn code picks n i t next k := by
  obtain ⟨hentry, hstrand⟩ := calm_post code hp hs h
  rw [if_pos hd] at hstrand
  exact ⟨fun b' u => by rw [World.waiting, hentry, World.waiting], hstrand⟩

theorem goesOn_buried (h : (c.after code picks n).world.resolve b e = []) (hd : e.type ≠ .dead) :
    c.GoesOn code picks n i t (.bury b e) (.resume next :: k) := by
  obtain ⟨hentry, hstrand⟩ := calm_post code hp hs h
  rw [if_neg hd] at hstrand
  exact ⟨fun b' u => by rw [World.waiting, hentry, World.waiting], hstrand⟩

/-- A post that is over and had nobody to go to has posted a dead event in its place. -/
theorem exists_bury (h : (c.after code picks n).world.resolve b e = []) (hd : e.type ≠ .dead) {m : Nat}
    (hnm : n < m) {s : Strand σ ε α} (hm : (c.after code picks m).strands[i]? = some s)
    (hlen : s.stack.length ≤ k.length) :
    ∃ l, NextTurn picks i n l ∧ l < m ∧
      (c.after code picks l).strands[i]? = some ⟨t, .run (.bury b e), .resume next :: k⟩ := by
  have hstrand := (goesOn_buried code hp hs h hd).strand
  obtain ⟨l, hnl, hlm, hpl, hothers, hl⟩ := exists_first_turn c code picks hnm hstrand fun hm' => by
    cases hm.symm.trans hm'
    exact absurd hlen (Nat.not_le_of_lt (Nat.lt_succ_self _))
  exact ⟨l, ⟨hnl, hpl, fun m' hnm' hml => hothers m' hnm' hml⟩, hlm, hl⟩

theorem buries_post : (c.after code picks n).seen (picks n) (·.buries) =
    if (c.after code picks n).world.resolve b e = [] ∧ e.type ≠ .dead then [.dead b e] else [] := by
  obtain ⟨-, -, hown⟩ := own_turn hs hp
  rw [hown]
  exact World.made_post _ b e

end

end Crew

namespace Ripple

/-- A bus that nobody has registered with, and a listener to dead events who is about to. -/
def silence : Crew Unit Unit Unit :=
  ⟨⟨⟨.empty⟩, [⟨0, "Ripple", [(handler .dead 2).method]⟩], [Builder.new.build], 0, 1, (), []⟩,
    [⟨0, .run (.register 0 0 fun _ => .post 0 (event lost) (.finish .done)), []⟩]⟩

theorem silence_fresh : silence.Fresh :=
  Crew.fresh_alone (fun b t => by cases b <;> rfl) (by decide) _

theorem silence_tidy : silence.world.Tidy :=
  .of_built (fun _ h => ⟨.new, List.mem_singleton.mp h⟩) rfl

theorem silence_declares : ∀ m < 2,
    .dead ∉ (silence.after code (fun _ => .work 0) m).seen (.work 0) (·.declares) := by
  intro m hm
  obtain rfl | rfl : m = 0 ∨ m = 1 := by omega
  · exact List.not_mem_nil
  · exact List.not_mem_nil

theorem silence_unheard : (silence.after code (fun _ => .work 0) 1).world.resolve 0 (event lost) = [] := by
  show Registry.resolve _ (TypeGraph.flatten ⟨.empty⟩ lost) = []
  rw [TypeGraph.flatten_of_lone (by decide) rfl]
  rfl

end Ripple
end EventBus
