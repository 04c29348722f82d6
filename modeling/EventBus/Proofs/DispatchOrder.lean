import EventBus.Proofs.Conduct

/-!
# Depth first and level by level

Where handlers do nothing to a bus but post to it, both disciplines deliver the forest of an event:
immediate dispatch on a tour around it, queued dispatch level by level.
-/

namespace EventBus

open Machine

section

variable {σ ε α : Type} {code : Behaviour σ ε α} {b : BusId} {w₀ : World σ ε α} {c : Conduct α}

theorem RoseTree.tours_append {δ β : Type} (enter leave : δ → List β) : ∀ ts us : List (RoseTree δ),
    tours enter leave (ts ++ us) = tours enter leave ts ++ tours enter leave us
  | [], us => by simp [tours]
  | t :: ts, us => by
    rw [List.cons_append, tours, tours, tours_append enter leave ts us, List.append_assoc]

/-! ## The post that is dispatched -/

/-- Where no registry changes, a post comes, with the event or with the dead event in its place, to
a dispatch of what the event reaches, and from there back to its poster. -/
theorem leads_post (code : Behaviour σ ε α) (b : BusId) (w : World σ ε α) (e : Event α)
    (next : Program σ ε α) (k : List (Frame σ ε α)) :
    ∃ w', World.Calm w w' ∧ World.Steady b w w' ∧
      ((w.reach b e = [] ∧ Leads code b ⟨w, .run (.post b e next), k⟩ [] ⟨w', .run next, k⟩) ∨
        ∃ v e' g gs next' k', w.reach b e = (g :: gs).map (⟨e', ·⟩) ∧
          v.post b e' = (w', .delivered (g :: gs)) ∧
          Leads code b ⟨w, .run (.post b e next), k⟩ [] ⟨v, .run (.post b e' next'), k'⟩ ∧
          ∀ u, Leads code b ⟨u, .run next', k'⟩ [] ⟨u, .run next, k⟩) := by
  obtain ⟨v, hc, hs, h⟩ := w.post_cases b e
  rcases h with ⟨g, gs, hp, hr⟩ | ⟨hp, hr, hd⟩ | ⟨hp, hr, hd⟩
  · refine ⟨v, hc, hs, .inr ⟨w, e, g, gs, next, k, ?_, hp, .refl _, fun u => .refl _⟩⟩
    rw [World.reach_of_found (by simp [hr]), World.finds, hr]
  · have buried : Leads code b ⟨w, .run (.post b e next), k⟩ []
        ⟨v, .run (.post b (.dead b e) (.finish .done)), .resume next :: k⟩ :=
      Leads.skip rfl (by simp [step, request, hp]) (.refl _)
    have back : ∀ u, Leads code b ⟨u, .run (.finish .done), .resume next :: k⟩ []
        ⟨u, .run next, k⟩ :=
      fun u => Leads.skip rfl rfl (Leads.skip rfl rfl (.refl _))
    obtain ⟨w', hc', hs', h'⟩ := v.post_cases b (.dead b e)
    rw [World.reach_of_buried hr hd, ← hs.finds]
    rcases h' with ⟨g, gs, hp', hr'⟩ | ⟨-, -, hd'⟩ | ⟨hp', hr', -⟩
    · exact ⟨w', hc.trans hc', hs.trans hs',
        .inr ⟨v, _, g, gs, _, _, by rw [World.finds, hr'], hp', buried, back⟩⟩
    · exact absurd rfl hd'
    · exact ⟨w', hc.trans hc', hs.trans hs', .inl ⟨World.finds_eq_nil.mpr hr',
        buried.trans (Leads.skip rfl (by simp [step, request, hp']) (back w'))⟩⟩
  · refine ⟨v, hc, hs, .inl ⟨?_, Leads.skip rfl (by simp [step, request, hp]) (.refl _)⟩⟩
    rw [World.reach_of_dead hd, World.finds_eq_nil.mpr hr]

/-! ## Immediate dispatch -/

namespace Immediate

/-- A delivery, wherever it starts, makes the tour of its tree and returns. -/
def Delivers (code : Behaviour σ ε α) (b : BusId) (w₀ : World σ ε α) (c : Conduct α)
    (t : RoseTree (Delivery α)) : Prop :=
  ∀ w k, World.Steady b w₀ w → ∃ w', World.Steady b w₀ w' ∧
    Leads code b ⟨w, .call ⟨t.label, .delivery b⟩, k⟩ (t.tour (fun d => [.start d]) (w₀.reported c))
      ⟨w', .returned .done, k⟩

theorem handing (e : Event α) : ∀ (ts : List (RoseTree (Delivery α))) (bs : List Binding),
    ts.map RoseTree.label = bs.map (⟨e, ·⟩) → (∀ t ∈ ts, Delivers code b w₀ c t) →
    ∀ (w : World σ ε α) (x : Ending) (k : List (Frame σ ε α)), World.Steady b w₀ w →
      ∃ w', World.Steady b w₀ w' ∧ Leads code b ⟨w, .returned x, .handing b e bs :: k⟩
        (RoseTree.tours (fun d => [.start d]) (w₀.reported c) ts) ⟨w', .returned .done, k⟩
  | [], [], _, _, w, _, _, hw => ⟨w, hw, Leads.skip rfl rfl (.refl _)⟩
  | [], _ :: _, h, _, _, _, _, _ => by cases h
  | _ :: _, [], h, _, _, _, _, _ => by cases h
  | t :: ts, g :: bs, h, ht, w, x, k, hw => by
    rw [List.map_cons, List.map_cons, List.cons.injEq] at h
    obtain ⟨w₁, hw₁, hl₁⟩ := ht t (List.mem_cons_self ..) w (.handing b e bs :: k) hw
    obtain ⟨w₂, hw₂, hl₂⟩ := handing e ts bs h.2 (fun u hu => ht u (List.mem_cons_of_mem _ hu))
      w₁ .done k hw₁
    refine ⟨w₂, hw₂, ?_⟩
    rw [h.1] at hl₁
    exact Leads.skip rfl rfl (hl₁.trans hl₂)

theorem post (hm : (w₀.bus b).config.mode = .immediate) {e : Event α}
    {ts : List (RoseTree (Delivery α))} (hr : ts.map RoseTree.label = w₀.reach b e)
    (ht : ∀ t ∈ ts, Delivers code b w₀ c t) (w : World σ ε α) (next : Program σ ε α)
    (k : List (Frame σ ε α)) (hw : World.Steady b w₀ w) :
    ∃ w', World.Steady b w₀ w' ∧ Leads code b ⟨w, .run (.post b e next), k⟩
      (RoseTree.tours (fun d => [.start d]) (w₀.reported c) ts) ⟨w', .run next, k⟩ := by
  obtain ⟨w₁, -, hs, h⟩ := leads_post code b w e next k
  have hw₁ := hw.trans hs
  rw [← hw.reach] at hr
  rcases h with ⟨hr', hl⟩ | ⟨v, e', g, gs, next', k', hr', hp, hl, hback⟩
  · rw [hr', List.map_eq_nil_iff] at hr
    subst hr
    exact ⟨w₁, hw₁, hl⟩
  · rw [hr'] at hr
    have hstep : (⟨v, .run (.post b e' next'), k'⟩ : Machine σ ε α).step code =
        ⟨w₁, .returned .done, .handing b e' (g :: gs) :: .resume next' :: k'⟩ := by
      simp [step, request, hp, hw₁.config, hm]
    obtain ⟨w₂, hw₂, hl₂⟩ := handing e' ts (g :: gs) hr ht w₁ .done (.resume next' :: k') hw₁
    refine ⟨w₂, hw₂, ?_⟩
    have hdone := (hl₂.tail rfl).trans (hback w₂)
    rw [List.append_nil] at hdone
    exact hl.trans (Leads.skip rfl hstep hdone)

theorem dispatching (hm : (w₀.bus b).config.mode = .immediate) {ts : List (RoseTree (Delivery α))}
    (ht : ∀ t ∈ ts, Delivers code b w₀ c t) :
    Dispatching code b w₀ fun es s w => World.Steady b w₀ w ∧ ∃ done left, done ++ left = ts ∧
      left.map RoseTree.label = es.flatMap (w₀.reach b) ∧
      s = RoseTree.tours (fun d => [.start d]) (w₀.reported c) done where
  steady h := h.1
  same h hs _ := ⟨h.1.trans hs, h.2⟩
  post next k h := by
    obtain ⟨hw, done, left, rfl, hl, rfl⟩ := h
    rw [List.flatMap_cons] at hl
    obtain ⟨mine, rest, rfl, hmine, hrest⟩ := List.map_eq_append_iff.mp hl
    obtain ⟨w', hw', hlead⟩ := post hm hmine (fun t h => ht t (by simp [h])) _ next k hw
    refine ⟨_, w', hlead, hw', done ++ mine, rest, List.append_assoc .., hrest, ?_⟩
    rw [RoseTree.tours_append]

theorem delivers (hf : code.Follows w₀ b c) (hs : code.Discreet w₀ b)
    (hm : (w₀.bus b).config.mode = .immediate) {t : RoseTree (Delivery α)} (h : w₀.Unfolds b c t) :
    Delivers code b w₀ c t := by
  induction h with
  | @node d ts hts _ ih =>
    intro w k hw
    obtain ⟨s, w', hl, hw', done, left, rfl, hleft, rfl⟩ :=
      (dispatching hm ih).call hf hs d k (s := []) ⟨hw, [], ts, rfl, hts, rfl⟩
    rw [List.flatMap_nil, List.map_eq_nil_iff] at hleft
    subst hleft
    refine ⟨w', hw', ?_⟩
    rw [List.append_nil, RoseTree.tour]
    simpa [RoseTree.label] using hl

end Immediate

/-! ## Queued dispatch -/

namespace Queued

/-- The queue of the thread at work, while it is drained. -/
def Holds (b : BusId) (w₀ w : World σ ε α) (ds : List (Delivery α)) : Prop :=
  (w.bus b).queues.get? w₀.thread = some ⟨ds, true⟩

theorem mode_of_steady (hm : (w₀.bus b).config.mode = .queued) {w : World σ ε α}
    (hw : World.Steady b w₀ w) : (w.bus b).config.mode = .queued := by
  rw [hw.config, hm]

theorem bus_queues (hm : (w₀.bus b).config.mode = .queued) {w : World σ ε α}
    (hw : World.Steady b w₀ w) (f : Bus α → Queues α) :
    ((w.modifyBus b fun bus => { bus with queues := f bus }).bus b).queues = f (w.bus b) := by
  rw [World.bus_modifyBus_self (World.lt_length_of_queued (mode_of_steady hm hw))]

theorem bus_enqueueAll (hm : (w₀.bus b).config.mode = .queued) {w : World σ ε α}
    (hw : World.Steady b w₀ w) (ds : List (Delivery α)) :
    ((w.enqueueAll b ds).bus b).queues = (w.bus b).queues.enqueueAll w.thread ds :=
  bus_queues hm hw fun bus => bus.queues.enqueueAll w.thread ds

theorem dispatching (hm : (w₀.bus b).config.mode = .queued) (total : List (Delivery α)) :
    Dispatching code b w₀ fun es s w => World.Steady b w₀ w ∧ s = [] ∧ ∃ ds, Holds b w₀ w ds ∧
      ds ++ es.flatMap (w₀.reach b) = total where
  steady h := h.1
  same h hs hq := ⟨h.1.trans hs, h.2.1, h.2.2.imp fun _ hd => ⟨by rw [Holds, hq]; exact hd.1, hd.2⟩⟩
  post {e es s w} next k h := by
    obtain ⟨hw, rfl, ds, hd, rfl⟩ := h
    obtain ⟨w₁, hc, hs, h⟩ := leads_post code b w e next k
    have hw₁ := hw.trans hs
    have hd₁ : Holds b w₀ w₁ ds := by rwa [Holds, hc.queues]
    rw [List.flatMap_cons, ← hw.reach e]
    rcases h with ⟨hr, hl⟩ | ⟨v, e', g, gs, next', k', hr, hp, hl, hback⟩
    · refine ⟨[], w₁, hl, hw₁, rfl, ds, hd₁, ?_⟩
      rw [hr, List.nil_append]
    · have hd₂ : Holds b w₀ (w₁.enqueueAll b ((g :: gs).map (⟨e', ·⟩)))
          (ds ++ (g :: gs).map (⟨e', ·⟩)) := by
        rw [Holds, bus_enqueueAll hm hw₁, hw₁.thread]
        exact Queues.get?_enqueueAll_of_some _ hd₁
      refine ⟨[], _, hl.trans (Leads.skip rfl ?_ (hback _)), hw₁.trans (.queues _ _ _), rfl, _,
        hd₂, ?_⟩
      · have hn := Queues.claim?_of_draining hd₂ rfl
        rw [← hw₁.thread] at hn
        simp only [step, request, hp, mode_of_steady hm hw₁]
        rw [Machine.drain, show (w₁.enqueueAll b _).thread = w₁.thread from rfl, hn]
        rfl
      · rw [hr, List.append_assoc]

theorem drain (hf : code.Follows w₀ b c) (hs : code.Discreet w₀ b)
    (hm : (w₀.bus b).config.mode = .queued) (ts : List (RoseTree (Delivery α)))
    (ht : ∀ t ∈ ts, w₀.Unfolds b c t) (w : World σ ε α) (x : Ending) (k : List (Frame σ ε α))
    (hw : World.Steady b w₀ w) (hd : Holds b w₀ w (ts.map RoseTree.label)) :
    ∃ w', World.Steady b w₀ w' ∧ Leads code b ⟨w, .returned x, .draining b w₀.thread :: k⟩
      ((RoseTree.queueOrder ts).flatMap fun d => [.start d] ++ w₀.reported c d)
      ⟨w', .returned .done, k⟩ := by
  induction hn : RoseTree.sizes ts using Nat.strongRecOn generalizing ts w x with
  | ind n ih =>
    match ts, ht, hd with
    | [], _, hd =>
      obtain ⟨q, hnext, -, -⟩ := Queues.next_of_nil hd
      rw [RoseTree.queueOrder]
      exact ⟨_, hw.trans (.queues w b fun _ => q), Leads.skip rfl (by simp [step, resume, hnext]) (.refl _)⟩
    | .node d us :: ts, ht, hd =>
      obtain ⟨q, hnext, hget, -⟩ := Queues.next_of_cons hd
      obtain ⟨hus, hu⟩ := ht (.node d us) (List.mem_cons_self ..)
      let w₁ := w.modifyBus b fun bus => { bus with queues := q }
      have hw₁ : World.Steady b w₀ w₁ := hw.trans (.queues w b fun _ => q)
      have hd₁ : Holds b w₀ w₁ (ts.map RoseTree.label) := by
        rw [Holds, bus_queues hm hw fun _ => q]
        exact hget
      have hstep : (⟨w, .returned x, .draining b w₀.thread :: k⟩ : Machine σ ε α).step code =
          ⟨w₁, .call ⟨d, .delivery b⟩, .draining b w₀.thread :: k⟩ := by
        simp [step, resume, hnext, w₁, RoseTree.label]
      obtain ⟨s, w₂, hl, hw₂, hs₂, ds, hd₂, htotal⟩ :=
        (dispatching hm (ts.map RoseTree.label ++ us.map RoseTree.label)).call hf hs d
          (.draining b w₀.thread :: k) (s := []) ⟨hw₁, rfl, _, hd₁, by rw [hus]⟩
      rw [List.nil_append] at hs₂
      rw [List.flatMap_nil, List.append_nil, ← List.map_append] at htotal
      subst hs₂ htotal
      have hlt : RoseTree.sizes (ts ++ us) < n := by
        rw [← hn, RoseTree.sizes_append, RoseTree.sizes, RoseTree.size]
        omega
      obtain ⟨w₃, hw₃, hl₃⟩ := ih _ hlt (ts ++ us)
        (fun t h => (List.mem_append.mp h).elim (fun h => ht t (List.mem_cons_of_mem _ h)) (hu t))
        w₂ .done hw₂ hd₂ rfl
      refine ⟨w₃, hw₃, ?_⟩
      rw [RoseTree.queueOrder, List.flatMap_cons]
      exact Leads.skip rfl hstep (hl.trans hl₃)

theorem post (hf : code.Follows w₀ b c) (hs : code.Discreet w₀ b)
    (hm : (w₀.bus b).config.mode = .queued) (hq : (w₀.bus b).queues.get? w₀.thread = none)
    {e : Event α} {ts : List (RoseTree (Delivery α))} (hts : w₀.Forest b c e ts)
    (next : Program σ ε α) (k : List (Frame σ ε α)) :
    ∃ w', World.Steady b w₀ w' ∧ Leads code b ⟨w₀, .run (.post b e next), k⟩
      ((RoseTree.levelOrder ts).flatMap fun d => [.start d] ++ w₀.reported c d)
      ⟨w', .run next, k⟩ := by
  rw [← RoseTree.queueOrder_eq]
  obtain ⟨w₁, hc, hw₁, h⟩ := leads_post code b w₀ e next k
  have hr := hts.roots
  rcases h with ⟨hr', hl⟩ | ⟨v, e', g, gs, next', k', hr', hp, hl, hback⟩
  · rw [hr', List.map_eq_nil_iff] at hr
    subst hr
    rw [RoseTree.queueOrder]
    exact ⟨w₁, hw₁, hl⟩
  · rw [hr'] at hr
    let w₂ := w₁.enqueueAll b ((g :: gs).map (⟨e', ·⟩))
    have hw₂ : World.Steady b w₀ w₂ := hw₁.trans (.queues _ _ _)
    have hq₂ : (w₂.bus b).queues.get? w₂.thread = some ⟨ts.map RoseTree.label, false⟩ := by
      show ((w₁.enqueueAll b _).bus b).queues.get? w₁.thread = _
      rw [bus_enqueueAll hm hw₁, hr, List.map_cons]
      refine Queues.get?_enqueueAll_of_none ?_ _ _
      rw [hc.queues, hc.thread, hq]
    obtain ⟨q, hclaim, hget, -⟩ := Queues.claim?_of_idle hq₂ rfl
    let w₃ := w₂.modifyBus b fun bus => { bus with queues := q }
    have hw₃ : World.Steady b w₀ w₃ := hw₂.trans (.queues _ _ _)
    have hd : Holds b w₀ w₃ (ts.map RoseTree.label) := by
      rw [Holds, bus_queues hm hw₂ fun _ => q, ← hw₂.thread]
      exact hget
    have hstep : (⟨v, .run (.post b e' next'), k'⟩ : Machine σ ε α).step code =
        ⟨w₃, .returned .done, .draining b w₀.thread :: .resume next' :: k'⟩ := by
      simp only [step, request, hp, mode_of_steady hm hw₁]
      rw [Machine.drain, hclaim, hw₂.thread]
    obtain ⟨w₄, hw₄, hl₄⟩ := drain hf hs hm ts hts.trees w₃ .done (.resume next' :: k') hw₃ hd
    refine ⟨w₄, hw₄, ?_⟩
    have hdone := (hl₄.tail rfl).trans (hback w₄)
    rw [List.append_nil] at hdone
    exact hl.trans (Leads.skip rfl hstep hdone)

end Queued

/-! ## Both disciplines -/

namespace World

def dispatchedBy (w : World σ ε α) (b : BusId) (mode : DispatchMode) : World σ ε α :=
  w.modifyBus b fun bus => { bus with config := { bus.config with mode := mode } }

/-- A post of `e` to `b` returns to its poster. Meanwhile these deliveries start and these failures
are reported, in these orders. -/
def PostDelivers (code : Behaviour σ ε α) (b : BusId) (e : Event α) (w : World σ ε α)
    (starts : List (Delivery α)) (reports : List (Delivery α × HandlerError)) : Prop :=
  ∀ next k, ∃ n w', run code n ⟨w, .run (.post b e next), k⟩ = ⟨w', .run next, k⟩ ∧
    (trace code b n ⟨w, .run (.post b e next), k⟩).filterMap Sight.start? = starts ∧
    (trace code b n ⟨w, .run (.post b e next), k⟩).filterMap Sight.report? = reports

theorem reach_dispatchedBy (w : World σ ε α) (b : BusId) (mode : DispatchMode) (e : Event α) :
    (w.dispatchedBy b mode).reach b e = w.reach b e := by
  have h : ∀ e, (w.dispatchedBy b mode).resolve b e = w.resolve b e := fun e =>
    view_modifyBus (·.resolve w.graph e.type) _ b b rfl
  unfold reach
  rw [h, h]

theorem Unfolds.dispatchedBy {w : World σ ε α} {t : RoseTree (Delivery α)} (h : w.Unfolds b c t)
    (mode : DispatchMode) : (w.dispatchedBy b mode).Unfolds b c t := by
  induction h with
  | node hts _ ih =>
    refine .node ?_ ih
    rw [hts, show (w.dispatchedBy b mode).reach b = w.reach b from
      funext (reach_dispatchedBy w b mode)]
    rfl

theorem Forest.dispatchedBy {w : World σ ε α} {e : Event α} {ts : List (RoseTree (Delivery α))}
    (h : w.Forest b c e ts) (mode : DispatchMode) : (w.dispatchedBy b mode).Forest b c e ts where
  roots := h.roots.trans (reach_dispatchedBy w b mode e).symm
  trees t ht := (h.trees t ht).dispatchedBy mode

theorem discreet_dispatchedBy {w : World σ ε α} (h : code.Discreet w b) (mode : DispatchMode) :
    code.Discreet (w.dispatchedBy b mode) b := fun id hid =>
  h id (hid ▸ (view_modifyBus (·.sink.custom?) _ b b rfl).symm)

theorem mode_dispatchedBy {w : World σ ε α} (hb : b < w.buses.length) (mode : DispatchMode) :
    ((w.dispatchedBy b mode).bus b).config.mode = mode := by
  rw [World.dispatchedBy, bus_modifyBus_self hb]

theorem report?_reported (w : World σ ε α) (c : Conduct α) (d : Delivery α) :
    (w.reported c d).filterMap Sight.report? = (w.failure? c d).toList := by
  unfold reported
  cases w.failure? c d <;> rfl

theorem start?_reported (w : World σ ε α) (c : Conduct α) (d : Delivery α) :
    (w.reported c d).filterMap Sight.start? = [] := by
  unfold reported
  cases w.failure? c d <;> rfl

theorem postDelivers_immediate {w : World σ ε α} (hf : code.Follows w b c) (hs : code.Discreet w b)
    (hm : (w.bus b).config.mode = .immediate) {e : Event α} {ts : List (RoseTree (Delivery α))}
    (hts : w.Forest b c e ts) :
    w.PostDelivers code b e (RoseTree.preorders ts) ((RoseTree.postorders ts).filterMap (w.failure? c)) := by
  intro next k
  obtain ⟨w', -, n, hr, ht⟩ := Immediate.post hm hts.roots
    (fun t h => Immediate.delivers hf hs hm (hts.trees t h)) w next k (.refl b w)
  refine ⟨n, w', hr, ?_, ?_⟩
  · rw [ht, RoseTree.filterMap_tours_enter (f := some) (fun _ => rfl) (start?_reported w c),
      List.filterMap_some]
  · rw [ht, RoseTree.filterMap_tours_leave (fun _ => rfl) (report?_reported w c)]

theorem postDelivers_queued {w : World σ ε α} (hf : code.Follows w b c) (hs : code.Discreet w b)
    (hm : (w.bus b).config.mode = .queued) (hq : (w.bus b).queues.get? w.thread = none)
    {e : Event α} {ts : List (RoseTree (Delivery α))} (hts : w.Forest b c e ts) :
    w.PostDelivers code b e (RoseTree.levelOrder ts) ((RoseTree.levelOrder ts).filterMap (w.failure? c)) := by
  intro next k
  obtain ⟨w', -, n, hr, ht⟩ := Queued.post hf hs hm hq hts next k
  refine ⟨n, w', hr, ?_, ?_⟩
  · rw [ht, RoseTree.filterMap_visits (f := some), List.filterMap_some]
    intro d
    rw [List.filterMap_append, start?_reported]
    rfl
  · rw [ht, RoseTree.filterMap_visits (f := w.failure? c)]
    intro d
    rw [List.filterMap_append, report?_reported]
    rfl

/-- Where handlers do nothing to a bus but post to it, a post delivers the forest of its event:
depth first by immediate dispatch, which reports a failure after those below it, and level by
level by queued dispatch. -/
theorem post_delivers_forest {w : World σ ε α} (hb : b < w.buses.length)
    (hq : (w.bus b).queues.get? w.thread = none) (hf : code.Follows w b c)
    (hs : code.Discreet w b) {e : Event α} {ts : List (RoseTree (Delivery α))}
    (hts : w.Forest b c e ts) :
    (w.dispatchedBy b .immediate).PostDelivers code b e (RoseTree.preorders ts)
        ((RoseTree.postorders ts).filterMap (w.failure? c)) ∧
      (w.dispatchedBy b .queued).PostDelivers code b e (RoseTree.levelOrder ts)
        ((RoseTree.levelOrder ts).filterMap (w.failure? c)) ∧
      (RoseTree.preorders ts).Perm (RoseTree.levelOrder ts) := by
  refine ⟨?_, ?_, RoseTree.preorders_perm_levelOrder ts⟩
  · exact postDelivers_immediate (w := w.dispatchedBy b .immediate) hf (discreet_dispatchedBy hs _)
      (mode_dispatchedBy hb _) (hts.dispatchedBy _)
  · refine postDelivers_queued (w := w.dispatchedBy b .queued) hf (discreet_dispatchedBy hs _)
      (mode_dispatchedBy hb _) ?_ (hts.dispatchedBy _)
    rw [dispatchedBy, view_modifyBus (·.queues) _ b b rfl]
    exact hq

end World

end

/-! A handler that posts and then panics, one that fails, and an event that nobody handles. -/

namespace Ripple

def ping : EventType := ⟨2, "Ping"⟩
def pong : EventType := ⟨3, "Pong"⟩
def lost : EventType := ⟨4, "Lost"⟩

def event (t : EventType) : Event Unit := .leaf t () []

def handler (t : EventType) (body : BodyId) : Binding := ⟨0, .erased "Ripple" "on" t body, t⟩

def bus : Bus Unit :=
  { (default : Bus Unit) with
    registry := ⟨⟨[(ping, [handler ping 0, handler ping 3]), (pong, [handler pong 1]),
      (.dead, [handler .dead 2])]⟩⟩
    cache := ⟨⟨[(ping, [ping, .root]), (pong, [pong, .root]), (lost, [lost, .root]),
      (.dead, [.dead, .root])]⟩⟩
    sink := .ignore }

def world : World Unit Unit Unit := ⟨⟨.empty⟩, [⟨0, "Ripple", []⟩], [bus], 0, 1, (), []⟩

def posts : BodyId → List (Event Unit)
  | 0 => [event pong, event lost]
  | _ => []

def exit : BodyId → Except Panic Ending
  | 0 => .error (.text "boom")
  | 1 => .ok (.fault ⟨"refused", []⟩)
  | _ => .ok .done

def conduct : Conduct Unit :=
  ⟨fun d => posts d.binding.method.body, fun d => exit d.binding.method.body⟩

def code : Behaviour Unit Unit Unit where
  body id _ _ := (posts id).foldr (.post 0) (match exit id with
    | .ok e => .finish e
    | .error p => .panic p)
  sink _ _ _ := .finish .done

theorem posts_foldr (p : Program Unit Unit Unit) (o : Except Panic Ending) (h : p.Posts 0 [] o) :
    ∀ es : List (Event Unit), (es.foldr (.post 0) p).Posts 0 es o
  | [] => h
  | _ :: es => .post (posts_foldr p o h es)

theorem follows : code.Follows world 0 conduct := by
  intro d _ _
  refine posts_foldr _ _ ?_ _
  show Program.Posts 0 (match exit d.binding.method.body with
    | .ok e => .finish e
    | .error p => .panic p) [] (exit d.binding.method.body)
  cases exit d.binding.method.body with
  | ok e => exact .finish e
  | error p => exact .panic p

def first : Delivery Unit := ⟨event ping, handler ping 0⟩
def second : Delivery Unit := ⟨event ping, handler ping 3⟩
def answer : Delivery Unit := ⟨event pong, handler pong 1⟩
def letter : Delivery Unit := ⟨.dead 0 (event lost), handler .dead 2⟩

def forest : List (RoseTree (Delivery Unit)) :=
  [.node first [.node answer [], .node letter []], .node second []]

theorem isForest : world.Forest 0 conduct (event ping) forest where
  roots := rfl
  trees := by
    have ha : world.Unfolds 0 conduct (.node answer []) := .node rfl (by simp)
    have hl : world.Unfolds 0 conduct (.node letter []) := .node rfl (by simp)
    have hf : world.Unfolds 0 conduct (.node first [.node answer [], .node letter []]) :=
      .node rfl (by simp [ha, hl])
    have hs : world.Unfolds 0 conduct (.node second []) := .node rfl (by simp)
    simp [forest, hf, hs]

theorem post_delivers_in_two_orders :
    (0 < world.buses.length ∧ (world.bus 0).queues.get? world.thread = none ∧
      code.Follows world 0 conduct ∧ code.Discreet world 0 ∧
      world.Forest 0 conduct (event ping) forest) ∧
    (world.dispatchedBy 0 .immediate).PostDelivers code 0 (event ping)
      [first, answer, letter, second]
      [(answer, .failed ⟨"refused", []⟩), (first, .panicked "boom")] ∧
    (world.dispatchedBy 0 .queued).PostDelivers code 0 (event ping)
      [first, second, answer, letter]
      [(first, .panicked "boom"), (answer, .failed ⟨"refused", []⟩)] := by
  have hb : 0 < world.buses.length := by decide
  have hq : (world.bus 0).queues.get? world.thread = none := rfl
  have hs : code.Discreet world 0 := fun _ h => by cases h
  have level : RoseTree.levelOrder forest = [first, second, answer, letter] := by
    simp [forest, RoseTree.levelOrder, RoseTree.label, RoseTree.children]
  obtain ⟨hi, hl, -⟩ := World.post_delivers_forest hb hq follows hs isForest
  rw [level] at hl
  exact ⟨⟨hb, hq, follows, hs, isForest⟩, hi, hl⟩

end Ripple
end EventBus
