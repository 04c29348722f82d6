import EventBus.Proofs.Stacks

/-!
# Moves in a lane

The lane of a thread on a queued bus shows in the thread's queue, in the drains on its stack and in
the deliveries it has at work. A step of a machine changes a lane in one of few ways, and takes only
where no delivery is at work above.
-/

namespace EventBus

variable {σ ε α : Type}

/-- What shows of a lane: the entry of the thread, its drains and its deliveries at work. -/
@[ext] structure Share (α : Type) where
  entry : Option (ThreadQueue α)
  drains : Nat
  working : List (Delivery α)

/-- What a machine does in one step to its share of a lane, with the deliveries that are appended,
taken and dropped. -/
inductive Share.Move :
    List (Delivery α) → List (Delivery α) → List (Delivery α) → Share α → Share α → Prop
  | stay (s : Share α) : Move [] [] [] s s
  | append (e : Option (ThreadQueue α)) {ds : List (Delivery α)} (k : Nat) (a : List (Delivery α)) :
      ds ≠ [] → Move ds [] [] ⟨e, k, a⟩ ⟨some (Queues.grown e ds), k, a⟩
  | claim {e : Option (ThreadQueue α)} {ds : List (Delivery α)} (k : Nat) (a : List (Delivery α)) :
      (Queues.grown e ds).draining = false →
        Move ds [] [] ⟨e, k, a⟩ ⟨some ⟨(Queues.grown e ds).pending, true⟩, k + 1, a⟩
  | take (d : Delivery α) (ds : List (Delivery α)) (r : Bool) {k : Nat} {a : List (Delivery α)} :
      a.length ≤ k → Move [] [d] [] ⟨some ⟨d :: ds, r⟩, k + 1, a⟩ ⟨some ⟨ds, r⟩, k + 1, d :: a⟩
  | leave (e : Option (ThreadQueue α)) (k : Nat) (d : Delivery α) (a : List (Delivery α)) :
      Move [] [] [] ⟨e, k, d :: a⟩ ⟨e, k, a⟩
  | finish {e : Option (ThreadQueue α)} {k : Nat} {a : List (Delivery α)} :
      (∀ q, e = some q → q.pending = []) → a.length ≤ k →
        Move [] [] [] ⟨e, k + 1, a⟩ ⟨none, k, a⟩
  | abandon (e : Option (ThreadQueue α)) {k : Nat} {a : List (Delivery α)} :
      a.length ≤ k → Move [] [] ((e.map (·.pending)).getD []) ⟨e, k + 1, a⟩ ⟨none, k, a⟩

namespace Machine

def share (b : BusId) (t : ThreadId) (m : Machine σ ε α) : Share α where
  entry := m.world.entry b t
  drains := drains b t m.world.thread m.stack
  working := (if m.world.thread = t then workOn b m.control.task? else []) ++
    working b t m.world.thread m.stack

/-- What the next step appends to the queue of `t` on a queued bus. -/
def appends (b : BusId) (t : ThreadId) (m : Machine σ ε α) : List (Delivery α) :=
  match m.control with
  | .run (.post c e _) => if c = b ∧ m.world.thread = t then m.world.finds c e else []
  | .run (.enqueue c d _) => if c = b ∧ m.world.thread = t then [d] else []
  | _ => []

def takes (b : BusId) (t : ThreadId) (m : Machine σ ε α) : List (Delivery α) :=
  match m.control, m.stack with
  | .returned _, .draining c owner :: _ =>
    if c = b ∧ owner = t then ((m.world.bus b).queues.next t).1.toList else []
  | _, _ => []

def drops (b : BusId) (t : ThreadId) (m : Machine σ ε α) : List (Delivery α) :=
  match m.control, m.stack with
  | .unwinding _, .draining c owner :: _ =>
    if c = b ∧ owner = t then ((m.world.entry b t).map (·.pending)).getD [] else []
  | _, _ => []

/-! ## The moves of a machine -/

section

variable {w w' : World σ ε α} {c c' : Control σ ε α} {k k' : List (Frame σ ε α)} {b : BusId}
  {t : ThreadId}

theorem move_of_share {m m' : Machine σ ε α} (h : share b t m' = share b t m) :
    Share.Move [] [] [] (share b t m) (share b t m') := by
  rw [h]
  exact .stay _

theorem share_of_calm (h : World.Calm w w') (hc : workOn b c'.task? = workOn b c.task?) :
    share b t ⟨w', c', k⟩ = share b t ⟨w, c, k⟩ := by
  simp only [share, h.thread, h.entry, hc]

theorem move_of_calm (h : World.Calm w w') (hc : c.task? = none) (hc' : c'.task? = none) :
    Share.Move [] [] [] (share b t ⟨w, c, k⟩) (share b t ⟨w', c', k⟩) :=
  move_of_share (share_of_calm h (by rw [hc, hc']))

theorem share_skip {f : Frame σ ε α} (hd : f.drains b = 0) (ht : f.task? = none)
    (hu : f.below w.thread = w.thread) : share b t ⟨w, c, f :: k⟩ = share b t ⟨w, c, k⟩ := by
  simp only [share, drains, working, hd, ht, hu, workOn, ite_self, Nat.zero_add, List.nil_append]

theorem share_task {f : Frame σ ε α} (hd : f.drains b = 0) (hu : f.below w.thread = w.thread)
    (hc : c.task? = none) (hc' : c'.task? = f.task?) :
    share b t ⟨w, c, f :: k⟩ = share b t ⟨w, c', k⟩ := by
  simp only [share, drains, working, hd, hu, hc, hc', workOn, ite_self, Nat.zero_add,
    List.nil_append]

theorem move_done (h : World.Calm w w') (hc : c'.task? = none) :
    Share.Move [] [] [] (share b t ⟨w, c, k⟩) (share b t ⟨w', c', k⟩) := by
  simp only [share, h.thread, h.entry, hc, workOn, ite_self, List.nil_append]
  cases c.task? with
  | none =>
    simp only [ite_self, List.nil_append]
    exact .stay _
  | some cd =>
    by_cases ht : w.thread = t ∧ cd.1 = b
    · simp only [ht.1, ht.2, if_true]
      exact .leave _ _ _ _
    · have hno : (if w.thread = t then if cd.1 = b then [cd.2] else [] else []) = [] := by
        split
        · rename_i hu
          rw [if_neg fun hb => ht ⟨hu, hb⟩]
        · rfl
      simp only [hno, List.nil_append]
      exact .stay _

end

theorem share_draining_ne {w : World σ ε α} {c : Control σ ε α} {k : List (Frame σ ε α)}
    {b b' : BusId} {t : ThreadId} (owner : ThreadId) (h : ¬(b' = b ∧ w.thread = t)) :
    share b t ⟨w, c, .draining b' owner :: k⟩ = share b t ⟨w, c, k⟩ := by
  have hd : (if w.thread = t then if b' = b then 1 else 0 else 0) = 0 := by
    split
    · rename_i hu
      rw [if_neg fun hb => h ⟨hb, hu⟩]
    · rfl
  simp only [share, drains, working, Frame.drains, Frame.task?, Frame.below, workOn, hd, ite_self,
    Nat.zero_add, List.nil_append]

theorem share_draining_self {w : World σ ε α} {c : Control σ ε α} {k : List (Frame σ ε α)}
    {b : BusId} (owner : ThreadId) :
    share b w.thread ⟨w, c, .draining b owner :: k⟩ =
      ⟨w.entry b w.thread, drains b w.thread w.thread k + 1,
        workOn b c.task? ++ working b w.thread w.thread k⟩ := by
  simp only [share, drains, working, Frame.drains, Frame.task?, Frame.below, workOn, if_true,
    Nat.add_comm, List.nil_append]

section

variable {w : World σ ε α} {k : List (Frame σ ε α)} {b b' : BusId} {t : ThreadId}

theorem share_drain_ne (hb : w.mode b' = .queued) (h : ¬(b' = b ∧ w.thread = t))
    (next : Program σ ε α) :
    share b t (drain w b' next k) = share b t ⟨w, .run next, k⟩ := by
  unfold drain
  split
  · rename_i queues hq
    obtain ⟨q, -, -, -, hother⟩ := Queues.of_claim?_some hq
    show share b t ⟨w.setQueues b' queues, .returned .done, .draining b' w.thread :: .resume next :: k⟩ = _
    rw [share_draining_ne (w := w.setQueues b' queues) w.thread h, share_skip rfl rfl rfl]
    simp only [share, World.entry_setQueues_ne hb hother h]
    rfl
  · rfl

/-- A drain of the thread's own queue claims it or does nothing. -/
theorem share_drain_self (hb : w.mode b = .queued) (next : Program σ ε α) :
    (∃ q, w.entry b w.thread = some q ∧ q.draining = false ∧
      share b w.thread (drain w b next k) =
        ⟨some ⟨q.pending, true⟩, drains b w.thread w.thread k + 1,
          working b w.thread w.thread k⟩) ∨
      share b w.thread (drain w b next k) = share b w.thread ⟨w, .run next, k⟩ := by
  unfold drain
  split
  · rename_i queues hq
    obtain ⟨q, hget, hidle, hself, -⟩ := Queues.of_claim?_some hq
    refine .inl ⟨q, hget, hidle, ?_⟩
    refine (share_draining_self (w := w.setQueues b queues) w.thread).trans ?_
    rw [World.entry_setQueues hb, if_pos rfl]
    simp only [show (w.setQueues b queues).thread = w.thread from rfl, hself, drains, working,
      Frame.drains, Frame.task?, Control.task?, Frame.below, workOn, ite_self, Nat.zero_add,
      List.nil_append]
  · exact .inr rfl

theorem share_enqueueAll_ne (hb : w.mode b' = .queued) (h : ¬(b' = b ∧ w.thread = t))
    (c : Control σ ε α) (ds : List (Delivery α)) :
    share b t ⟨w.enqueueAll b' ds, c, k⟩ = share b t ⟨w, c, k⟩ := by
  have hq : ∀ v, v ≠ w.thread → ((w.bus b').queues.enqueueAll w.thread ds).get? v = w.entry b' v :=
    fun v hv => Queues.get?_enqueueAll_ne hv _ ds
  rw [World.enqueueAll_eq]
  simp only [share, World.entry_setQueues_ne hb hq h]
  rfl

theorem entry_enqueueAll_self (hb : w.mode b = .queued) {ds : List (Delivery α)} (h : ds ≠ []) :
    (w.enqueueAll b ds).entry b w.thread = some (Queues.grown (w.entry b w.thread) ds) := by
  rw [World.enqueueAll_eq, World.entry_setQueues hb, if_pos rfl, Queues.get?_enqueueAll_self _ _ h]
  rfl

theorem share_run (p : Program σ ε α) : share b t ⟨w, .run p, k⟩ =
    ⟨w.entry b t, drains b t w.thread k, working b t w.thread k⟩ := by
  simp only [share, Control.task?, workOn, ite_self, List.nil_append]

theorem share_joined {c : Control σ ε α} (hc : c.task? = none) (parent : ThreadId)
    (next : Option Panic → Program σ ε α) : share b t ⟨w, c, .joined parent next :: k⟩ =
      ⟨w.entry b t, drains b t parent k, working b t parent k⟩ := by
  simp only [share, drains, working, Frame.drains, Frame.task?, Frame.below, hc, workOn, ite_self,
    Nat.zero_add, List.nil_append]

theorem move_drain (t : ThreadId) (k : List (Frame σ ε α)) (c : BusId) (next : Program σ ε α) :
    Share.Move [] [] [] (share b t ⟨w, .run (.drain c next), k⟩)
      (share b t (request w k (.drain c next))) := by
  simp only [request]
  cases hm : (w.bus c).config.mode with
  | immediate => exact move_of_calm (World.Calm.refl w) rfl rfl
  | queued =>
    by_cases hcb : c = b ∧ w.thread = t
    · obtain ⟨rfl, rfl⟩ := hcb
      rcases share_drain_self (k := k) hm next with ⟨q, hq, hidle, hshare⟩ | hshare
      · rw [hshare, share_run, hq]
        have hgrown : Queues.grown (some q) [] = q := by rw [Queues.grown, List.append_nil]
        have hclaim := Share.Move.claim (drains c w.thread w.thread k)
          (working c w.thread w.thread k) (hgrown.symm ▸ hidle)
        rwa [hgrown] at hclaim
      · exact move_of_share (hshare.trans (by rw [share_run, share_run]))
    · refine move_of_share ?_
      rw [share_drain_ne hm hcb, share_run, share_run]

end

section

variable {w : World σ ε α} {mode : BusId → DispatchMode} (hw : w.mode = mode) {b : BusId}
  (hb : mode b = .queued) (t : ThreadId) (k : List (Frame σ ε α))
include hw hb

theorem move_post (c : BusId) (e : Event α) (next : Program σ ε α) :
    Share.Move (appends b t ⟨w, .run (.post c e next), k⟩) [] []
      (share b t ⟨w, .run (.post c e next), k⟩) (share b t (request w k (.post c e next))) := by
  obtain ⟨w₁, hc, -, h⟩ := request_post w k c e next
  rcases h with ⟨hr, -, hq⟩ | ⟨hr, -, hq⟩ | ⟨g, gs, hr, hp⟩
  · rw [hq]
    simp only [appends, World.finds_eq_nil.mpr hr, ite_self]
    exact move_of_calm hc rfl rfl
  · rw [hq, share_skip rfl rfl rfl]
    simp only [appends, World.finds_eq_nil.mpr hr, ite_self]
    exact move_of_calm hc rfl rfl
  · simp only [appends, World.finds, hr, request, hp]
    have hm₁ : w₁.mode = mode := hc.mode.trans hw
    cases hm : (w₁.bus c).config.mode with
    | immediate =>
      have hcb : ¬(c = b ∧ w.thread = t) := by
        rintro ⟨rfl, -⟩
        rw [← hm₁, World.mode, hm] at hb
        cases hb
      rw [if_neg hcb]
      refine move_of_share ?_
      rw [share_skip rfl rfl rfl, share_skip rfl rfl rfl]
      exact share_of_calm hc rfl
    | queued =>
      have hmode : (w₁.enqueueAll c ((g :: gs).map (⟨e, ·⟩))).mode c = .queued := by
        rw [World.enqueueAll_eq, World.mode_setQueues]
        exact hm
      by_cases hcb : c = b ∧ w.thread = t
      · rw [if_pos hcb]
        obtain ⟨rfl, rfl⟩ := hcb
        have hne : (g :: gs).map (fun g => (⟨e, g⟩ : Delivery α)) ≠ [] := List.cons_ne_nil _ _
        have hgrown := entry_enqueueAll_self hm hne
        have h₂ := share_drain_self (k := k) hmode next
        rw [show (w₁.enqueueAll c _).thread = w₁.thread from rfl, hc.thread] at h₂
        rw [hc.thread, hc.entry] at hgrown
        rw [share_run]
        rcases h₂ with ⟨q, hq, hidle, hshare⟩ | hshare
        · rw [hgrown] at hq
          cases hq
          rw [hshare]
          exact .claim _ _ hidle
        · rw [hshare, share_run, hgrown, show (w₁.enqueueAll c _).thread = w₁.thread from rfl,
            hc.thread]
          exact .append _ _ _ hne
      · rw [if_neg hcb]
        refine move_of_share ?_
        have hcb₁ : ¬(c = b ∧ w₁.thread = t) := by rwa [hc.thread]
        rw [share_drain_ne hmode hcb₁, share_enqueueAll_ne hm hcb₁]
        exact share_of_calm hc rfl

theorem move_enqueue (c : BusId) (d : Delivery α) (next : Program σ ε α) :
    Share.Move (appends b t ⟨w, .run (.enqueue c d next), k⟩) [] []
      (share b t ⟨w, .run (.enqueue c d next), k⟩)
      (share b t (request w k (.enqueue c d next))) := by
  simp only [appends, request]
  cases hm : (w.bus c).config.mode with
  | immediate =>
    have hcb : c ≠ b := by
      rintro rfl
      rw [← hw, World.mode, hm] at hb
      cases hb
    rw [if_neg fun h => hcb h.1]
    refine move_of_share ?_
    rw [share_skip rfl rfl rfl]
    refine share_of_calm (World.Calm.refl w) ?_
    simp only [Control.task?, workOn, if_neg hcb]
  | queued =>
    by_cases hcb : c = b ∧ w.thread = t
    · rw [if_pos hcb]
      obtain ⟨rfl, rfl⟩ := hcb
      rw [share_run, share_run, entry_enqueueAll_self hm (List.cons_ne_nil d [])]
      exact .append _ _ _ (List.cons_ne_nil _ _)
    · rw [if_neg hcb]
      exact move_of_share (share_enqueueAll_ne hm hcb _ _)

theorem move_request (p : Program σ ε α) :
    Share.Move (appends b t ⟨w, .run p, k⟩) [] [] (share b t ⟨w, .run p, k⟩)
      (share b t (request w k p)) := by
  have calm : World.Calm w w := World.Calm.refl w
  cases p with
  | finish _ => exact move_of_calm calm rfl rfl
  | panic _ => exact move_of_calm calm rfl rfl
  | look _ => exact move_of_calm calm rfl rfl
  | store _ _ => exact move_of_calm ⟨rfl, rfl, fun _ => rfl, fun _ => rfl⟩ rfl rfl
  | note e _ => exact move_of_calm (World.Calm.note w e) rfl rfl
  | post c e next => exact move_post hw hb t k c e next
  | register c s next =>
    obtain ⟨w', o, hr, hcalm, -⟩ := request_register w k c s next
    rw [hr]
    exact move_of_calm hcalm rfl rfl
  | unregister c s next =>
    obtain ⟨w', o, hr, hcalm, -⟩ := request_unregister w k c s next
    rw [hr]
    exact move_of_calm hcalm rfl rfl
  | enqueue c d next => exact move_enqueue hw hb t k c d next
  | drain c next => exact move_drain t k c next
  | invoke _ _ _ => exact move_of_calm calm rfl rfl
  | attempt _ _ => exact move_of_share (share_skip rfl rfl rfl)
  | spawn body next =>
    refine move_of_share ?_
    rw [share_run]
    exact share_joined rfl w.thread next
  | declare _ _ _ => exact move_of_calm ⟨rfl, rfl, fun _ => rfl, fun _ => rfl⟩ rfl rfl
  | activate _ _ _ => exact move_of_calm ⟨rfl, rfl, fun _ => rfl, fun _ => rfl⟩ rfl rfl
  | forget c next =>
    refine move_of_calm (World.Calm.modifyBus w c _ ?_ ?_) rfl rfl
    · split <;> rfl
    · split <;> rfl

theorem move_draining (c : BusId) (owner : ThreadId)
    (h : EventBus.Seated mode w.thread (.draining c owner :: k)) (x : Ending) :
    Share.Move [] (takes b t ⟨w, .returned x, .draining c owner :: k⟩) []
      (share b t ⟨w, .returned x, .draining c owner :: k⟩)
      (share b t (resume w x k (.draining c owner))) := by
  obtain ⟨-, ⟨rfl, hc, -⟩, hk⟩ := h
  rw [← hw] at hc
  simp only [takes, resume]
  by_cases hcb : c = b ∧ w.thread = t
  · rw [if_pos hcb]
    obtain ⟨rfl, rfl⟩ := hcb
    have hle := (working_le_drains hb w.thread k w.thread hk).1
    rw [share_draining_self]
    cases hn : (w.bus c).queues.next w.thread with
    | mk d? queues =>
      cases d? with
      | some d =>
        obtain ⟨ds, r, hget, hself, -⟩ := Queues.of_next_some hn
        refine (show share c w.thread ⟨w.setQueues c queues, .call ⟨d, .delivery c⟩,
          .draining c w.thread :: k⟩ = ⟨some ⟨ds, r⟩, drains c w.thread w.thread k + 1,
            d :: working c w.thread w.thread k⟩ from ?_) ▸ ?_
        · refine (share_draining_self (w := w.setQueues c queues) w.thread).trans ?_
          rw [World.entry_setQueues hc, if_pos rfl]
          simp only [show (w.setQueues c queues).thread = w.thread from rfl, hself, Control.task?,
            workOn, if_true, List.singleton_append]
        · rw [World.entry, hget]
          exact .take d ds r hle
      | none =>
        obtain ⟨hempty, hself, -⟩ := Queues.of_next_none hn
        refine (show share c w.thread ⟨w.setQueues c queues, .returned .done, k⟩ =
          ⟨none, drains c w.thread w.thread k, working c w.thread w.thread k⟩ from ?_) ▸ ?_
        · simp only [share, World.entry_setQueues hc, if_true, hself, Control.task?, workOn, ite_self,
            List.nil_append]
          rfl
        · exact .finish hempty hle
  · rw [if_neg hcb]
    refine move_of_share ?_
    rw [share_draining_ne _ hcb]
    have hno : ∀ d, (if w.thread = t then workOn b (some (c, d)) else []) =
        ([] : List (Delivery α)) := by
      intro d
      simp only [workOn]
      split
      · rename_i ht
        rw [if_neg fun hc => hcb ⟨hc, ht⟩]
      · rfl
    cases hn : (w.bus c).queues.next w.thread with
    | mk d? queues =>
      have hother : ∀ v, v ≠ w.thread → queues.get? v = w.entry c v := by
        cases d? with
        | some d =>
          obtain ⟨_, _, -, -, hother⟩ := Queues.of_next_some hn
          exact hother
        | none => exact (Queues.of_next_none hn).2.2
      cases d? with
      | some d =>
        refine (share_draining_ne (w := w.setQueues c queues) w.thread hcb).trans ?_
        simp only [share, World.entry_setQueues_ne hc hother hcb, Control.task?,
          show (w.setQueues c queues).thread = w.thread from rfl, hno]
        simp only [workOn, ite_self]
      | none =>
        show share b t ⟨w.setQueues c queues, .returned .done, k⟩ = _
        simp only [share, World.entry_setQueues_ne hc hother hcb]
        rfl

theorem move_abandon (c : BusId) (owner : ThreadId)
    (h : EventBus.Seated mode w.thread (.draining c owner :: k)) (p : Panic) :
    Share.Move [] [] (drops b t ⟨w, .unwinding p, .draining c owner :: k⟩)
      (share b t ⟨w, .unwinding p, .draining c owner :: k⟩)
      (share b t (unwind w p k (.draining c owner))) := by
  obtain ⟨-, ⟨rfl, hc, -⟩, hk⟩ := h
  rw [← hw] at hc
  simp only [drops, unwind]
  by_cases hcb : c = b ∧ w.thread = t
  · rw [if_pos hcb]
    obtain ⟨rfl, rfl⟩ := hcb
    have hle := (working_le_drains hb w.thread k w.thread hk).1
    have hafter : share c w.thread ⟨w.abandon c w.thread, .unwinding p, k⟩ =
        ⟨none, drains c w.thread w.thread k, working c w.thread w.thread k⟩ := by
      simp only [share, World.entry_abandon, World.thread_abandon, World.entry_setQueues hc, if_true,
        Queues.get?_release_self, Control.task?, workOn, List.nil_append]
    rw [share_draining_self, hafter]
    exact .abandon _ hle
  · rw [if_neg hcb]
    refine move_of_share ?_
    have hother : ∀ v, v ≠ w.thread →
        ((w.bus c).queues.release w.thread).2.get? v = w.entry c v :=
      fun v hv => Queues.get?_release_ne _ hv
    rw [share_draining_ne _ hcb]
    simp only [share, World.entry_abandon, World.thread_abandon,
      World.entry_setQueues_ne hc hother hcb]

theorem move_resume {f : Frame σ ε α} (h : EventBus.Seated mode w.thread (f :: k)) (x : Ending) :
    Share.Move [] (takes b t ⟨w, .returned x, f :: k⟩) [] (share b t ⟨w, .returned x, f :: k⟩)
      (share b t (resume w x k f)) := by
  cases f with
  | resume _ => exact move_of_share (share_skip (f := .resume _) rfl rfl rfl).symm
  | call c =>
    obtain ⟨d, use⟩ := c
    exact move_of_share (share_task rfl rfl rfl (by cases use <;> rfl)).symm
  | report c d e =>
    have htask : share b t ⟨w, .returned x, .report c d e :: k⟩ =
        share b t ⟨w, .report c d e, k⟩ := share_task rfl rfl rfl rfl
    rw [htask]
    exact move_done (World.Calm.refl w) rfl
  | handing c e bs =>
    have hskip : ∀ c' : Control σ ε α, share b t ⟨w, c', .handing c e bs :: k⟩ =
        share b t ⟨w, c', k⟩ := fun _ => share_skip rfl rfl rfl
    cases bs with
    | nil => exact move_of_share (hskip _).symm
    | cons g gs =>
      have hcb : c ≠ b := by
        rintro rfl
        rw [show mode c = .immediate from h.2.1] at hb
        cases hb
      refine move_of_share ?_
      rw [hskip]
      simp only [resume]
      rw [share_skip rfl rfl rfl]
      refine share_of_calm (World.Calm.refl w) ?_
      simp only [Control.task?, workOn, if_neg hcb]
  | draining c owner => exact move_draining hw hb t k c owner h x
  | guarded _ => exact move_of_share (share_skip (f := .guarded _) rfl rfl rfl).symm
  | joined parent next =>
    refine move_of_share ?_
    rw [share_joined rfl parent next]
    exact share_run _

theorem move_unwind {f : Frame σ ε α} (h : EventBus.Seated mode w.thread (f :: k)) (p : Panic) :
    Share.Move [] [] (drops b t ⟨w, .unwinding p, f :: k⟩) (share b t ⟨w, .unwinding p, f :: k⟩)
      (share b t (unwind w p k f)) := by
  cases f with
  | resume _ => exact move_of_share (share_skip (f := .resume _) rfl rfl rfl).symm
  | call c =>
    obtain ⟨d, use⟩ := c
    exact move_of_share (share_task rfl rfl rfl (by cases use <;> rfl)).symm
  | report c d e =>
    have htask : share b t ⟨w, .unwinding p, .report c d e :: k⟩ =
        share b t ⟨w, .report c d e, k⟩ := share_task rfl rfl rfl rfl
    rw [htask]
    exact move_done (World.Calm.refl w) rfl
  | handing c e bs => exact move_of_share (share_skip (f := .handing c e bs) rfl rfl rfl).symm
  | draining c owner => exact move_abandon hw hb t k c owner h p
  | guarded _ => exact move_of_share (share_skip (f := .guarded _) rfl rfl rfl).symm
  | joined parent next =>
    refine move_of_share ?_
    rw [share_joined rfl parent next]
    exact share_run _

end

section

variable (code : Behaviour σ ε α) (w : World σ ε α) (k : List (Frame σ ε α)) (b : BusId) (t : ThreadId)

theorem move_enter (c : Call σ ε α) :
    Share.Move [] [] [] (share b t ⟨w, .call c, k⟩) (share b t (enter code w k c)) := by
  obtain ⟨d, use⟩ := c
  refine move_of_share ?_
  simp only [enter]
  split
  · exact share_task rfl rfl rfl (by cases use <;> rfl)
  · exact share_of_calm (World.Calm.refl w) (by cases use <;> rfl)

theorem move_settle (c : Call σ ε α) (o : Except HandlerError Unit) :
    Share.Move [] [] [] (share b t ⟨w, .settle c o, k⟩) (share b t (settle w k c o)) := by
  obtain ⟨d, use⟩ := c
  cases use with
  | direct next => exact move_of_calm (World.Calm.refl w) rfl rfl
  | delivery c =>
    cases o with
    | ok _ => exact move_done (World.Calm.refl w) rfl
    | error e => exact move_of_share (share_of_calm (World.Calm.refl w) rfl)

theorem move_report (c : BusId) (d : Delivery α) (e : HandlerError) :
    Share.Move [] [] [] (share b t ⟨w, .report c d e, k⟩) (share b t (report code w k c d e)) := by
  simp only [report]
  split
  · exact move_of_share (share_task rfl rfl rfl rfl)
  · exact move_done (World.Calm.keep w c d e) rfl

end

/-- A step is at most one move in each lane of a queued bus. -/
theorem move {mode : BusId → DispatchMode} (code : Behaviour σ ε α) {m : Machine σ ε α}
    (h : m.Seated mode) {b : BusId} (hb : mode b = .queued) (t : ThreadId) :
    Share.Move (m.appends b t) (m.takes b t) (m.drops b t) (m.share b t) ((m.step code).share b t) := by
  obtain ⟨w, c, k⟩ := m
  cases c with
  | run p => exact move_request h.modes hb t k p
  | call c => exact move_enter code w k b t c
  | settle c o => exact move_settle w k b t c o
  | report c d e => exact move_report code w k b t c d e
  | returned x =>
    cases k with
    | nil => exact .stay _
    | cons f k => exact move_resume h.modes hb t k h.stack x
  | unwinding p =>
    cases k with
    | nil => exact .stay _
    | cons f k => exact move_unwind h.modes hb t k h.stack p

end Machine
end EventBus
