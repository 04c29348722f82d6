import EventBus.Proofs.Worlds

/-!
# What a stack says of its threads

A thread that waits for another lies below it on the stack. On a queued bus each delivery at work
lies on a drain of the thread that works on it, and each drain on the rest of the program that
started it, whatever the steps before.
-/

namespace EventBus

variable {σ ε α : Type}

namespace World

def mode (w : World σ ε α) (b : BusId) : DispatchMode := (w.bus b).config.mode

def entry (w : World σ ε α) (b : BusId) (t : ThreadId) : Option (ThreadQueue α) :=
  (w.bus b).queues.get? t

theorem Calm.mode {w w' : World σ ε α} (h : Calm w w') : w'.mode = w.mode := by
  funext b
  unfold World.mode
  rw [h.config]

theorem Calm.entry {w w' : World σ ε α} (h : Calm w w') (b : BusId) (t : ThreadId) :
    w'.entry b t = w.entry b t := by
  unfold World.entry
  rw [h.queues]

def setQueues (w : World σ ε α) (b : BusId) (q : Queues α) : World σ ε α :=
  w.modifyBus b fun bus => { bus with queues := q }

theorem mode_setQueues (w : World σ ε α) (b : BusId) (q : Queues α) :
    (w.setQueues b q).mode = w.mode := by
  funext c
  exact congrArg Config.mode (view_modifyBus (·.config) _ b c rfl)

theorem entry_setQueues {w : World σ ε α} {b : BusId} (hb : w.mode b = .queued) (q : Queues α)
    (c : BusId) (t : ThreadId) :
    (w.setQueues b q).entry c t = if c = b then q.get? t else w.entry c t := by
  unfold entry setQueues
  rw [bus_modifyBus]
  by_cases hc : c = b
  · subst hc
    rw [if_pos ⟨rfl, lt_length_of_queued hb⟩, if_pos rfl]
  · rw [if_neg fun h => hc h.1, if_neg hc]

theorem entry_setQueues_ne {w : World σ ε α} {b c : BusId} {t u : ThreadId} {q : Queues α}
    (hb : w.mode b = .queued) (hq : ∀ v, v ≠ u → q.get? v = w.entry b v) (h : ¬(b = c ∧ u = t)) :
    (w.setQueues b q).entry c t = w.entry c t := by
  rw [entry_setQueues hb]
  by_cases hc : c = b
  · subst hc
    rw [if_pos rfl]
    exact hq t fun ht => h ⟨rfl, ht.symm⟩
  · rw [if_neg hc]

theorem enqueueAll_eq (w : World σ ε α) (b : BusId) (ds : List (Delivery α)) :
    w.enqueueAll b ds = w.setQueues b ((w.bus b).queues.enqueueAll w.thread ds) := by
  unfold enqueueAll setQueues modifyBus bus
  congr 1
  apply List.ext_getElem?
  intro i
  rw [List.getElem?_modify, List.getElem?_modify]
  by_cases hi : b = i
  · subst hi
    cases w.buses[b]? <;> simp
  · simp [hi]

theorem entry_abandon (w : World σ ε α) (b c : BusId) (t owner : ThreadId) :
    (w.abandon b owner).entry c t = (w.setQueues b ((w.bus b).queues.release owner).2).entry c t := by
  simp only [abandon]
  split <;> rfl

theorem mode_abandon (w : World σ ε α) (b : BusId) (t : ThreadId) :
    (w.abandon b t).mode = w.mode := by
  simp only [abandon]
  split
  · exact mode_setQueues w b _
  · exact mode_setQueues w b _

theorem thread_abandon (w : World σ ε α) (b : BusId) (t : ThreadId) :
    (w.abandon b t).thread = w.thread := by
  simp only [abandon]
  split <;> rfl

end World

def Frame.task? : Frame σ ε α → Option (BusId × Delivery α)
  | .call ⟨d, .delivery b⟩ => some (b, d)
  | .report b d _ => some (b, d)
  | _ => none

def Control.task? : Control σ ε α → Option (BusId × Delivery α)
  | .call ⟨d, .delivery b⟩ => some (b, d)
  | .settle ⟨d, .delivery b⟩ _ => some (b, d)
  | .report b d _ => some (b, d)
  | _ => none

def Frame.below (u : ThreadId) : Frame σ ε α → ThreadId
  | .joined parent _ => parent
  | _ => u

def Frame.drains (b : BusId) : Frame σ ε α → Nat
  | .draining c _ => if c = b then 1 else 0
  | _ => 0

def workOn (b : BusId) : Option (BusId × Delivery α) → List (Delivery α)
  | some (c, d) => if c = b then [d] else []
  | none => []

/-- The number of drains of `b` by `t` on a stack with `u` on top. -/
def drains (b : BusId) (t : ThreadId) : ThreadId → List (Frame σ ε α) → Nat
  | _, [] => 0
  | u, f :: k => (if u = t then f.drains b else 0) + drains b t (f.below u) k

def working (b : BusId) (t : ThreadId) : ThreadId → List (Frame σ ε α) → List (Delivery α)
  | _, [] => []
  | u, f :: k => (if u = t then workOn b f.task? else []) ++ working b t (f.below u) k

/-! ## Seats -/

/-- A delivery of a queued bus at work lies on a drain of that bus. -/
def Seat (mode : BusId → DispatchMode) (u : ThreadId) (k : List (Frame σ ε α))
    (task? : Option (BusId × Delivery α)) : Prop :=
  ∀ b d, task? = some (b, d) → mode b = .queued → ∃ k', k = .draining b u :: k'

def Frame.Fits (mode : BusId → DispatchMode) (u : ThreadId) (k : List (Frame σ ε α)) :
    Frame σ ε α → Prop
  | .handing b _ _ => mode b = .immediate
  | .draining b owner => owner = u ∧ mode b = .queued ∧ ∃ next k', k = .resume next :: k'
  | _ => True

def Seated (mode : BusId → DispatchMode) : ThreadId → List (Frame σ ε α) → Prop
  | _, [] => True
  | u, f :: k => Seat mode u k f.task? ∧ f.Fits mode u k ∧ Seated mode (f.below u) k

/-- The buses of the machine have these modes, and its deliveries and drains lie where they
should. -/
structure Machine.Seated (mode : BusId → DispatchMode) (m : Machine σ ε α) : Prop where
  modes : m.world.mode = mode
  task : Seat mode m.world.thread m.stack m.control.task?
  stack : EventBus.Seated mode m.world.thread m.stack

theorem Seat.none {mode : BusId → DispatchMode} {u : ThreadId} {k : List (Frame σ ε α)} :
    Seat mode u k Option.none :=
  fun _ _ h => by cases h

theorem Seat.immediate {mode : BusId → DispatchMode} {b : BusId} (hb : mode b = .immediate)
    {u : ThreadId} {k : List (Frame σ ε α)} {d : Delivery α} : Seat mode u k (some (b, d)) := by
  intro c e h hc
  cases h
  rw [hb] at hc
  cases hc

theorem Seat.draining {mode : BusId → DispatchMode} {b : BusId} {u : ThreadId}
    {k : List (Frame σ ε α)} {d : Delivery α} : Seat mode u (.draining b u :: k) (some (b, d)) := by
  intro c e h _
  cases h
  exact ⟨k, rfl⟩

/-- Under a delivery of a queued bus lies the drain, and under that the rest of a program. -/
theorem Seat.on_drain {mode : BusId → DispatchMode} {b : BusId} {u : ThreadId}
    {k : List (Frame σ ε α)} {d : Delivery α} (h : Seat mode u k (some (b, d)))
    (hb : mode b = .queued) (hk : Seated mode u k) :
    ∃ next rest, k = .draining b u :: .resume next :: rest := by
  obtain ⟨k', rfl⟩ := h b d rfl hb
  obtain ⟨-, ⟨-, -, next, rest, rfl⟩, -⟩ := hk
  exact ⟨next, rest, rfl⟩

/-- A drain on the stack is one of the thread that it names. -/
theorem drains_ne_zero {mode : BusId → DispatchMode} {b : BusId} {t : ThreadId} :
    ∀ {k : List (Frame σ ε α)} {u : ThreadId}, Seated mode u k → .draining b t ∈ k →
      drains b t u k ≠ 0
  | f :: k, u, ⟨_, hfits, hk⟩, hmem => by
    rcases List.mem_cons.mp hmem with rfl | hmem
    · obtain ⟨rfl, -⟩ := hfits
      simp [drains, Frame.drains]
    · have hbelow := drains_ne_zero hk hmem
      rw [drains]
      omega

section

variable {mode : BusId → DispatchMode} {b : BusId} (hb : mode b = .queued) (t : ThreadId)
include hb

/-- As many drains as deliveries at work, and one more where a drain is on top. -/
theorem working_le_drains (k : List (Frame σ ε α)) : ∀ u, Seated mode u k →
    (working b t u k).length ≤ drains b t u k ∧
      ∀ k', u = t → k = .draining b t :: k' → (working b t u k).length + 1 ≤ drains b t u k := by
  induction k with
  | nil => exact fun u _ => ⟨Nat.le_refl 0, fun _ _ h => by cases h⟩
  | cons f k ih =>
    intro u hs
    obtain ⟨hseat, -, hk⟩ := hs
    obtain ⟨hle, hlt⟩ := ih (f.below u) hk
    constructor
    · rw [working, drains, List.length_append]
      by_cases hu : u = t
      · subst hu
        rw [if_pos rfl, if_pos rfl]
        cases ht : f.task? with
        | none => simp only [workOn, List.length_nil]; omega
        | some cd =>
          obtain ⟨c, d⟩ := cd
          by_cases hc : c = b
          · subst hc
            obtain ⟨k', rfl⟩ := hseat c d ht hb
            have hbelow : f.below u = u := by cases f <;> first | rfl | cases ht
            have := hlt k' hbelow rfl
            simp only [workOn, if_true, List.length_singleton]
            omega
          · simp only [workOn, hc, if_false, List.length_nil]
            omega
      · simp only [hu, if_false, List.length_nil]
        omega
    · rintro k' rfl h
      cases h
      simp only [working, drains, Frame.task?, workOn, Frame.drains, Frame.below, if_true] at hle ⊢
      simp only [List.nil_append]
      omega

end

/-! ## Steps keep seats -/

namespace Machine

section

variable {w w' : World σ ε α} {k : List (Frame σ ε α)} {mode : BusId → DispatchMode}
  (hw : w.mode = mode) (hk : EventBus.Seated mode w.thread k)
include hw hk

theorem seated_of_stack {c : Control σ ε α} (hm : w'.mode = w.mode) (ht : w'.thread = w.thread)
    (hc : c.task? = none) : Machine.Seated mode ⟨w', c, k⟩ := by
  refine ⟨hm.trans hw, ?_, ?_⟩
  · rw [hc]
    exact Seat.none
  · rw [ht]
    exact hk

theorem seated_of_calm {c : Control σ ε α} (h : World.Calm w w') (hc : c.task? = none) :
    Machine.Seated mode ⟨w', c, k⟩ :=
  seated_of_stack hw hk h.mode h.thread hc

theorem seated_drain {b : BusId} (hb : w.mode b = .queued) (next : Program σ ε α) :
    (drain w b next k).Seated mode := by
  unfold drain
  split
  · rename_i queues _
    refine seated_of_stack hw ?_ (World.mode_setQueues w b queues) rfl rfl
    rw [hw] at hb
    exact ⟨Seat.none, ⟨rfl, hb, next, k, rfl⟩, Seat.none, trivial, hk⟩
  · exact seated_of_stack hw hk rfl rfl rfl

theorem seated_post (b : BusId) (e : Event α) (next : Program σ ε α) :
    (request w k (.post b e next)).Seated mode := by
  obtain ⟨w₁, hc, -, h⟩ := request_post w k b e next
  rcases h with ⟨-, -, hr⟩ | ⟨-, -, hr⟩ | ⟨g, gs, -, hp⟩
  · rw [hr]
    exact seated_of_calm hw hk hc rfl
  · rw [hr]
    refine ⟨hc.mode.trans hw, Seat.none, Seat.none, trivial, ?_⟩
    rwa [hc.thread]
  · simp only [request, hp]
    have hw₁ : w₁.mode = mode := hc.mode.trans hw
    have hk₁ : EventBus.Seated mode w₁.thread k := by rwa [hc.thread]
    split
    · rename_i hm
      refine seated_of_stack hw₁ ?_ rfl rfl rfl
      exact ⟨Seat.none, hw₁ ▸ hm, Seat.none, trivial, hk₁⟩
    · rename_i hm
      rw [World.enqueueAll_eq]
      have hmode := World.mode_setQueues w₁ b
        ((w₁.bus b).queues.enqueueAll w₁.thread ((g :: gs).map (⟨e, ·⟩)))
      refine seated_drain (hmode.trans hw₁) hk₁ ?_ next
      rw [hmode]
      exact hm

theorem seated_request (p : Program σ ε α) : (request w k p).Seated mode := by
  cases p with
  | finish _ => exact seated_of_stack hw hk rfl rfl rfl
  | panic _ => exact seated_of_stack hw hk rfl rfl rfl
  | look _ => exact seated_of_stack hw hk rfl rfl rfl
  | store _ _ => exact seated_of_stack hw hk rfl rfl rfl
  | note e _ => exact seated_of_calm hw hk (World.Calm.note w e) rfl
  | post b e next => exact seated_post hw hk b e next
  | register b s next =>
    obtain ⟨w', o, hr, hcalm, -⟩ := request_register w k b s next
    rw [hr]
    exact seated_of_calm hw hk hcalm rfl
  | unregister b s next =>
    obtain ⟨w', o, hr, hcalm, -⟩ := request_unregister w k b s next
    rw [hr]
    exact seated_of_calm hw hk hcalm rfl
  | enqueue b d next =>
    simp only [request]
    split
    · rename_i hm
      exact ⟨hw, Seat.immediate (hw ▸ hm), Seat.none, trivial, hk⟩
    · rw [World.enqueueAll_eq]
      exact seated_of_stack hw hk (World.mode_setQueues w b _) rfl rfl
  | drain b next =>
    simp only [request]
    split
    · exact seated_of_stack hw hk rfl rfl rfl
    · rename_i hm
      exact seated_drain hw hk hm next
  | invoke _ _ _ => exact seated_of_stack hw hk rfl rfl rfl
  | attempt _ _ => exact ⟨hw, Seat.none, Seat.none, trivial, hk⟩
  | spawn _ _ => exact ⟨hw, Seat.none, Seat.none, trivial, hk⟩
  | declare _ _ _ => exact seated_of_stack hw hk rfl rfl rfl
  | activate _ _ _ => exact seated_of_stack hw hk rfl rfl rfl
  | forget b next =>
    refine seated_of_calm hw hk (World.Calm.modifyBus w b _ ?_ ?_) rfl
    · split <;> rfl
    · split <;> rfl

end

section

variable {w : World σ ε α} {f : Frame σ ε α} {k : List (Frame σ ε α)} {mode : BusId → DispatchMode}
  (hw : w.mode = mode) (h : EventBus.Seated mode w.thread (f :: k))
include hw h

theorem seated_resume (x : Ending) : (resume w x k f).Seated mode := by
  obtain ⟨hseat, hfit, hk⟩ := h
  cases f with
  | resume _ => exact seated_of_stack hw hk rfl rfl rfl
  | call c =>
    obtain ⟨d, use⟩ := c
    cases use <;> exact ⟨hw, hseat, hk⟩
  | report _ _ _ => exact seated_of_stack hw hk rfl rfl rfl
  | handing b e bs =>
    cases bs with
    | nil => exact seated_of_stack hw hk rfl rfl rfl
    | cons g gs => exact ⟨hw, Seat.immediate hfit, Seat.none, hfit, hk⟩
  | draining b owner =>
    obtain ⟨rfl, hb, hnext⟩ := hfit
    simp only [resume]
    split
    · rename_i d queues _
      exact ⟨(World.mode_setQueues w b queues).trans hw, Seat.draining, Seat.none,
        ⟨rfl, hb, hnext⟩, hk⟩
    · rename_i queues _
      exact seated_of_stack hw hk (World.mode_setQueues w b queues) rfl rfl
  | guarded _ => exact seated_of_stack hw hk rfl rfl rfl
  | joined parent _ => exact ⟨hw, Seat.none, hk⟩

theorem seated_unwind (p : Panic) : (unwind w p k f).Seated mode := by
  obtain ⟨hseat, -, hk⟩ := h
  cases f with
  | resume _ => exact seated_of_stack hw hk rfl rfl rfl
  | call c =>
    obtain ⟨d, use⟩ := c
    cases use <;> exact ⟨hw, hseat, hk⟩
  | report _ _ _ => exact seated_of_stack hw hk rfl rfl rfl
  | handing _ _ _ => exact seated_of_stack hw hk rfl rfl rfl
  | draining b owner =>
    exact seated_of_stack hw hk (World.mode_abandon w b owner) (World.thread_abandon w b owner) rfl
  | guarded _ => exact seated_of_stack hw hk rfl rfl rfl
  | joined parent _ => exact ⟨hw, Seat.none, hk⟩

end

section

variable {w : World σ ε α} {k : List (Frame σ ε α)} {mode : BusId → DispatchMode}

theorem seated_enter (code : Behaviour σ ε α) {c : Call σ ε α}
    (h : Machine.Seated mode ⟨w, .call c, k⟩) : (enter code w k c).Seated mode := by
  obtain ⟨hw, hseat, hk⟩ := h
  obtain ⟨d, use⟩ := c
  simp only [enter]
  split
  · exact ⟨hw, Seat.none, by cases use <;> exact hseat, trivial, hk⟩
  · cases use <;> exact ⟨hw, hseat, hk⟩

theorem seated_settle {c : Call σ ε α} {o : Except HandlerError Unit}
    (h : Machine.Seated mode ⟨w, .settle c o, k⟩) : (settle w k c o).Seated mode := by
  obtain ⟨hw, hseat, hk⟩ := h
  obtain ⟨d, use⟩ := c
  cases use with
  | direct next => exact seated_of_stack hw hk rfl rfl rfl
  | delivery b =>
    cases o with
    | ok _ => exact seated_of_stack hw hk rfl rfl rfl
    | error e => exact ⟨hw, hseat, hk⟩

theorem seated_report (code : Behaviour σ ε α) {b : BusId} {d : Delivery α} {e : HandlerError}
    (h : Machine.Seated mode ⟨w, .report b d e, k⟩) : (report code w k b d e).Seated mode := by
  obtain ⟨hw, hseat, hk⟩ := h
  simp only [report]
  split
  · exact ⟨hw, Seat.none, hseat, trivial, hk⟩
  · exact seated_of_calm hw hk (World.Calm.keep w b d e) rfl

theorem Seated.step (code : Behaviour σ ε α) {m : Machine σ ε α} (h : m.Seated mode) :
    (m.step code).Seated mode := by
  obtain ⟨w, c, k⟩ := m
  cases c with
  | run p => exact seated_request h.modes h.stack p
  | call c => exact seated_enter code h
  | settle c o => exact seated_settle h
  | report b d e => exact seated_report code h
  | returned x =>
    cases k with
    | nil => exact h
    | cons f k => exact seated_resume h.modes h.stack x
  | unwinding p =>
    cases k with
    | nil => exact h
    | cons f k => exact seated_unwind h.modes h.stack p

end

end Machine
end EventBus
