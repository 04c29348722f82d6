import EventBus.Proofs.Crews

/-!
# How calls settle

A call that its method does not admit settles with the reason, and its code never runs. Any other
call settles with what its method makes of the end of its code. Who is admitted depends on the types
of subscribers, which no step changes.
-/

namespace EventBus

variable {σ ε α : Type}

namespace Delivery

def admitted (d : Delivery α) (types : SubscriberId → String) : Except HandlerError (Event α) :=
  d.binding.accept (types d.binding.target) d.event

inductive Settles (d : Delivery α) (types : SubscriberId → String) :
    Except HandlerError Unit → Prop
  | refused {e : HandlerError} : d.admitted types = .error e → Settles d types (.error e)
  | ended {v : Event α} (x : Ending) : d.admitted types = .ok v →
      Settles d types (d.binding.method.shape.outcome x)
  | panicked {v : Event α} (p : Panic) : d.admitted types = .ok v →
      Settles d types (.error (.panicked p.message))

/-- What the code of a typed handler ends with is never a mismatch. -/
theorem Settles.mismatch_iff {d : Delivery α} {types : SubscriberId → String} {o : Except HandlerError Unit}
    (h : d.Settles types o) {u : EventType} (hu : d.binding.method.shape = .typed u) :
    (∃ x y, o = .error (.eventMismatch x y)) ↔
      ∃ x y, d.admitted types = .error (.eventMismatch x y) := by
  cases h with
  | refused ha => simp [ha]
  | ended x ha =>
    rw [hu, ha]
    cases x <;> simp [Shape.outcome]
  | panicked p ha => simp [ha]

end Delivery

namespace World

/-- To change the methods of a subscriber does not change its type. -/
theorem subscriberType_activate (w : World σ ε α) (s : SubscriberId) (methods : List Method) :
    { w with subscribers := w.subscribers.modify s ({ · with methods := methods }) }.subscriberType =
      w.subscriberType := by
  funext i
  unfold subscriberType subscriber?
  rw [List.getElem?_modify]
  cases w.subscribers[i]? with
  | none => rfl
  | some sub => by_cases hs : s = i <;> simp [hs]

end World

namespace Machine

/-- Calls on the stack were admitted, and one that settles does so as it can. -/
structure Judged (m : Machine σ ε α) : Prop where
  calls : ∀ c, .call c ∈ m.stack → ∃ v, c.delivery.admitted m.world.subscriberType = .ok v
  settles : ∀ c o, m.control = .settle c o → c.delivery.Settles m.world.subscriberType o

/-- The machine comes from the world and the stack by a step that enters and settles no call. -/
structure Keeps (w : World σ ε α) (k : List (Frame σ ε α)) (m : Machine σ ε α) : Prop where
  types : m.world.subscriberType = w.subscriberType
  calls : ∀ c, .call c ∈ m.stack → .call c ∈ k
  settles : ∀ c o, m.control ≠ .settle c o

section

variable {w w' : World σ ε α} {k : List (Frame σ ε α)} {c : Control σ ε α}

theorem Keeps.judged {m : Machine σ ε α} (h : Keeps w k m)
    (hk : ∀ c, .call c ∈ k → ∃ v, c.delivery.admitted w.subscriberType = .ok v) : m.Judged where
  calls c hc := by
    rw [h.types]
    exact hk c (h.calls c hc)
  settles c o ho := absurd ho (h.settles c o)

theorem keeps_of_stack (ht : w'.subscribers = w.subscribers) (hc : ∀ c' o, c ≠ .settle c' o) :
    Keeps w k ⟨w', c, k⟩ :=
  ⟨World.subscriberType_congr ht, fun _ h => h, hc⟩

theorem keeps_of_push (fs : List (Frame σ ε α)) (ht : w'.subscribers = w.subscribers)
    (hf : ∀ c, .call c ∉ fs) (hc : ∀ c' o, c ≠ .settle c' o) : Keeps w k ⟨w', c, fs ++ k⟩ where
  types := World.subscriberType_congr ht
  calls c h := (List.mem_append.mp h).resolve_left (hf c)
  settles := hc

theorem keeps_drain (ht : w'.subscribers = w.subscribers) (b : BusId) (next : Program σ ε α) :
    Keeps w k (drain w' b next k) := by
  unfold drain
  split
  · exact keeps_of_push [_, _] ht (by simp) (by simp)
  · exact keeps_of_stack ht (by simp)

theorem keeps_request (p : Program σ ε α) : Keeps w k (request w k p) := by
  cases p with
  | post b e next =>
    obtain ⟨w₁, -, hs, h⟩ := request_post w k b e next
    rcases h with ⟨-, -, hr⟩ | ⟨-, -, hr⟩ | ⟨g, gs, -, hp⟩
    · rw [hr]
      exact keeps_of_stack hs.subscribers (by simp)
    · rw [hr]
      exact keeps_of_push [_] hs.subscribers (by simp) (by simp)
    · simp only [request, hp]
      split
      · exact keeps_of_push [_, _] hs.subscribers (by simp) (by simp)
      · have hqueued : (w₁.enqueueAll b ((g :: gs).map (⟨e, ·⟩))).subscribers = w.subscribers :=
          hs.subscribers
        exact keeps_drain hqueued b next
  | register b s next =>
    obtain ⟨w', o, hr, -, hs⟩ := request_register w k b s next
    rw [hr]
    exact keeps_of_stack hs (by simp)
  | unregister b s next =>
    obtain ⟨w', o, hr, -, hs⟩ := request_unregister w k b s next
    rw [hr]
    exact keeps_of_stack hs (by simp)
  | enqueue b d next =>
    simp only [request]
    split
    · exact keeps_of_push [_] rfl (by simp) (by simp)
    · exact keeps_of_stack rfl (by simp)
  | drain b next =>
    simp only [request]
    split
    · exact keeps_of_stack rfl (by simp)
    · exact keeps_drain rfl b next
  | attempt body next => exact keeps_of_push [_] rfl (by simp) (by simp)
  | spawn body next => exact keeps_of_push [_] rfl (by simp) (by simp)
  | activate s methods next =>
    exact ⟨w.subscriberType_activate s methods, fun _ h => h, by simp [request]⟩
  | _ => exact keeps_of_stack rfl (by simp)

theorem keeps_settle (c : Call σ ε α) (o : Except HandlerError Unit) : Keeps w k (settle w k c o) := by
  obtain ⟨d, use⟩ := c
  cases use with
  | direct next => exact keeps_of_stack rfl (by simp)
  | delivery b => cases o <;> exact keeps_of_stack rfl (by simp)

theorem keeps_report (code : Behaviour σ ε α) (b : BusId) (d : Delivery α) (e : HandlerError) :
    Keeps w k (report code w k b d e) := by
  unfold report
  split
  · exact keeps_of_push [_] rfl (by simp) (by simp)
  · exact keeps_of_stack (World.Steady.keep w b d e).subscribers (by simp)

theorem keeps_resume (x : Ending) {f : Frame σ ε α} (hf : ¬∃ c, f = .call c) :
    Keeps w k (resume w x k f) := by
  cases f with
  | call c => exact absurd ⟨c, rfl⟩ hf
  | handing b e bs =>
    cases bs with
    | nil => exact keeps_of_stack rfl (by simp)
    | cons g gs => exact keeps_of_push [_] rfl (by simp) (by simp)
  | draining b owner =>
    simp only [resume]
    split
    · exact keeps_of_push [_] rfl (by simp) (by simp)
    · exact keeps_of_stack rfl (by simp)
  | _ => exact keeps_of_stack rfl (by simp)

theorem keeps_unwind (p : Panic) {f : Frame σ ε α} (hf : ¬∃ c, f = .call c) :
    Keeps w k (unwind w p k f) := by
  cases f with
  | call c => exact absurd ⟨c, rfl⟩ hf
  | draining b owner =>
    refine keeps_of_stack ?_ (by simp)
    simp only [World.abandon]
    split <;> rfl
  | _ => exact keeps_of_stack rfl (by simp)

theorem enter_eq (code : Behaviour σ ε α) (c : Call σ ε α) : enter code w k c =
    match c.delivery.admitted w.subscriberType with
    | .ok v => ⟨w, .run (code.body c.delivery.binding.method.body c.delivery.binding.target v),
        .call c :: k⟩
    | .error e => ⟨w, .settle c (.error e), k⟩ := rfl

theorem Judged.entered {c : Call σ ε α} (h : Judged ⟨w, .call c, k⟩) (code : Behaviour σ ε α) :
    (enter code w k c).Judged := by
  rw [enter_eq]
  cases ha : c.delivery.admitted w.subscriberType with
  | ok v =>
    refine ⟨fun c' hc' => ?_, by simp⟩
    rcases List.mem_cons.mp hc' with hc' | hc'
    · cases hc'
      exact ⟨v, ha⟩
    · exact h.calls c' hc'
  | error e =>
    refine ⟨h.calls, fun c' o ho => ?_⟩
    cases ho
    exact .refused ha

theorem Judged.settled {call : Call σ ε α} (h : Judged ⟨w, c, .call call :: k⟩)
    {o : Except HandlerError Unit} (ho : ∀ v, call.delivery.admitted w.subscriberType = .ok v →
      call.delivery.Settles w.subscriberType o) : Judged ⟨w, .settle call o, k⟩ := by
  obtain ⟨v, hv⟩ := h.calls call List.mem_cons_self
  refine ⟨fun c' hc' => h.calls c' (List.mem_cons_of_mem _ hc'), fun c' o' h' => ?_⟩
  cases h'
  exact ho v hv

end

/-- A step lets calls in and settles them as it should, and no subscriber changes its type. -/
theorem Judged.step {m : Machine σ ε α} (h : m.Judged) (code : Behaviour σ ε α) :
    (m.step code).Judged ∧ (m.step code).world.subscriberType = m.world.subscriberType := by
  obtain ⟨w, control, k⟩ := m
  have keeps : ∀ {m' : Machine σ ε α} {k'}, Keeps w k' m' → (∀ c, .call c ∈ k' → .call c ∈ k) →
      m'.Judged ∧ m'.world.subscriberType = w.subscriberType := fun hm hk =>
    ⟨hm.judged fun c hc => h.calls c (hk c hc), hm.types⟩
  cases control with
  | run p => exact keeps (keeps_request p) fun _ hc => hc
  | settle c o => exact keeps (keeps_settle c o) fun _ hc => hc
  | report b d e => exact keeps (keeps_report code b d e) fun _ hc => hc
  | call c =>
    refine ⟨h.entered code, ?_⟩
    show (enter code w k c).world.subscriberType = w.subscriberType
    rw [enter_eq]
    split <;> rfl
  | returned x =>
    rcases k with _ | ⟨f, k⟩
    · exact ⟨h, rfl⟩
    · by_cases hf : ∃ c, f = .call c
      · obtain ⟨c, rfl⟩ := hf
        exact ⟨h.settled fun v hv => .ended x hv, rfl⟩
      · exact keeps (keeps_resume x hf) fun _ hc => List.mem_cons_of_mem _ hc
  | unwinding p =>
    rcases k with _ | ⟨f, k⟩
    · exact ⟨h, rfl⟩
    · by_cases hf : ∃ c, f = .call c
      · obtain ⟨c, rfl⟩ := hf
        exact ⟨h.settled fun v hv => .panicked p hv, rfl⟩
      · exact keeps (keeps_unwind p hf) fun _ hc => List.mem_cons_of_mem _ hc

end Machine

/-! ## Crews -/

namespace Crew

def Judged (c : Crew σ ε α) : Prop := ∀ s ∈ c.strands, (c.machine s).Judged

theorem Fresh.judged {c : Crew σ ε α} (h : c.Fresh) : c.Judged := by
  intro s hs
  obtain ⟨⟨p, hp⟩, hk⟩ := h.programs s hs
  refine ⟨fun call hcall => ?_, fun call o ho => ?_⟩
  · simp [machine, hk] at hcall
  · simp [machine, hp] at ho

theorem Judged.step {c : Crew σ ε α} (h : c.Judged) (code : Behaviour σ ε α) (pick : Pick σ ε α) :
    (c.step code pick).Judged ∧
      (c.step code pick).world.subscriberType = c.world.subscriberType := by
  cases pick with
  | start p =>
    refine ⟨fun s hs => ?_, rfl⟩
    rcases List.mem_append.mp hs with hs | hs
    · exact ⟨(h s hs).calls, (h s hs).settles⟩
    · rw [List.mem_singleton.mp hs]
      exact ⟨by simp [machine], by simp [machine]⟩
  | work i =>
    simp only [Crew.step]
    cases hi : c.strands[i]? with
    | none => exact ⟨h, rfl⟩
    | some s =>
      obtain ⟨hjudged, htypes⟩ := (h s (List.mem_of_getElem? hi)).step code
      refine ⟨fun s' hs' => ?_, htypes⟩
      rcases List.mem_or_eq_of_mem_set hs' with hs' | rfl
      · have hs := h s' hs'
        exact ⟨htypes ▸ hs.calls, htypes ▸ hs.settles⟩
      · exact ⟨hjudged.calls, hjudged.settles⟩

theorem Judged.after {c : Crew σ ε α} (h : c.Judged) (code : Behaviour σ ε α)
    (picks : Nat → Pick σ ε α) (n : Nat) : (c.after code picks n).Judged ∧
      (c.after code picks n).world.subscriberType = c.world.subscriberType := by
  induction n with
  | zero => exact ⟨h, rfl⟩
  | succ n ih =>
    obtain ⟨hjudged, htypes⟩ := ih.1.step code (picks n)
    exact ⟨hjudged, htypes.trans ih.2⟩

/-- In every run, whatever settles does so as it can. -/
theorem Fresh.settles {c : Crew σ ε α} (h : c.Fresh) (code : Behaviour σ ε α)
    (picks : Nat → Pick σ ε α) (n : Nat) {s : Strand σ ε α} (hs : s ∈ (c.after code picks n).strands)
    {call : Call σ ε α} {o : Except HandlerError Unit} (ho : s.control = .settle call o) :
    call.delivery.Settles c.world.subscriberType o := by
  obtain ⟨hjudged, htypes⟩ := h.judged.after code picks n
  rw [← htypes]
  exact (hjudged s hs).settles call o ho

end Crew
end EventBus
