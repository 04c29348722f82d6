import EventBus.Proofs.DispatchOrder
import EventBus.Proofs.Falls
import EventBus.Proofs.Verdicts

/-!
# Typed and erased calls

Projections are code of the event types and may answer anything. A typed call lets its code run only
on a value that has the parameter's own type, so it need not trust them. Code that runs stays on the
stack until it ends, and the call settles with how it ended.
-/

namespace EventBus

variable {σ ε α : Type}

/-! ## Admission -/

namespace Event

variable {e v : Event α} {u : EventType}

theorem view?_eq_some_iff : e.view? u = some v ↔ e.project? u = some v ∧ v.type = u := by
  unfold view?
  cases hp : e.project? u with
  | none => simp
  | some p =>
    by_cases hu : p.type = u
    · simp only [hu, if_true, Option.some.injEq]
      constructor
      · intro hpv
        rw [← hpv]
        exact ⟨rfl, hu⟩
      · intro h
        exact h.1
    · simp only [hu, if_false, Option.some.injEq]
      constructor
      · intro h
        cases h
      · intro h
        rw [← h.1] at h
        exact absurd h.2 hu

theorem view?_eq_none_iff : e.view? u = none ↔ ∀ v, e.project? u = some v → v.type ≠ u := by
  rw [Option.eq_none_iff_forall_ne_some]
  apply forall_congr'
  intro v
  rw [Ne, view?_eq_some_iff, not_and]

end Event

namespace Delivery

variable {d : Delivery α} {types : SubscriberId → String} {S name : String} {E : EventType}
  {body : BodyId}

theorem admitted_of_stranger (hm : d.binding.method.shape ≠ .raw)
    (ht : types d.binding.target ≠ d.binding.method.owner) :
    d.admitted types = .error (.subscriberMismatch d.binding.method.owner) := by
  unfold admitted Binding.accept
  cases hs : d.binding.method.shape with
  | raw => exact absurd hs hm
  | typed E => exact if_neg ht
  | erased => exact if_neg ht

theorem admitted_typed (hm : d.binding.method = .typed S name E body)
    (ht : types d.binding.target = S) : d.admitted types =
      match d.event.view? E with
      | some v => .ok v
      | none => .error (.eventMismatch E.name d.event.type.name) := by
  unfold admitted Binding.accept
  rw [hm]
  exact if_pos ht

theorem admitted_erased (hm : d.binding.method = .erased S name E body)
    (ht : types d.binding.target = S) : d.admitted types = .ok d.event := by
  unfold admitted Binding.accept
  rw [hm]
  exact if_pos ht

theorem admitted_typed_iff (hm : d.binding.method = .typed S name E body) {v : Event α} :
    d.admitted types = .ok v ↔
      types d.binding.target = S ∧ d.event.project? E = some v ∧ v.type = E := by
  rw [← Event.view?_eq_some_iff]
  by_cases ht : types d.binding.target = S
  · rw [admitted_typed hm ht]
    cases d.event.view? E <;> simp [ht]
  · have hs : d.binding.method.shape ≠ .raw := by simp [hm, Method.typed]
    have ho : types d.binding.target ≠ d.binding.method.owner := by rwa [hm]
    rw [admitted_of_stranger hs ho]
    simp [ht]

theorem admitted_erased_iff (hm : d.binding.method = .erased S name E body) {v : Event α} :
    d.admitted types = .ok v ↔ types d.binding.target = S ∧ v = d.event := by
  by_cases ht : types d.binding.target = S
  · rw [admitted_erased hm ht]
    simp [ht, eq_comm]
  · have hs : d.binding.method.shape ≠ .raw := by simp [hm, Method.erased]
    have ho : types d.binding.target ≠ d.binding.method.owner := by rwa [hm]
    rw [admitted_of_stranger hs ho]
    simp [ht]

end Delivery

/-! ## Ends -/

/-- The code of a typed or erased method ended as the control tells, and its call gives the outcome. -/
inductive Gives : Control σ ε α → Except HandlerError Unit → Prop
  | done : Gives (.returned .done) (.ok ())
  | fault (f : Fault) : Gives (.returned (.fault f)) (.error (.failed f))
  | error (e : HandlerError) : Gives (.returned (.error e)) (.error (.failed e.toFault))
  | panic (p : Panic) : Gives (.unwinding p) (.error (.panicked p.message))

/-- The same for a method of any shape. A raw one answers for its errors itself: what it returns
stands as it is. -/
inductive Shape.Gives (s : Shape) : Control σ ε α → Except HandlerError Unit → Prop
  | raw (e : HandlerError) : s = .raw → Shape.Gives s (.returned (.error e)) (.error e)
  | other {x : Control σ ε α} {o : Except HandlerError Unit} :
      (s = .raw → ∀ e, x ≠ .returned (.error e)) → EventBus.Gives x o → Shape.Gives s x o

theorem Shape.Gives.of_not_raw {s : Shape} {x : Control σ ε α} {o : Except HandlerError Unit}
    (h : s.Gives x o) (hs : s ≠ .raw) : EventBus.Gives x o := by
  cases h with
  | raw _ hraw => exact absurd hraw hs
  | other _ h => exact h

theorem gives_outcome (s : Shape) (x : Ending) :
    s.Gives (.returned x : Control σ ε α) (s.outcome x) := by
  cases x with
  | done => exact .other (fun _ _ h => by cases h) .done
  | fault f => exact .other (fun _ _ h => by cases h) (.fault f)
  | error e =>
    cases s with
    | raw => exact .raw e rfl
    | typed E => exact .other (fun h => by cases h) (.error e)
    | erased => exact .other (fun h => by cases h) (.error e)

theorem Strand.settled_of_rests (code : Behaviour σ ε α) (t : ThreadId) (k : List (Frame σ ε α))
    (call : Call σ ε α) {x : Control σ ε α} (hx : x.Rests) :
    ∃ o, call.delivery.binding.method.shape.Gives x o ∧
      Then code ⟨t, x, .call call :: k⟩ ⟨t, .settle call o, k⟩ := by
  obtain ⟨y, rfl⟩ | ⟨p, rfl⟩ := hx.cases
  · exact ⟨_, gives_outcome _ y, fun _ => rfl⟩
  · exact ⟨_, .other (fun _ _ h => by cases h) (.panic p), fun _ => rfl⟩

/-! ## Runs -/

namespace Crew

/-- The call that the strand makes at the step `r` has its code run on `v`. The code stays on the
stack, and when it comes to an end the call settles with what that gives. -/
structure RunsOn (c : Crew σ ε α) (code : Behaviour σ ε α) (picks : Nat → Pick σ ε α) (i r : Nat)
    (t : ThreadId) (call : Call σ ε α) (k : List (Frame σ ε α)) (v : Event α) : Prop where
  starts : (c.after code picks (r + 1)).strands[i]? = some ⟨t,
    .run (code.body call.delivery.binding.method.body call.delivery.binding.target v), .call call :: k⟩
  settles : ∀ n, r < n →
    (∃ q, r < q ∧ q ≤ n ∧
        (∃ j x o, q = j + 1 ∧ r < j ∧ picks j = .work i ∧ Gives x o ∧
          (c.after code picks j).strands[i]? = some ⟨t, x, .call call :: k⟩ ∧
          (c.after code picks q).strands[i]? = some ⟨t, .settle call o, k⟩) ∧
        ∀ m, r < m → m < q → ∃ s, (c.after code picks m).strands[i]? = some s ∧
          s.Holds t (.call call :: k)) ∨
      ∀ m, r < m → m ≤ n → ∃ s, (c.after code picks m).strands[i]? = some s ∧
        s.Holds t (.call call :: k)

section

variable {c : Crew σ ε α} {code : Behaviour σ ε α} {picks : Nat → Pick σ ε α} {i r : Nat}
  {t : ThreadId} {call : Call σ ε α} {k : List (Frame σ ε α)}

section

variable (hp : picks r = .work i) (hs : (c.after code picks r).strands[i]? = some ⟨t, .call call, k⟩)
include hp hs

theorem next_of_call : (c.after code picks (r + 1)).strands[i]? =
    match call.delivery.admitted (c.after code picks r).world.subscriberType with
    | .ok v => some ⟨t, .run (code.body call.delivery.binding.method.body
        call.delivery.binding.target v), .call call :: k⟩
    | .error e => some ⟨t, .settle call (.error e), k⟩ := by
  rcases own_cases code hs (picks r) with ⟨-, hnext, -⟩ | ⟨hne, -, -⟩
  · have henter : ((c.after code picks r).machine ⟨t, .call call, k⟩).step code =
        Machine.enter code _ k call := rfl
    have htypes : ((c.after code picks r).machine ⟨t, .call call, k⟩).world.subscriberType =
        (c.after code picks r).world.subscriberType := rfl
    rw [after, hnext, henter, Machine.enter_eq, htypes]
    cases call.delivery.admitted (c.after code picks r).world.subscriberType <;> rfl
  · exact absurd hp hne

theorem refused_at_once {e : HandlerError}
    (he : call.delivery.admitted (c.after code picks r).world.subscriberType = .error e) :
    (c.after code picks (r + 1)).strands[i]? = some ⟨t, .settle call (.error e), k⟩ := by
  rw [next_of_call hp hs, he]

/-- Code that is let in stays on the stack until it ends: what lies on the call leaves it where it
is, and code that rests right on it settles it. -/
theorem run_settles {v : Event α}
    (hv : call.delivery.admitted (c.after code picks r).world.subscriberType = .ok v) {n : Nat}
    (hrn : r < n) :
    (∃ q, r < q ∧ q ≤ n ∧
        (∃ j x o, q = j + 1 ∧ r < j ∧ picks j = .work i ∧
          call.delivery.binding.method.shape.Gives x o ∧
          (c.after code picks j).strands[i]? = some ⟨t, x, .call call :: k⟩ ∧
          (c.after code picks q).strands[i]? = some ⟨t, .settle call o, k⟩) ∧
        ∀ m, r < m → m < q → ∃ s, (c.after code picks m).strands[i]? = some s ∧
          s.Holds t (.call call :: k)) ∨
      ∀ m, r < m → m ≤ n → ∃ s, (c.after code picks m).strands[i]? = some s ∧
        s.Holds t (.call call :: k) := by
  have hstart := next_of_call hp hs
  rw [hv] at hstart
  refine ends_or_lasts hrn (.inr ⟨_, hstart, [], rfl, rfl⟩) fun m hrm _ hholds => ?_
  obtain ⟨s, hs', h⟩ := hholds
  rcases own_cases code hs' (picks m) with ⟨hpm, hnext, -⟩ | ⟨-, hnext, -⟩
  · rcases h.step (strand_step code (c.after code picks m) s) with h' | ⟨hrests, htop⟩
    · exact .inr ⟨_, hnext, h'⟩
    · obtain ⟨o, ho, hthen⟩ := Strand.settled_of_rests code t k call hrests
      rw [htop] at hs' hnext
      rw [hthen] at hnext
      exact .inl ⟨m, s.control, o, rfl, hrm, hpm, ho, hs', hnext⟩
  · exact .inr ⟨s, hnext, h⟩

/-- Code that is let in runs on what it is let in with. -/
theorem runs_on (hm : call.delivery.binding.method.shape ≠ .raw) {v : Event α}
    (hv : call.delivery.admitted (c.after code picks r).world.subscriberType = .ok v) :
    c.RunsOn code picks i r t call k v := by
  have hstart := next_of_call hp hs
  rw [hv] at hstart
  refine ⟨hstart, fun n hrn => (run_settles hp hs hv hrn).imp ?_ id⟩
  intro h
  obtain ⟨q, hrq, hqn, ⟨j, x, o, hq, hrj, hpj, ho, hrest⟩, hholds⟩ := h
  exact ⟨q, hrq, hqn, ⟨j, x, o, hq, hrj, hpj, ho.of_not_raw hm, hrest⟩, hholds⟩

theorem running_iff :
    (∃ p, (c.after code picks (r + 1)).strands[i]? = some ⟨t, .run p, .call call :: k⟩) ↔
      ∃ v, call.delivery.admitted (c.after code picks r).world.subscriberType = .ok v := by
  rw [next_of_call hp hs]
  cases call.delivery.admitted (c.after code picks r).world.subscriberType <;> simp

end

end

/-- Whatever the projections of the event answer, and to whichever event type the binding is bound, a
typed call lets its code run iff the target has the owner's type and the projection to the parameter
type gives a value of that very type; the code gets that value. An erased call lets its code run on
the event itself iff the target has the owner's type. Any other call settles at once, with a mismatch
of the subscriber or else with one that names the parameter type and the event's own. Code that runs
settles its call with success, with the error it returned or with its panic. -/
theorem typed_calls_sound {c : Crew σ ε α} (code : Behaviour σ ε α) (picks : Nat → Pick σ ε α)
    {i r : Nat} {t : ThreadId} {call : Call σ ε α} {k : List (Frame σ ε α)}
    (hp : picks r = .work i) (hs : (c.after code picks r).strands[i]? = some ⟨t, .call call, k⟩) :
    let d := call.delivery
    let targetType := (c.after code picks r).world.subscriberType d.binding.target
    let next? := (c.after code picks (r + 1)).strands[i]?
    (∀ S name E body, d.binding.method = .typed S name E body →
      ((∃ p, next? = some ⟨t, .run p, .call call :: k⟩) ↔
          targetType = S ∧ ∃ v, d.event.project? E = some v ∧ v.type = E) ∧
        (∀ v, targetType = S → d.event.project? E = some v → v.type = E →
          c.RunsOn code picks i r t call k v) ∧
        (targetType ≠ S → next? = some ⟨t, .settle call (.error (.subscriberMismatch S)), k⟩) ∧
        (targetType = S → (∀ v, d.event.project? E = some v → v.type ≠ E) →
          next? = some ⟨t, .settle call (.error (.eventMismatch E.name d.event.type.name)), k⟩)) ∧
      ∀ S name E body, d.binding.method = .erased S name E body →
        ((∃ p, next? = some ⟨t, .run p, .call call :: k⟩) ↔ targetType = S) ∧
          (targetType = S → c.RunsOn code picks i r t call k d.event) ∧
          (targetType ≠ S →
            next? = some ⟨t, .settle call (.error (.subscriberMismatch S)), k⟩) := by
  intro d targetType next?
  have stranger : d.binding.method.shape ≠ .raw → targetType ≠ d.binding.method.owner →
      next? = some ⟨t, .settle call (.error (.subscriberMismatch d.binding.method.owner)), k⟩ := by
    intro hm ht
    exact refused_at_once hp hs (Delivery.admitted_of_stranger hm ht)
  refine ⟨fun S name E body hm => ?typed, fun S name E body hm => ?erased⟩
  case typed =>
    have hshape : d.binding.method.shape ≠ .raw := by simp [hm, Method.typed]
    refine ⟨?_, fun v ht hv hE => ?_, fun ht => ?_, fun ht hnone => ?_⟩
    · rw [running_iff hp hs, ← exists_and_left]
      exact exists_congr fun v => Delivery.admitted_typed_iff hm
    · exact runs_on hp hs hshape ((Delivery.admitted_typed_iff hm).mpr ⟨ht, hv, hE⟩)
    · rw [hm] at stranger
      exact stranger (by simp [Method.typed]) ht
    · apply refused_at_once hp hs
      rw [Delivery.admitted_typed hm ht, Event.view?_eq_none_iff.mpr hnone]
  case erased =>
    have hshape : d.binding.method.shape ≠ .raw := by simp [hm, Method.erased]
    refine ⟨?_, fun ht => ?_, fun ht => ?_⟩
    · rw [running_iff hp hs]
      constructor
      · intro h
        obtain ⟨v, hv⟩ := h
        exact ((Delivery.admitted_erased_iff hm).mp hv).1
      · intro ht
        exact ⟨d.event, (Delivery.admitted_erased_iff hm).mpr ⟨ht, rfl⟩⟩
    · exact runs_on hp hs hshape ((Delivery.admitted_erased_iff hm).mpr ⟨ht, rfl⟩)
    · rw [hm] at stranger
      exact stranger (by simp [Method.erased]) ht

end Crew

namespace Ripple

/-- A ping that answers every projection with a pong inside it, also that to its own type. -/
def disguise : Event Unit := .value ping () [] fun _ => .part (event pong)

/-- A call of a method of `u`, bound to yet another type. -/
def lookAt (u : EventType) : Call Unit Unit Unit :=
  ⟨⟨disguise, ⟨0, .typed "Ripple" "look" u 1, lost⟩⟩, .direct fun _ => .finish .done⟩

def looking (u : EventType) : Crew Unit Unit Unit := ⟨world, [⟨0, .call (lookAt u), []⟩]⟩

theorem looking_calls (u : EventType) :
    ((looking u).after code (fun _ => .work 0) 0).strands[0]? = some ⟨0, .call (lookAt u), []⟩ := rfl

/-- Code for pongs runs on the pong and refuses it; code for pings does not run. -/
theorem disguise_is_no_ping :
    (looking pong).RunsOn code (fun _ => .work 0) 0 0 0 (lookAt pong) [] (event pong) ∧
      ((looking pong).after code (fun _ => .work 0) 3).strands[0]? =
        some ⟨0, .settle (lookAt pong) (.error (.failed ⟨"refused", []⟩)), []⟩ ∧
      ((looking ping).after code (fun _ => .work 0) 1).strands[0]? =
        some ⟨0, .settle (lookAt ping) (.error (.eventMismatch "Ping" "Ping")), []⟩ := by
  obtain ⟨hpong, -⟩ := Crew.typed_calls_sound code (fun _ => .work 0) rfl (looking_calls pong)
  obtain ⟨-, hruns, -, -⟩ := hpong "Ripple" "look" pong 1 rfl
  obtain ⟨hping, -⟩ := Crew.typed_calls_sound code (fun _ => .work 0) rfl (looking_calls ping)
  obtain ⟨-, -, -, hunseen⟩ := hping "Ripple" "look" ping 1 rfl
  refine ⟨hruns (event pong) rfl rfl rfl, rfl, hunseen rfl ?_⟩
  intro v hv
  cases hv
  decide

end Ripple
end EventBus
