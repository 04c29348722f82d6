import EventBus.Proofs.Forest
import EventBus.Proofs.Runs
import EventBus.Proofs.Worlds

/-!
# Handlers that post to their bus

The conduct of handlers says which events they post in answer to a delivery, in order, and how
they end. With a registry and a cache that no handler changes, it unfolds a post into a forest of
deliveries. A call of such a handler is run here for both ways of dispatching, which differ in
what a post does (`Dispatching`).
-/

namespace EventBus

variable {σ ε α : Type}

def Ending.panic? : Except Panic Ending → Option Panic
  | .ok _ => none
  | .error p => some p

/-- The program posts these events to `b`, in this order, and then ends so, whatever it finds in
the world. It may note and store what it likes, and catch panics of its own. -/
inductive Program.Posts (b : BusId) :
    Program σ ε α → List (Event α) → Except Panic Ending → Prop
  | finish (e : Ending) : Posts b (.finish e) [] (.ok e)
  | panic (p : Panic) : Posts b (.panic p) [] (.error p)
  | look {next : World σ ε α → Program σ ε α} {es : List (Event α)} {o : Except Panic Ending} :
      (∀ w, Posts b (next w) es o) → Posts b (.look next) es o
  | store {v : σ} {next : Program σ ε α} {es : List (Event α)} {o : Except Panic Ending} :
      Posts b next es o → Posts b (.store v next) es o
  | note {n : ε} {next : Program σ ε α} {es : List (Event α)} {o : Except Panic Ending} :
      Posts b next es o → Posts b (.note n next) es o
  | post {e : Event α} {next : Program σ ε α} {es : List (Event α)} {o : Except Panic Ending} :
      Posts b next es o → Posts b (.post b e next) (e :: es) o
  | attempt {body : Program σ ε α} {next : Option Panic → Program σ ε α}
      {es es' : List (Event α)} {o o' : Except Panic Ending} :
      Posts b body es o → Posts b (next (Ending.panic? o)) es' o' →
        Posts b (.attempt body next) (es ++ es') o'

/-- What handlers do with a delivery when they are called: the events they post, and how they
end. -/
structure Conduct (α : Type) where
  posts : Delivery α → List (Event α)
  exit : Delivery α → Except Panic Ending

/-- Handlers called for the bus `b` conduct themselves so. -/
def Behaviour.Follows (code : Behaviour σ ε α) (w : World σ ε α) (b : BusId) (c : Conduct α) : Prop :=
  ∀ d e, d.binding.accept (w.subscriberType d.binding.target) d.event = .ok e →
    (code.body d.binding.method.body d.binding.target e).Posts b (c.posts d) (c.exit d)

def Behaviour.Discreet (code : Behaviour σ ε α) (w : World σ ε α) (b : BusId) : Prop :=
  ∀ id, (w.bus b).sink.custom? = some id →
    ∀ d e, ∃ ending, (code.sink id d e).Posts b [] (.ok ending)

namespace World

def answers (w : World σ ε α) (c : Conduct α) (d : Delivery α) : List (Event α) :=
  match d.binding.accept (w.subscriberType d.binding.target) d.event with
  | .ok _ => c.posts d
  | .error _ => []

def verdict (w : World σ ε α) (c : Conduct α) (d : Delivery α) : Except HandlerError Unit :=
  match d.binding.accept (w.subscriberType d.binding.target) d.event with
  | .error e => .error e
  | .ok _ =>
    match c.exit d with
    | .ok ending => d.binding.method.shape.outcome ending
    | .error p => .error (.panicked p.message)

def failure? (w : World σ ε α) (c : Conduct α) (d : Delivery α) : Option (Delivery α × HandlerError) :=
  match w.verdict c d with
  | .error e => some (d, e)
  | .ok _ => none

/-- The tree of a delivery: below it are, for each event posted in answer to it, the deliveries
that event reaches. -/
inductive Unfolds (w : World σ ε α) (b : BusId) (c : Conduct α) : RoseTree (Delivery α) → Prop
  | node {d : Delivery α} {ts : List (RoseTree (Delivery α))} :
      ts.map RoseTree.label = (w.answers c d).flatMap (w.reach b) → (∀ t ∈ ts, Unfolds w b c t) →
        Unfolds w b c (.node d ts)

structure Forest (w : World σ ε α) (b : BusId) (c : Conduct α) (e : Event α)
    (ts : List (RoseTree (Delivery α))) : Prop where
  roots : ts.map RoseTree.label = w.reach b e
  trees : ∀ t ∈ ts, w.Unfolds b c t

def reported (w : World σ ε α) (c : Conduct α) (d : Delivery α) : List (Sight α) :=
  ((w.failure? c d).map fun f => .report f.1 f.2).toList

end World

def Control.exit : Except Panic Ending → Control σ ε α
  | .ok e => .returned e
  | .error p => .unwinding p

open Machine

/-- A law of a dispatch discipline: `Inv es s w` says of a world `w` in which `s` was seen so far
that the events `es` are still to be posted. -/
structure Dispatching (code : Behaviour σ ε α) (b : BusId) (w₀ : World σ ε α)
    (Inv : List (Event α) → List (Sight α) → World σ ε α → Prop) : Prop where
  steady {es s w} : Inv es s w → World.Steady b w₀ w
  same {es s w w'} : Inv es s w → World.Steady b w w' →
    (w'.bus b).queues = (w.bus b).queues → Inv es s w'
  post {e es s w} (next k) : Inv (e :: es) s w → ∃ s' w',
    Leads code b ⟨w, .run (.post b e next), k⟩ s' ⟨w', .run next, k⟩ ∧ Inv es (s ++ s') w'

namespace Dispatching

variable {code : Behaviour σ ε α} {b : BusId} {w₀ w : World σ ε α} {c : Conduct α}
  {Inv : List (Event α) → List (Sight α) → World σ ε α → Prop}

theorem program (H : Dispatching code b w₀ Inv) {p : Program σ ε α} {es : List (Event α)}
    {o : Except Panic Ending} (hp : p.Posts b es o) (rest : List (Event α)) {s : List (Sight α)}
    (k : List (Frame σ ε α)) (h : Inv (es ++ rest) s w) :
    ∃ s' w', Leads code b ⟨w, .run p, k⟩ s' ⟨w', .exit o, k⟩ ∧ Inv rest (s ++ s') w' := by
  induction hp generalizing rest s w k with
  | finish e =>
    exact ⟨[], w, .head (.refl ⟨w, .returned e, k⟩), by rwa [List.append_nil]⟩
  | panic p =>
    exact ⟨[], w, .head (.refl ⟨w, .unwinding p, k⟩), by rwa [List.append_nil]⟩
  | look _ ih =>
    obtain ⟨s', w', hl, h'⟩ := ih w rest k h
    exact ⟨s', w', .head hl, h'⟩
  | @store v _ _ _ _ ih =>
    obtain ⟨s', w', hl, h'⟩ := ih rest k (H.same h (.store b w v) rfl)
    exact ⟨s', w', .head hl, h'⟩
  | @note n _ _ _ _ ih =>
    obtain ⟨s', w', hl, h'⟩ := ih rest k (H.same h (.note b w n) rfl)
    exact ⟨s', w', .head hl, h'⟩
  | @post e next _ _ _ ih =>
    obtain ⟨s₁, w₁, hl₁, h₁⟩ := H.post next k h
    obtain ⟨s₂, w₂, hl₂, h₂⟩ := ih rest k h₁
    exact ⟨s₁ ++ s₂, w₂, hl₁.trans hl₂, by rwa [← List.append_assoc]⟩
  | @attempt body next es es' o o' _ _ ih ih' =>
    rw [List.append_assoc] at h
    obtain ⟨s₁, w₁, hl₁, h₁⟩ := ih (es' ++ rest) (.guarded next :: k) h
    obtain ⟨s₂, w₂, hl₂, h₂⟩ := ih' rest k h₁
    have caught : Leads code b ⟨w₁, .exit o, .guarded next :: k⟩ []
        ⟨w₁, .run (next (Ending.panic? o)), k⟩ := by
      cases o <;> exact .head (.refl _)
    exact ⟨s₁ ++ s₂, w₂, .head (hl₁.trans (caught.trans hl₂)), by rwa [← List.append_assoc]⟩

end Dispatching

section
variable {code : Behaviour σ ε α} {b : BusId} {w₀ w : World σ ε α}

theorem leads_quiet (code : Behaviour σ ε α) {p : Program σ ε α} {o : Except Panic Ending}
    (hp : p.Posts b [] o) (w : World σ ε α) (k : List (Frame σ ε α)) :
    ∃ w', Leads code b ⟨w, .run p, k⟩ [] ⟨w', .exit o, k⟩ ∧ World.Steady b w w' ∧
      (w'.bus b).queues = (w.bus b).queues := by
  have H : Dispatching code b w fun es s w' =>
      es = [] ∧ s = [] ∧ World.Steady b w w' ∧ (w'.bus b).queues = (w.bus b).queues :=
    { steady := fun h => h.2.2.1
      same := fun h hs hq => ⟨h.1, h.2.1, h.2.2.1.trans hs, hq.trans h.2.2.2⟩
      post := fun _ _ h => absurd h.1 (List.cons_ne_nil _ _) }
  obtain ⟨s, w', hl, -, hs, hw⟩ := H.program hp [] (s := []) k ⟨rfl, rfl, .refl b w, rfl⟩
  rw [List.nil_append] at hs
  exact ⟨w', hs ▸ hl, hw⟩

theorem leads_report (hs : code.Discreet w₀ b) (hw : World.Steady b w₀ w) (d : Delivery α)
    (e : HandlerError) (k : List (Frame σ ε α)) :
    ∃ w', Leads code b ⟨w, .report b d e, k⟩ [.report d e] ⟨w', .returned .done, k⟩ ∧
      World.Steady b w w' ∧ (w'.bus b).queues = (w.bus b).queues := by
  have seen : (⟨w, .report b d e, k⟩ : Machine σ ε α).sights b = [.report d e] := by
    simp [sights]
  cases hc : (w.bus b).sink with
  | custom id =>
    obtain ⟨ending, hp⟩ := hs id (by rw [← hw.custom, hc]; rfl) d e
    obtain ⟨w', hl, hw'⟩ := leads_quiet code hp w (.report b d e :: k)
    have hstep : (⟨w, .report b d e, k⟩ : Machine σ ε α).step code =
        ⟨w, .run (code.sink id d e), .report b d e :: k⟩ := by
      simp [step, report, hc]
    exact ⟨w', .next seen hstep (hl.tail rfl), hw'⟩
  | _ =>
    have hstep : (⟨w, .report b d e, k⟩ : Machine σ ε α).step code =
        ⟨w.keep b d e, .returned .done, k⟩ := by
      simp [step, report, hc]
    exact ⟨_, .next seen hstep (.refl _), .keep w b d e, (World.Calm.keep w b d e).queues b⟩

end

namespace Dispatching

variable {code : Behaviour σ ε α} {b : BusId} {w₀ w : World σ ε α} {c : Conduct α}
  {Inv : List (Event α) → List (Sight α) → World σ ε α → Prop}

theorem settle (H : Dispatching code b w₀ Inv) (hf : code.Follows w₀ b c) (d : Delivery α)
    (k : List (Frame σ ε α)) {s : List (Sight α)} (h : Inv (w₀.answers c d) s w) :
    ∃ s' w', Leads code b ⟨w, .call ⟨d, .delivery b⟩, k⟩ (.start d :: s')
      ⟨w', .settle ⟨d, .delivery b⟩ (w₀.verdict c d), k⟩ ∧ Inv [] (s ++ s') w' := by
  have seen : (⟨w, .call ⟨d, .delivery b⟩, k⟩ : Machine σ ε α).sights b = [.start d] := by
    simp [sights]
  have htype := (H.steady h).subscriberType d.binding.target
  unfold World.answers at h
  unfold World.verdict
  cases ha : d.binding.accept (w₀.subscriberType d.binding.target) d.event with
  | error e =>
    simp only [ha] at h ⊢
    have hstep : (⟨w, .call ⟨d, .delivery b⟩, k⟩ : Machine σ ε α).step code =
        ⟨w, .settle ⟨d, .delivery b⟩ (.error e), k⟩ := by
      simp [step, enter, htype, ha]
    exact ⟨[], w, .next seen hstep (.refl _), by rwa [List.append_nil]⟩
  | ok e =>
    simp only [ha] at h ⊢
    have hstep : (⟨w, .call ⟨d, .delivery b⟩, k⟩ : Machine σ ε α).step code =
        ⟨w, .run (code.body d.binding.method.body d.binding.target e),
          .call ⟨d, .delivery b⟩ :: k⟩ := by
      simp [step, enter, htype, ha]
    obtain ⟨s', w', hl, h'⟩ :=
      H.program (hf d e ha) [] (.call ⟨d, .delivery b⟩ :: k) (by rwa [List.append_nil])
    refine ⟨s', w', .next seen hstep ?_, h'⟩
    cases hx : c.exit d with
    | ok ending =>
      rw [hx] at hl
      exact hl.tail rfl
    | error p =>
      rw [hx] at hl
      exact hl.tail rfl

theorem call (H : Dispatching code b w₀ Inv) (hf : code.Follows w₀ b c)
    (hs : code.Discreet w₀ b) (d : Delivery α) (k : List (Frame σ ε α)) {s : List (Sight α)}
    (h : Inv (w₀.answers c d) s w) :
    ∃ s' w', Leads code b ⟨w, .call ⟨d, .delivery b⟩, k⟩ (.start d :: s' ++ w₀.reported c d)
      ⟨w', .returned .done, k⟩ ∧ Inv [] (s ++ s') w' := by
  obtain ⟨s', w₁, hl, h₁⟩ := H.settle hf d k h
  have hl := hl.tail rfl
  unfold World.reported World.failure?
  cases hv : w₀.verdict c d with
  | ok _ =>
    refine ⟨s', w₁, ?_, h₁⟩
    simpa [hv, step, Machine.settle] using hl
  | error e =>
    obtain ⟨w₂, hr, hw, hq⟩ := leads_report hs (H.steady h₁) d e k
    refine ⟨s', w₂, ?_, H.same h₁ hw hq⟩
    rw [hv] at hl
    exact hl.trans hr

end Dispatching
end EventBus
