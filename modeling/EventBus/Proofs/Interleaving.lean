import EventBus.Proofs.Strands
import EventBus.Proofs.Worlds

/-!
# Interleaved operations on queues

All threads use the queues of a bus by a few operations, in any order. Each operation reads and
changes the entry of its own thread alone, so a thread sees what it would see if it were alone. The
machine works on its queues by these operations.
-/

namespace EventBus

variable {σ ε α : Type}

namespace Queues

inductive Action (α : Type) where
  | enqueue (delivery : Delivery α)
  | claim
  | next
  | release
  | pending
  | isDraining

structure Operation (α : Type) where
  thread : ThreadId
  action : Action α

inductive Answer (α : Type) where
  | done
  | claimed (success : Bool)
  | next (delivery : Option (Delivery α))
  | released (lost : Nat)
  | pending (size : Nat)
  | draining (flag : Bool)

def perform (q : Queues α) (o : Operation α) : Queues α :=
  match o.action with
  | .enqueue d => q.enqueue o.thread d
  | .claim => (q.claim? o.thread).getD q
  | .next => (q.next o.thread).2
  | .release => (q.release o.thread).2
  | .pending | .isDraining => q

def answer (q : Queues α) (o : Operation α) : Answer α :=
  match o.action with
  | .enqueue _ => .done
  | .claim => .claimed (q.claim? o.thread).isSome
  | .next => .next (q.next o.thread).1
  | .release => .released (q.release o.thread).1
  | .pending => .pending (q.pending o.thread)
  | .isDraining => .draining (q.isDraining o.thread)

def performAll (q : Queues α) (os : List (Operation α)) : Queues α := os.foldl perform q

theorem performAll_append (q : Queues α) (os os' : List (Operation α)) :
    q.performAll (os ++ os') = (q.performAll os).performAll os' := List.foldl_append

/-- What `t` is answered when the operations are performed one after the other. -/
def answers (t : ThreadId) : Queues α → List (Operation α) → List (Answer α)
  | _, [] => []
  | q, o :: os => (if o.thread = t then [q.answer o] else []) ++ answers t (q.perform o) os

/-! ## The entry of a thread -/

/-- What an action makes of its thread's entry, and what it answers. -/
def act (e : Option (ThreadQueue α)) : Action α → Option (ThreadQueue α) × Answer α
  | .enqueue d => (some (grown e [d]), .done)
  | .claim =>
    match e with
    | some ⟨ds, false⟩ => (some ⟨ds, true⟩, .claimed true)
    | e => (e, .claimed false)
  | .next =>
    match e with
    | some ⟨d :: ds, draining⟩ => (some ⟨ds, draining⟩, .next (some d))
    | _ => (none, .next none)
  | .release => (none, .released ((e.map (·.pending.length)).getD 0))
  | .pending => (e, .pending ((e.map (·.pending.length)).getD 0))
  | .isDraining => (e, .draining ((e.map (·.draining)).getD false))

section

variable (q q' : Queues α) (o : Operation α) {t : ThreadId}

theorem get?_perform_self : (q.perform o).get? o.thread = (act (q.get? o.thread) o.action).1 := by
  obtain ⟨t, a⟩ := o
  cases a with
  | enqueue d => exact q.get?_enqueueAll_self t (List.cons_ne_nil d [])
  | claim =>
    simp only [perform, act]
    cases h : q.get? t with
    | none => simp [claim?_of_none h, h]
    | some e =>
      obtain ⟨ds, draining⟩ := e
      cases draining with
      | true => simp [claim?_of_draining h rfl, h]
      | false =>
        obtain ⟨q', hq, hself, -⟩ := claim?_of_idle h rfl
        simp [hq, hself]
  | next =>
    simp only [perform, act]
    cases h : q.get? t with
    | none =>
      rw [next, h]
      exact Table.get?_erase_self _ _
    | some e =>
      obtain ⟨ds, draining⟩ := e
      cases ds with
      | nil =>
        obtain ⟨q', hq, hself, -⟩ := next_of_nil h
        rw [hq, hself]
      | cons d ds =>
        obtain ⟨q', hq, hself, -⟩ := next_of_cons h
        rw [hq, hself]
  | release => exact q.get?_release_self t
  | pending => rfl
  | isDraining => rfl

theorem answer_eq : q.answer o = (act (q.get? o.thread) o.action).2 := by
  obtain ⟨t, a⟩ := o
  cases a with
  | claim =>
    simp only [answer, act]
    cases h : q.get? t with
    | none => simp [claim?_of_none h]
    | some e =>
      obtain ⟨ds, draining⟩ := e
      cases draining with
      | true => simp [claim?_of_draining h rfl]
      | false =>
        obtain ⟨q', hq, -⟩ := claim?_of_idle h rfl
        simp [hq]
  | next =>
    simp only [answer, act]
    cases h : q.get? t with
    | none => simp [next, h]
    | some e =>
      obtain ⟨ds, draining⟩ := e
      cases ds <;> simp [next, h]
  | enqueue d => rfl
  | release | pending | isDraining =>
    simp only [answer, act, release, pending, isDraining]
    cases q.get? t <;> rfl

theorem get?_perform_ne (h : t ≠ o.thread) : (q.perform o).get? t = q.get? t := by
  obtain ⟨u, a⟩ := o
  cases a with
  | enqueue d => exact q.get?_enqueue_ne h d
  | claim =>
    simp only [perform]
    cases hc : q.claim? u with
    | none => rfl
    | some q' =>
      obtain ⟨_, -, -, -, hother⟩ := of_claim?_some hc
      exact hother t h
  | next =>
    simp only [perform]
    cases hn : q.next u with
    | mk d? q' =>
      cases d? with
      | some d =>
        obtain ⟨_, _, -, -, hother⟩ := of_next_some hn
        exact hother t h
      | none => exact (of_next_none hn).2.2 t h
  | release => exact q.get?_release_ne h
  | pending => rfl
  | isDraining => rfl

end

/-! ## Interleavings -/

theorem get?_performAll_of_others {t : ThreadId} {os : List (Operation α)}
    (h : ∀ o ∈ os, o.thread ≠ t) (q : Queues α) : (q.performAll os).get? t = q.get? t := by
  induction os generalizing q with
  | nil => rfl
  | cons o os ih =>
    refine (ih (fun o ho => h o (List.mem_cons_of_mem _ ho)) _).trans ?_
    exact q.get?_perform_ne o (Ne.symm (h o (List.mem_cons_self ..)))

/-- Queues with the same entry of `t` cannot be told apart by `t`, whatever others do in one of
them. -/
theorem performAll_own {t : ThreadId} : ∀ (os : List (Operation α)) {q q' : Queues α},
    q.get? t = q'.get? t →
      (q.performAll os).get? t = (q'.performAll (os.filter (·.thread = t))).get? t ∧
        q.answers t os = q'.answers t (os.filter (·.thread = t))
  | [], _, _, h => ⟨h, rfl⟩
  | o :: os, q, q', h => by
    by_cases ho : o.thread = t
    · subst ho
      have hnext : (q.perform o).get? o.thread = (q'.perform o).get? o.thread := by
        rw [get?_perform_self, get?_perform_self, h]
      have hanswer : q.answer o = q'.answer o := by rw [answer_eq, answer_eq, h]
      obtain ⟨hentry, hanswers⟩ := performAll_own os hnext
      rw [List.filter_cons_of_pos (by simp), answers, answers, hanswer, hanswers]
      exact ⟨hentry, rfl⟩
    · obtain ⟨hentry, hanswers⟩ :=
        performAll_own os ((q.get?_perform_ne o (Ne.symm ho)).trans h)
      rw [List.filter_cons_of_neg (by simpa using ho), answers, if_neg ho]
      exact ⟨hentry, hanswers⟩

end Queues

/-! ## The operations of a machine -/

namespace World

variable {w : World σ ε α}

theorem queues_setQueues {b : BusId} (hb : w.mode b = .queued) (q : Queues α) (c : BusId) :
    ((w.setQueues b q).bus c).queues = if c = b then q else (w.bus c).queues := by
  rw [setQueues, bus_modifyBus]
  by_cases hc : c = b
  · rw [if_pos ⟨hc, lt_length_of_queued hb⟩, if_pos hc]
  · rw [if_neg fun h => hc h.1, if_neg hc]

end World

namespace Machine

/-- How a post to a queued bus files its deliveries, if it has any. -/
def filed (t : ThreadId) : List (Delivery α) → List (Queues.Operation α)
  | [] => []
  | ds => ds.map (⟨t, .enqueue ·⟩) ++ [⟨t, .claim⟩]

/-- The operations on the queues of `b` in the next step. -/
def operations (b : BusId) (m : Machine σ ε α) : List (Queues.Operation α) :=
  match m.control, m.stack with
  | .run (.post c e _), _ =>
    if c = b ∧ m.world.mode b = .queued then filed m.world.thread (m.world.finds b e) else []
  | .run (.enqueue c d _), _ =>
    if c = b ∧ m.world.mode b = .queued then [⟨m.world.thread, .enqueue d⟩] else []
  | .run (.drain c _), _ =>
    if c = b ∧ m.world.mode b = .queued then [⟨m.world.thread, .claim⟩] else []
  | .returned _, .draining c owner :: _ => if c = b then [⟨owner, .next⟩] else []
  | .unwinding _, .draining c owner :: _ => if c = b then [⟨owner, .release⟩] else []
  | _, _ => []

section

variable {w : World σ ε α} {k : List (Frame σ ε α)} (b : BusId)

theorem queues_drain (c : BusId) (hc : w.mode c = .queued) (next : Program σ ε α) :
    ((drain w c next k).world.bus b).queues =
      if b = c then (w.bus c).queues.perform ⟨w.thread, .claim⟩ else (w.bus b).queues := by
  simp only [drain, Queues.perform]
  split
  · rename_i q hq
    exact (World.queues_setQueues hc q b).trans (by rw [hq]; rfl)
  · rename_i hq
    rw [hq]
    split
    · rename_i hb
      rw [hb]
      rfl
    · rfl

theorem queues_enqueueAll (c : BusId) (hc : w.mode c = .queued) (ds : List (Delivery α)) :
    ((w.enqueueAll c ds).bus b).queues =
      if b = c then (w.bus c).queues.performAll (ds.map (⟨w.thread, .enqueue ·⟩))
      else (w.bus b).queues := by
  rw [World.enqueueAll_eq, World.queues_setQueues hc, Queues.performAll, List.foldl_map]
  rfl

theorem queues_post (c : BusId) (e : Event α) (next : Program σ ε α) :
    ((request w k (.post c e next)).world.bus b).queues =
      (w.bus b).queues.performAll (operations b ⟨w, .run (.post c e next), k⟩) := by
  obtain ⟨w₁, hcalm, -, ⟨hr, -, hq⟩ | ⟨hr, -, hq⟩ | ⟨g, gs, hr, hp⟩⟩ := request_post w k c e next
  case' inl | inr.inl =>
    rw [hq]
    simp only [operations]
    split
    · rename_i hcb
      rw [← hcb.1, World.finds_eq_nil.mpr hr]
      exact hcalm.queues c
    · exact hcalm.queues b
  · cases hm : (w₁.bus c).config.mode with
    | immediate =>
      have hcb : ¬(c = b ∧ w.mode b = .queued) := by
        rintro ⟨rfl, hq⟩
        rw [← hcalm.mode, World.mode, hm] at hq
        cases hq
      simp only [request, hp, hm, operations, if_neg hcb]
      exact hcalm.queues b
    | queued =>
      have hq : (w₁.enqueueAll c ((g :: gs).map (⟨e, ·⟩))).mode c = .queued := by
        rw [World.enqueueAll_eq, World.mode_setQueues]
        exact hm
      simp only [request, hp, hm, operations]
      rw [queues_drain b c hq, queues_enqueueAll _ c hm, queues_enqueueAll _ c hm, if_pos rfl]
      by_cases hcb : c = b
      · subst hcb
        have hmode : w.mode c = .queued := hcalm.mode ▸ hm
        rw [if_pos rfl, if_pos ⟨rfl, hmode⟩, World.finds, hr, hcalm.queues]
        show _ = Queues.performAll _ (_ ++ _)
        rw [Queues.performAll_append, ← hcalm.thread]
        rfl
      · rw [if_neg (Ne.symm hcb), if_neg (Ne.symm hcb), if_neg fun h => hcb h.1]
        exact hcalm.queues b

theorem queues_request (p : Program σ ε α) :
    ((request w k p).world.bus b).queues =
      (w.bus b).queues.performAll (operations b ⟨w, .run p, k⟩) := by
  have not_queued : ∀ {c : BusId}, (w.bus c).config.mode = .immediate →
      ¬(c = b ∧ w.mode b = .queued) := by
    rintro c hm ⟨rfl, hq⟩
    rw [World.mode, hm] at hq
    cases hq
  cases p with
  | note e _ => exact (World.Calm.note w e).queues b
  | post c e next => exact queues_post b c e next
  | register c s next =>
    obtain ⟨w', o, hr, hcalm, -⟩ := request_register w k c s next
    rw [hr]
    exact hcalm.queues b
  | unregister c s next =>
    obtain ⟨w', o, hr, hcalm, -⟩ := request_unregister w k c s next
    rw [hr]
    exact hcalm.queues b
  | enqueue c d next =>
    simp only [request, operations]
    split
    · rename_i hm
      rw [if_neg (not_queued hm)]
      rfl
    · rename_i hm
      rw [queues_enqueueAll b c hm]
      by_cases hcb : c = b
      · subst hcb
        rw [if_pos rfl, if_pos ⟨rfl, hm⟩]
        rfl
      · rw [if_neg (Ne.symm hcb), if_neg fun h => hcb h.1]
        rfl
  | drain c next =>
    simp only [request, operations]
    split
    · rename_i hm
      rw [if_neg (not_queued hm)]
      rfl
    · rename_i hm
      rw [queues_drain b c hm]
      by_cases hcb : c = b
      · subst hcb
        rw [if_pos rfl, if_pos ⟨rfl, hm⟩]
        rfl
      · rw [if_neg (Ne.symm hcb), if_neg fun h => hcb h.1]
        rfl
  | forget c next =>
    refine (World.Calm.modifyBus w c _ ?_ ?_).queues b
    · split <;> rfl
    · split <;> rfl
  | _ => rfl

variable {mode : BusId → DispatchMode} (hw : w.mode = mode)
include hw

theorem queues_resume {f : Frame σ ε α} (h : EventBus.Seated mode w.thread (f :: k)) (x : Ending) :
    ((resume w x k f).world.bus b).queues =
      (w.bus b).queues.performAll (operations b ⟨w, .returned x, f :: k⟩) := by
  cases f with
  | handing c e bs => cases bs <;> rfl
  | draining c owner =>
    obtain ⟨-, ⟨-, hc, -⟩, -⟩ := h
    rw [← hw] at hc
    have hqueues : ((w.setQueues c ((w.bus c).queues.next owner).2).bus b).queues =
        (w.bus b).queues.performAll (if c = b then [⟨owner, .next⟩] else []) := by
      rw [World.queues_setQueues hc]
      by_cases hcb : c = b
      · subst hcb
        rw [if_pos rfl, if_pos rfl]
        rfl
      · rw [if_neg (Ne.symm hcb), if_neg hcb]
        rfl
    simp only [resume, operations]
    split
    all_goals
      rename_i hn
      rwa [hn] at hqueues
  | _ => rfl

theorem queues_unwind {f : Frame σ ε α} (h : EventBus.Seated mode w.thread (f :: k)) (p : Panic) :
    ((unwind w p k f).world.bus b).queues =
      (w.bus b).queues.performAll (operations b ⟨w, .unwinding p, f :: k⟩) := by
  cases f with
  | draining c owner =>
    obtain ⟨-, ⟨-, hc, -⟩, -⟩ := h
    rw [← hw] at hc
    have hqueues : ((w.abandon c owner).bus b).queues =
        ((w.setQueues c ((w.bus c).queues.release owner).2).bus b).queues := by
      simp only [World.abandon]
      split <;> rfl
    simp only [unwind, operations]
    rw [hqueues, World.queues_setQueues hc]
    by_cases hcb : c = b
    · subst hcb
      rw [if_pos rfl, if_pos rfl]
      rfl
    · rw [if_neg (Ne.symm hcb), if_neg hcb]
      rfl
  | _ => rfl

end

/-- A step does to the queues of a bus what its operations do. -/
theorem queues_step (code : Behaviour σ ε α) {mode : BusId → DispatchMode} {m : Machine σ ε α}
    (hm : m.Seated mode) (b : BusId) :
    ((m.step code).world.bus b).queues = (m.world.bus b).queues.performAll (m.operations b) := by
  obtain ⟨w, c, k⟩ := m
  cases c with
  | run p => exact queues_request b p
  | call c =>
    simp only [step, enter]
    split <;> rfl
  | settle c o =>
    obtain ⟨d, use⟩ := c
    cases use with
    | direct next => rfl
    | delivery b => cases o <;> rfl
  | report c d e =>
    simp only [step, report]
    split
    · rfl
    · exact (World.Calm.keep w c d e).queues b
  | returned x =>
    cases k with
    | nil => rfl
    | cons f k => exact queues_resume b hm.modes hm.stack x
  | unwinding p =>
    cases k with
    | nil => rfl
    | cons f k => exact queues_unwind b hm.modes hm.stack p

theorem filed_thread {t : ThreadId} {ds : List (Delivery α)} : ∀ o ∈ filed t ds, o.thread = t := by
  cases ds with
  | nil => exact fun _ h => nomatch h
  | cons d ds =>
    intro o ho
    rcases List.mem_append.mp ho with ho | ho
    · obtain ⟨_, -, rfl⟩ := List.mem_map.mp ho
      rfl
    · rw [List.mem_singleton.mp ho]

/-- All operations of a step are the work of the thread that makes it. -/
theorem operations_thread {mode : BusId → DispatchMode} {m : Machine σ ε α} (hm : m.Seated mode)
    (b : BusId) : ∀ o ∈ m.operations b, o.thread = m.world.thread := by
  intro o ho
  unfold operations at ho
  split at ho
  · split at ho
    · exact filed_thread o ho
    · cases ho
  · split at ho
    · rw [List.mem_singleton.mp ho]
    · cases ho
  · split at ho
    · rw [List.mem_singleton.mp ho]
    · cases ho
  · rename_i hk
    have howner := (hk ▸ hm.stack : EventBus.Seated _ _ (.draining _ _ :: _)).2.1.1
    split at ho
    · rw [List.mem_singleton.mp ho]
      exact howner
    · cases ho
  · rename_i hk
    have howner := (hk ▸ hm.stack : EventBus.Seated _ _ (.draining _ _ :: _)).2.1.1
    split at ho
    · rw [List.mem_singleton.mp ho]
      exact howner
    · cases ho
  · cases ho

end Machine

/-! ## The operations of a crew -/

namespace Crew

section

variable {c : Crew σ ε α} {mode : BusId → DispatchMode} (h : c.Seated mode) (code : Behaviour σ ε α)
include h

theorem queues_step (pick : Pick σ ε α) (b : BusId) :
    ((c.step code pick).world.bus b).queues =
      (c.world.bus b).queues.performAll (c.seen pick (·.operations b)) := by
  cases pick with
  | start p => rfl
  | work i =>
    simp only [Crew.step, seen, picked?]
    cases hs : c.strands[i]? with
    | none => rfl
    | some s => exact Machine.queues_step code (h.strands s (List.mem_of_getElem? hs)) b

variable (picks : Nat → Pick σ ε α) (b : BusId) {j n : Nat}

/-- What becomes of the queues of a bus is what the operations between make of them. -/
theorem queues_after (hjn : j ≤ n) :
    ((c.after code picks n).world.bus b).queues = ((c.after code picks j).world.bus b).queues.performAll
      (during (fun m => (c.after code picks m).seen (picks m) (·.operations b)) j n) := by
  induction n, hjn using Nat.le_induction with
  | base =>
    rw [during_self]
    rfl
  | succ n hjn ih =>
    rw [during_succ _ hjn, Queues.performAll_append, ← ih, after]
    exact queues_step (h.after code picks n) code (picks n) b

/-- The entry of a thread is what the thread's own operations make of it. -/
theorem entry_after (hjn : j ≤ n) (t : ThreadId) :
    (c.after code picks n).world.entry b t =
      (((c.after code picks j).world.bus b).queues.performAll
        ((during (fun m => (c.after code picks m).seen (picks m) (·.operations b)) j n).filter
          (·.thread = t))).get? t := by
  rw [World.entry, queues_after h code picks b hjn]
  exact (Queues.performAll_own _ rfl).1

theorem entry_step_of_others (n : Nat) {t : ThreadId}
    (hn : ∀ s, (c.after code picks n).picked? (picks n) = some s → s.thread ≠ t) :
    (c.after code picks (n + 1)).world.entry b t = (c.after code picks n).world.entry b t := by
  rw [World.entry, after, queues_step (h.after code picks n)]
  refine Queues.get?_performAll_of_others (fun o ho => ?_) _
  unfold seen at ho
  split at ho
  · rename_i s hs
    have hmem : s ∈ (c.after code picks n).strands := by
      cases hp : picks n with
      | start p => rw [hp] at hs; cases hs
      | work i => rw [hp] at hs; exact List.mem_of_getElem? hs
    rw [Machine.operations_thread ((h.after code picks n).strands s hmem) b o ho]
    exact hn s hs
  · cases ho

theorem entry_of_others (hjn : j ≤ n) {t : ThreadId}
    (hn : ∀ m, j ≤ m → m < n → ∀ s, (c.after code picks m).picked? (picks m) = some s → s.thread ≠ t) :
    (c.after code picks n).world.entry b t = (c.after code picks j).world.entry b t := by
  induction n, hjn using Nat.le_induction with
  | base => rfl
  | succ n hjn ih =>
    rw [entry_step_of_others h code picks b n (hn n hjn (Nat.lt_succ_self n))]
    exact ih fun m hjm hmn => hn m hjm (Nat.lt_succ_of_lt hmn)

end

end Crew
end EventBus
