import EventBus.Handler
import EventBus.Table

/-!
# Delivery queues

A queued bus keeps one queue per posting thread. A thread's first drain owns its queue until the
queue is empty; a drain inside it does nothing. Each operation touches the calling thread's entry
alone.
-/

namespace EventBus

abbrev ThreadId := Nat

structure Delivery (α : Type) where
  event : Event α
  binding : Binding

structure ThreadQueue (α : Type) where
  pending : List (Delivery α)
  draining : Bool

structure Queues (α : Type) where
  threads : Table ThreadId (ThreadQueue α)

namespace Queues

variable {α : Type}

def empty : Queues α := ⟨.empty⟩

instance : Inhabited (Queues α) := ⟨empty⟩

def get? (q : Queues α) (t : ThreadId) : Option (ThreadQueue α) := q.threads.get? t

def pending (q : Queues α) (t : ThreadId) : Nat :=
  match q.get? t with
  | some e => e.pending.length
  | none => 0

def isDraining (q : Queues α) (t : ThreadId) : Bool :=
  match q.get? t with
  | some e => e.draining
  | none => false

/-- Appends a delivery to the queue of `t`, which is made if there is none. -/
def enqueue (q : Queues α) (t : ThreadId) (d : Delivery α) : Queues α :=
  match q.get? t with
  | some e => ⟨q.threads.set t ⟨e.pending ++ [d], e.draining⟩⟩
  | none => ⟨q.threads.set t ⟨[d], false⟩⟩

def enqueueAll (q : Queues α) (t : ThreadId) (ds : List (Delivery α)) : Queues α :=
  ds.foldl (·.enqueue t ·) q

/-- Takes ownership of the queue of `t`, if there is one that nobody owns. -/
def claim? (q : Queues α) (t : ThreadId) : Option (Queues α) :=
  match q.get? t with
  | some e => if e.draining then none else some ⟨q.threads.set t ⟨e.pending, true⟩⟩
  | none => none

/-- Takes the first delivery of `t`; an empty queue is dropped. -/
def next (q : Queues α) (t : ThreadId) : Option (Delivery α) × Queues α :=
  match q.get? t with
  | some ⟨d :: ds, draining⟩ => (some d, ⟨q.threads.set t ⟨ds, draining⟩⟩)
  | _ => (none, ⟨q.threads.erase t⟩)

/-- Drops the queue of `t`, and tells how many deliveries went with it. -/
def release (q : Queues α) (t : ThreadId) : Nat × Queues α :=
  (q.pending t, ⟨q.threads.erase t⟩)

def size (q : Queues α) : Nat := q.threads.size

def total (q : Queues α) : Nat := (q.threads.values.flatMap (·.pending)).length

def debug (q : Queues α) : String :=
  Text.record "QueuedDispatch" [("threads", toString q.size), ("pending", toString q.total)]

theorem get?_enqueue_self (q : Queues α) (t : ThreadId) (d : Delivery α) :
    (q.enqueue t d).get? t =
      some (((q.get? t).map fun e => ⟨e.pending ++ [d], e.draining⟩).getD ⟨[d], false⟩) := by
  unfold enqueue
  cases h : q.get? t <;> simp [get?]

theorem get?_enqueue_ne (q : Queues α) {t u : ThreadId} (h : u ≠ t) (d : Delivery α) :
    (q.enqueue t d).get? u = q.get? u := by
  unfold enqueue
  cases q.get? t <;> simp [get?, Table.get?_set_ne _ h]

theorem get?_enqueueAll_ne {t u : ThreadId} (h : u ≠ t) : ∀ (q : Queues α) (ds : List (Delivery α)),
    (q.enqueueAll t ds).get? u = q.get? u
  | _, [] => rfl
  | q, d :: ds => by
    rw [enqueueAll, List.foldl_cons, ← enqueueAll, get?_enqueueAll_ne h, get?_enqueue_ne q h]

theorem get?_enqueueAll_of_some {t : ThreadId} : ∀ {q : Queues α} {e : ThreadQueue α}
    (ds : List (Delivery α)), q.get? t = some e →
      (q.enqueueAll t ds).get? t = some ⟨e.pending ++ ds, e.draining⟩
  | _, e, [], h => by simpa [enqueueAll] using h
  | q, e, d :: ds, h => by
    have hd : (q.enqueue t d).get? t = some ⟨e.pending ++ [d], e.draining⟩ := by
      rw [get?_enqueue_self, h]
      rfl
    rw [enqueueAll, List.foldl_cons, ← enqueueAll, get?_enqueueAll_of_some ds hd,
      List.append_assoc]
    rfl

theorem get?_enqueueAll_of_none {t : ThreadId} {q : Queues α} (h : q.get? t = none)
    (d : Delivery α) (ds : List (Delivery α)) :
    (q.enqueueAll t (d :: ds)).get? t = some ⟨d :: ds, false⟩ := by
  have hd : (q.enqueue t d).get? t = some ⟨[d], false⟩ := by
    rw [get?_enqueue_self, h]
    rfl
  rw [enqueueAll, List.foldl_cons, ← enqueueAll, get?_enqueueAll_of_some ds hd]
  rfl

/-- What an entry becomes when `ds` are appended. -/
def grown : Option (ThreadQueue α) → List (Delivery α) → ThreadQueue α
  | none, ds => ⟨ds, false⟩
  | some e, ds => ⟨e.pending ++ ds, e.draining⟩

theorem get?_enqueueAll_self (q : Queues α) (t : ThreadId) {ds : List (Delivery α)} (h : ds ≠ []) :
    (q.enqueueAll t ds).get? t = some (grown (q.get? t) ds) := by
  cases hq : q.get? t with
  | some e => exact get?_enqueueAll_of_some ds hq
  | none =>
    cases ds with
    | nil => exact absurd rfl h
    | cons d ds => exact get?_enqueueAll_of_none hq d ds

theorem claim?_of_draining {q : Queues α} {t : ThreadId} {e : ThreadQueue α}
    (h : q.get? t = some e) (hd : e.draining = true) : q.claim? t = none := by
  simp [claim?, h, hd]

theorem claim?_of_none {q : Queues α} {t : ThreadId} (h : q.get? t = none) : q.claim? t = none := by
  simp [claim?, h]

theorem claim?_of_idle {q : Queues α} {t : ThreadId} {e : ThreadQueue α} (h : q.get? t = some e)
    (hd : e.draining = false) :
    ∃ q', q.claim? t = some q' ∧ q'.get? t = some ⟨e.pending, true⟩ ∧
      ∀ u, u ≠ t → q'.get? u = q.get? u := by
  refine ⟨⟨q.threads.set t ⟨e.pending, true⟩⟩, by simp [claim?, h, hd], ?_, fun u hu => ?_⟩
  · simp [get?]
  · simp [get?, Table.get?_set_ne _ hu]

theorem of_claim?_some {q q' : Queues α} {t : ThreadId} (h : q.claim? t = some q') :
    ∃ e, q.get? t = some e ∧ e.draining = false ∧ q'.get? t = some ⟨e.pending, true⟩ ∧
      ∀ u, u ≠ t → q'.get? u = q.get? u := by
  cases he : q.get? t with
  | none => rw [claim?_of_none he] at h; cases h
  | some e =>
    cases hd : e.draining with
    | true => rw [claim?_of_draining he hd] at h; cases h
    | false =>
      obtain ⟨q'', hq, hr⟩ := claim?_of_idle he hd
      rw [h] at hq
      cases hq
      exact ⟨e, rfl, hd, hr⟩

theorem next_of_cons {q : Queues α} {t : ThreadId} {d : Delivery α} {ds : List (Delivery α)}
    {draining : Bool} (h : q.get? t = some ⟨d :: ds, draining⟩) :
    ∃ q', q.next t = (some d, q') ∧ q'.get? t = some ⟨ds, draining⟩ ∧
      ∀ u, u ≠ t → q'.get? u = q.get? u := by
  refine ⟨⟨q.threads.set t ⟨ds, draining⟩⟩, by rw [next, h], ?_, fun u hu => ?_⟩
  · simp [get?]
  · simp [get?, Table.get?_set_ne _ hu]

theorem next_of_nil {q : Queues α} {t : ThreadId} {draining : Bool}
    (h : q.get? t = some ⟨[], draining⟩) :
    ∃ q', q.next t = (none, q') ∧ q'.get? t = none ∧ ∀ u, u ≠ t → q'.get? u = q.get? u := by
  refine ⟨⟨q.threads.erase t⟩, by rw [next, h], ?_, fun u hu => ?_⟩
  · simp [get?]
  · simp [get?, Table.get?_erase_ne _ hu]

theorem of_next_some {q q' : Queues α} {t : ThreadId} {d : Delivery α} (h : q.next t = (some d, q')) :
    ∃ ds draining, q.get? t = some ⟨d :: ds, draining⟩ ∧ q'.get? t = some ⟨ds, draining⟩ ∧
      ∀ u, u ≠ t → q'.get? u = q.get? u := by
  unfold next at h
  split at h
  · rename_i c ds draining he
    cases h
    obtain ⟨q'', hq, hr⟩ := next_of_cons he
    rw [next, he] at hq
    cases hq
    exact ⟨ds, draining, he, hr⟩
  · cases h

theorem of_next_none {q q' : Queues α} {t : ThreadId} (h : q.next t = (none, q')) :
    (∀ e, q.get? t = some e → e.pending = []) ∧ q'.get? t = none ∧
      ∀ u, u ≠ t → q'.get? u = q.get? u := by
  unfold next at h
  split at h
  · cases h
  · rename_i hne
    cases h
    refine ⟨fun e he => ?_, Table.get?_erase_self _ _, fun u hu => Table.get?_erase_ne _ hu⟩
    obtain ⟨pending, draining⟩ := e
    cases pending with
    | nil => rfl
    | cons d ds => exact absurd he (hne d ds draining)

theorem get?_release_self (q : Queues α) (t : ThreadId) : (q.release t).2.get? t = none := by
  simp [release, get?]

theorem get?_release_ne (q : Queues α) {t u : ThreadId} (h : u ≠ t) :
    (q.release t).2.get? u = q.get? u := by
  simp [release, get?, Table.get?_erase_ne _ h]

end Queues
end EventBus
