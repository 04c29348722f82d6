import EventBus.Proofs.Snapshots

/-!
# When a thread has a queue

On a queued bus the entry of a thread is made by the first delivery that is put there and goes when the
drain of the thread ends. So a thread has an entry just while something waits for it or it drains, and
one without drain is not empty; all that shows of it is whether a drain lies on the thread's stack.
-/

namespace EventBus

variable {σ ε α : Type}

/-! ## Drains on a stack -/

/-- The frame is a drain of the queue of `t` on `b`. -/
def Frame.isDrain (b : BusId) (t : ThreadId) : Frame σ ε α → Bool
  | .draining c owner => c = b ∧ owner = t
  | _ => false

theorem Frame.isDrain_iff {b : BusId} {t : ThreadId} {f : Frame σ ε α} :
    f.isDrain b t = true ↔ f = .draining b t := by
  cases f <;> simp [isDrain]

theorem drains_eq_countP {mode : BusId → DispatchMode} {b : BusId} {t : ThreadId} :
    ∀ {k : List (Frame σ ε α)} {u : ThreadId}, Seated mode u k →
      drains b t u k = k.countP (·.isDrain b t)
  | [], u, _ => rfl
  | f :: k, u, ⟨_, hfits, hk⟩ => by
    have hf : (if u = t then f.drains b else 0) = if f.isDrain b t then 1 else 0 := by
      cases f with
      | draining c owner =>
        obtain ⟨rfl, -⟩ := hfits
        by_cases hu : owner = t
        · simp [Frame.drains, Frame.isDrain, hu]
        · simp [Frame.isDrain, hu]
      | _ => simp [Frame.drains, Frame.isDrain]
    rw [drains, hf, drains_eq_countP hk, List.countP_cons, Nat.add_comm]

theorem countP_isDrain_pos_iff {b : BusId} {t : ThreadId} {k : List (Frame σ ε α)} :
    0 < k.countP (·.isDrain b t) ↔ .draining b t ∈ k := by
  rw [List.countP_pos_iff]
  constructor
  · intro h
    obtain ⟨f, hf, hdrain⟩ := h
    rw [← Frame.isDrain_iff.mp hdrain]
    exact hf
  · intro h
    exact ⟨_, h, Frame.isDrain_iff.mpr rfl⟩

theorem mem_threads_of_drain {mode : BusId → DispatchMode} {b : BusId} {t u : ThreadId}
    {k : List (Frame σ ε α)} (h : Seated mode u k) (hd : .draining b t ∈ k) : t ∈ threadsOf u k := by
  by_contra hnot
  exact drains_ne_zero h hd (drains_of_not_mem hnot)

theorem totalDrains_eq_countP {mode : BusId → DispatchMode} {b : BusId} {t : ThreadId} :
    ∀ {ss : List (Strand σ ε α)}, (∀ s ∈ ss, Seated mode s.thread s.stack) →
      totalDrains b t ss = (ss.flatMap (·.stack)).countP (·.isDrain b t)
  | [], _ => rfl
  | s :: ss, h => by
    obtain ⟨hs, hss⟩ := List.forall_mem_cons.mp h
    rw [totalDrains, totalDrains_eq_countP hss, Strand.drains, drains_eq_countP hs, List.flatMap_cons,
      List.countP_append]

/-! ## What waits without a drain -/

/-- An entry that is not drained is not empty. -/
def Share.Filled (s : Share α) : Prop :=
  ∀ q, s.entry = some q → q.draining = false → q.pending ≠ []

theorem Queues.pending_grown {e : Option (ThreadQueue α)} {ds : List (Delivery α)} (hds : ds ≠ []) :
    (grown e ds).pending ≠ [] := by
  cases e with
  | none => exact hds
  | some q => simp [grown, hds]

theorem Share.Move.filled {ds ts xs : List (Delivery α)} {s s' : Share α} (h : Move ds ts xs s s')
    (hs : s.Filled) (hd : s.drains ≠ 0 → ∀ q, s.entry = some q → q.draining = true) : s'.Filled := by
  intro q hq hidle
  cases h with
  | stay _ => exact hs q hq hidle
  | leave _ _ _ _ => exact hs q hq hidle
  | append e k a hds =>
    cases hq
    exact Queues.pending_grown hds
  | claim _ _ _ =>
    cases hq
    cases hidle
  | take d ds r _ =>
    -- What is taken is taken by a drain.
    cases hq
    have hdraining := hd (Nat.succ_ne_zero _) _ rfl
    rw [hdraining] at hidle
    cases hidle
  | finish _ _ => cases hq
  | abandon _ _ => cases hq

namespace Crew

variable {c : Crew σ ε α} (h : c.Fresh) (code : Behaviour σ ε α) (picks : Nat → Pick σ ε α)
  {b : BusId} (hb : c.world.mode b = .queued) (t : ThreadId)
include h hb

theorem Fresh.queued_after (n : Nat) : (c.after code picks n).world.mode b = .queued :=
  (congrFun (h.seated.after code picks n).modes b).trans hb

theorem Fresh.filled (n : Nat) : ((c.after code picks n).share b t).Filled := by
  induction n with
  | zero =>
    rw [after, h.share]
    intro q hq
    cases hq
  | succ n ih =>
    have hshare := share_lane h code picks t hb n
    rw [after]
    cases hp : picks n with
    | start p => exact ih
    | work j =>
      simp only [Crew.step]
      cases hs : (c.after code picks n).strands[j]? with
      | none => exact ih
      | some s =>
        have hmem := List.mem_of_getElem? hs
        have hmove := Machine.move code ((h.seated.after code picks n).strands s hmem) hb t
        refine hmove.filled ih ?_
        intro hdrains q hq
        have hsome : s.drains b t ≠ 0 := hdrains
        have hentry : ((c.after code picks n).share b t).entry = some q := hq
        have htotal : ((c.after code picks n).share b t).drains ≠ 0 :=
          mt (fun hzero => totalDrains_eq_zero.mp hzero s hmem) hsome
        rw [← hshare] at hentry htotal
        cases hl : (c.after code picks n).lane b t with
        | empty => rw [hl] at hentry; cases hentry
        | waiting ds => rw [hl] at htotal; exact absurd rfl htotal
        | busy ds d? => rw [hl] at hentry; cases hentry; rfl

theorem Fresh.waiting_ne_nil {n : Nat} {ds : List (Delivery α)}
    (hl : (c.after code picks n).lane b t = .waiting ds) : ds ≠ [] := by
  have hshare := share_lane h code picks t hb n
  rw [hl] at hshare
  have hentry : ((c.after code picks n).share b t).entry = some ⟨ds, false⟩ := by rw [← hshare]; rfl
  exact h.filled code picks hb t n _ hentry rfl

/-- The lanes that show a drain are those that a drain on a stack is of. -/
theorem countP_isDrain (n : Nat) :
    ((c.after code picks n).strands.flatMap (·.stack)).countP (·.isDrain b t) =
      ((c.after code picks n).lane b t).share.drains := by
  rw [share_lane h code picks t hb n, share, totalDrains_eq_countP]
  intro s hs
  exact ((h.seated.after code picks n).strands s hs).stack

theorem exists_drain_iff (n : Nat) :
    (∃ s ∈ (c.after code picks n).strands, t ∈ s.threads ∧ .draining b t ∈ s.stack) ↔
      ((c.after code picks n).lane b t).share.drains ≠ 0 := by
  rw [← countP_isDrain h code picks hb t n, ← Nat.pos_iff_ne_zero, countP_isDrain_pos_iff,
    List.mem_flatMap]
  constructor
  · intro hex
    obtain ⟨s, hs, -, hmem⟩ := hex
    exact ⟨s, hs, hmem⟩
  · intro hex
    obtain ⟨s, hs, hmem⟩ := hex
    have hstack := ((h.seated.after code picks n).strands s hs).stack
    exact ⟨s, hs, mem_threads_of_drain hstack hmem, hmem⟩

theorem entry_eq_lane (n : Nat) : ((c.after code picks n).world.bus b).queues.get? t =
    ((c.after code picks n).lane b t).share.entry := by
  rw [share_lane h code picks t hb n]
  rfl

/-- A thread has an entry iff something waits or it drains; a drain shows iff it is on a stack, and
there is one at most. -/
theorem entry_iff (n : Nat) :
    let queues := ((c.after code picks n).world.bus b).queues
    let draining := ∃ s ∈ (c.after code picks n).strands, t ∈ s.threads ∧ .draining b t ∈ s.stack
    (queues.get? t ≠ none ↔ 0 < queues.pending t ∨ draining) ∧
      (queues.isDraining t = true ↔ draining) ∧
      ((c.after code picks n).strands.flatMap (·.stack)).countP (·.isDrain b t) ≤ 1 := by
  intro queues draining
  have hentry := entry_eq_lane h code picks hb t n
  have hdraining := exists_drain_iff h code picks hb t n
  have hcount := countP_isDrain h code picks hb t n
  simp only [queues, draining, Queues.pending, Queues.isDraining]
  rw [hdraining, hcount, hentry]
  cases hl : (c.after code picks n).lane b t with
  | empty => simp [Lane.share]
  | waiting ds =>
    have hds := List.length_pos_iff.mpr (h.waiting_ne_nil code picks hb t hl)
    simp [Lane.share, hds]
  | busy ds d? => simp [Lane.share]

theorem isDraining_of_mem {i n : Nat} {s : Strand σ ε α}
    (hs : (c.after code picks n).strands[i]? = some s) (hd : .draining b t ∈ s.stack) :
    ((c.after code picks n).world.bus b).queues.isDraining t = true := by
  have hmem := List.mem_of_getElem? hs
  have hstack := ((h.seated.after code picks n).strands s hmem).stack
  exact (entry_iff h code picks hb t n).2.1.mpr ⟨s, hmem, mem_threads_of_drain hstack hd, hd⟩

/-- A drain of a thread that has no entry, or has a drain on the stack, just goes on. -/
theorem drain_passes {i n : Nat} {next : Program σ ε α} {k : List (Frame σ ε α)}
    (hp : picks n = .work i)
    (hs : (c.after code picks n).strands[i]? = some ⟨t, .run (.drain b next), k⟩)
    (hpass : (c.after code picks n).world.entry b t = none ∨ .draining b t ∈ k) :
    c.after code picks (n + 1) = ⟨{ (c.after code picks n).world with thread := t },
      (c.after code picks n).strands.set i ⟨t, .run next, k⟩⟩ := by
  have hmode : (((c.after code picks n).world.bus b).config).mode = .queued :=
    h.queued_after code picks hb n
  have hclaim : ((c.after code picks n).world.bus b).queues.claim? t = none := by
    rcases hpass with hnone | hmem
    · exact Queues.claim?_of_none hnone
    · have hdraining := isDraining_of_mem h code picks hb t hs hmem
      unfold Queues.isDraining at hdraining
      split at hdraining
      · rename_i q hq
        exact Queues.claim?_of_draining hq hdraining
      · cases hdraining
  have hstep : ((c.after code picks n).machine ⟨t, .run (.drain b next), k⟩).step code =
      ⟨{ (c.after code picks n).world with thread := t }, .run next, k⟩ := by
    have hsame : ({ (c.after code picks n).world with thread := t } : World σ ε α).bus b =
        (c.after code picks n).world.bus b := rfl
    show Machine.request { (c.after code picks n).world with thread := t } k (.drain b next) = _
    simp only [Machine.request, hsame, hmode, Machine.drain, hclaim]
  rw [after, hp]
  simp only [Crew.step, hs, hstep]

end Crew
end EventBus
