import EventBus.Proofs.Returns

/-!
# Lanes and their owners

A thread is of one strand at most, so a lane changes by the steps of one strand alone. Where code
reaches a bus only by posts, nothing waits there without a drain.
-/

namespace EventBus

variable {σ ε α : Type}

/-! ## What waits is drained -/

/-- Whatever waits on `b` waits for a drain that is under way. -/
def World.Claimed (w : World σ ε α) (b : BusId) : Prop :=
  ∀ t q, w.entry b t = some q → q.draining = true

theorem Share.Move.claimed {ts xs : List (Delivery α)} {s s' : Share α}
    (h : Share.Move [] ts xs s s') (hs : ∀ q, s.entry = some q → q.draining = true) :
    ∀ q, s'.entry = some q → q.draining = true := by
  cases h with
  | stay _ | leave _ _ _ _ => exact hs
  | append _ _ _ hne => exact absurd rfl hne
  | claim _ _ _ =>
    rintro _ ⟨⟩
    rfl
  | take d ds r _ =>
    rintro _ ⟨⟩
    exact hs ⟨d :: ds, r⟩ rfl
  | finish _ _ | abandon _ _ => exact fun q hq => nomatch hq

namespace Machine

theorem claimed_drain {w : World σ ε α} {b : BusId} (hb : w.mode b = .queued)
    (hw : ∀ u, u ≠ w.thread → ∀ q, w.entry b u = some q → q.draining = true)
    (next : Program σ ε α) (k : List (Frame σ ε α)) : (drain w b next k).world.Claimed b := by
  intro t q hq
  unfold drain at hq
  split at hq
  · rename_i queues hclaim
    obtain ⟨p, -, -, hself, hother⟩ := Queues.of_claim?_some hclaim
    replace hq : (w.setQueues b queues).entry b t = some q := hq
    rw [World.entry_setQueues hb, if_pos rfl] at hq
    by_cases ht : t = w.thread
    · subst ht
      rw [hself] at hq
      cases hq
      rfl
    · rw [hother t ht] at hq
      exact hw t ht q hq
  · rename_i hclaim
    by_cases ht : t = w.thread
    · subst ht
      cases hd : q.draining with
      | true => rfl
      | false =>
        obtain ⟨_, h, -⟩ := Queues.claim?_of_idle hq hd
        rw [hclaim] at h
        cases h
    · exact hw t ht q hq

/-- A post drains what it appends, if nobody drains it yet. -/
theorem claimed_post {w : World σ ε α} {b : BusId} (hb : w.mode b = .queued) (h : w.Claimed b)
    (e : Event α) (next : Program σ ε α) (k : List (Frame σ ε α)) :
    (request w k (.post b e next)).world.Claimed b := by
  obtain ⟨w₁, hc, -, hpost⟩ := request_post w k b e next
  have h₁ : w₁.Claimed b := fun t q hq => h t q (hc.entry b t ▸ hq)
  rcases hpost with ⟨-, -, hr⟩ | ⟨-, -, hr⟩ | ⟨g, gs, -, hp⟩
  · rw [hr]
    exact h₁
  · rw [hr]
    exact h₁
  · have hm : w₁.mode b = .queued := hc.mode ▸ hb
    simp only [request, hp]
    rw [show (w₁.bus b).config.mode = .queued from hm, World.enqueueAll_eq]
    refine claimed_drain ((congrFun (World.mode_setQueues w₁ b _) b).trans hm) (fun u hu q hq => ?_)
      next k
    rw [World.entry_setQueues hm, if_pos rfl,
      Queues.get?_enqueueAll_ne (show u ≠ w₁.thread from hu)] at hq
    exact h₁ u q hq

theorem claimed_step (code : Behaviour σ ε α) {mode : BusId → DispatchMode} {m : Machine σ ε α}
    (hm : m.Seated mode) {b : BusId} (hb : mode b = .queued) (he : m.enqueues b = [])
    (h : m.world.Claimed b) : (m.step code).world.Claimed b := by
  by_cases hpost : ∃ e next, m.control = .run (.post b e next)
  · obtain ⟨e, next, hc⟩ := hpost
    obtain ⟨w, c, k⟩ := m
    subst hc
    exact claimed_post (hm.modes ▸ hb) h e next k
  · -- Nothing is appended, and no other move of a lane takes a claim back.
    intro t
    have happ : m.appends b t = [] := by
      unfold appends
      split
      · rename_i c e next hc
        rw [if_neg]
        rintro ⟨rfl, -⟩
        exact hpost ⟨e, next, hc⟩
      · rename_i c d next hc
        rw [if_neg]
        rintro ⟨rfl, -⟩
        simp [enqueues, Control.enqueues, hc] at he
      · rfl
    have hmove := move code hm hb t
    rw [happ] at hmove
    exact hmove.claimed (h t)

end Machine

/-! ## Threads of a strand -/

namespace Machine

variable {mode : BusId → DispatchMode} {m : Machine σ ε α} {b : BusId} {t : ThreadId}

theorem takes_eq (hm : m.Seated mode) (b : BusId) (t : ThreadId) :
    m.takes b t = if m.world.thread = t then m.taken b else [] := by
  obtain ⟨w, c, k⟩ := m
  cases c with
  | returned x =>
    cases k with
    | nil => exact (ite_self _).symm
    | cons f k =>
      cases f with
      | draining c owner =>
        obtain rfl : owner = w.thread := hm.stack.2.1.1
        by_cases ht : w.thread = t
        · subst ht
          by_cases hc : c = b
          · subst hc
            simp only [takes, taken, World.taken, and_self, if_true]
          · simp only [takes, taken, World.taken, hc, false_and, if_false, ite_self]
        · simp only [takes, ht, and_false, if_false]
      | _ => exact (ite_self _).symm
  | _ => exact (ite_self _).symm

theorem takes_of_not_mem (hm : m.Seated mode) (h : t ∉ m.threads) : m.takes b t = [] := by
  rw [takes_eq hm, if_neg]
  exact fun ht => h (ht ▸ List.mem_cons_self ..)

/-- What code appends to the queue of its thread, it posts. -/
theorem appends_eq (he : m.enqueues b = []) (t : ThreadId) :
    m.appends b t = if m.world.thread = t then m.reached b else [] := by
  obtain ⟨w, c, k⟩ := m
  cases c with
  | run p =>
    cases p with
    | post c e next => by_cases hc : c = b <;> simp [appends, reached, World.reached, hc]
    | enqueue c d next =>
      have hc : c ≠ b := fun hc => by simp [enqueues, Control.enqueues, hc] at he
      simp [appends, reached, World.reached, hc]
    | _ => exact (ite_self _).symm
  | _ => exact (ite_self _).symm

theorem drops_of_not_mem (hm : m.Seated mode) (h : t ∉ m.threads) : m.drops b t = [] := by
  unfold drops
  split
  · rename_i c owner k _ hk
    have hs := hm.stack
    rw [hk] at hs
    refine if_neg fun hc => h ?_
    rw [← hc.2, hs.2.1.1]
    exact List.mem_cons_self ..
  · rfl

theorem drops_of_unbroken (w : World σ ε α) {s : Strand σ ε α} (hs : s.breaks = false) :
    Machine.drops b t ⟨{ w with thread := s.thread }, s.control, s.stack⟩ = [] := by
  obtain ⟨u, c, k⟩ := s
  cases c with
  | unwinding p =>
    cases k with
    | nil => rfl
    | cons f k =>
      cases f with
      | draining _ _ => cases hs
      | _ => rfl
  | _ => rfl

end Machine

namespace Crew

section

variable {c : Crew σ ε α} {code : Behaviour σ ε α} {picks : Nat → Pick σ ε α} {i j : Nat}
  {t : ThreadId}

theorem threads_step {pick : Pick σ ε α} {s' : Strand σ ε α}
    (hs' : (c.step code pick).strands[j]? = some s') (ht : t ∈ s'.threads) :
    t = c.world.nextThread ∨ ∃ s, c.strands[j]? = some s ∧ t ∈ s.threads := by
  cases pick with
  | start p =>
    simp only [Crew.step] at hs'
    rw [List.getElem?_append] at hs'
    split at hs'
    · exact .inr ⟨s', hs', ht⟩
    · obtain rfl := List.mem_singleton.mp (List.mem_of_getElem? hs')
      exact .inl (List.mem_singleton.mp ht)
  | work i =>
    simp only [Crew.step] at hs'
    cases hs : c.strands[i]? with
    | none =>
      rw [hs] at hs'
      exact .inr ⟨s', hs', ht⟩
    | some s =>
      rw [hs] at hs'
      by_cases hij : i = j
      · subst hij
        obtain ⟨fresh, hfresh, hsub⟩ := Machine.manned_step code (c.machine s)
        simp only [List.getElem?_set_self (List.getElem?_eq_some_iff.mp hs).1] at hs'
        cases hs'
        rcases List.mem_append.mp (hsub.subset ht) with ht | ht
        · rcases hfresh with ⟨rfl, -⟩ | ⟨rfl, -⟩
          · cases ht
          · exact .inl (List.mem_singleton.mp ht)
        · exact .inr ⟨s, hs, ht⟩
      · rw [List.getElem?_set_ne hij] at hs'
        exact .inr ⟨s', hs', ht⟩

theorem nextThread_step (c : Crew σ ε α) (code : Behaviour σ ε α) (pick : Pick σ ε α) :
    c.world.nextThread ≤ (c.step code pick).world.nextThread := by
  cases pick with
  | start p => exact Nat.le_succ _
  | work i =>
    simp only [Crew.step]
    split
    · rename_i s hs
      obtain ⟨fresh, ⟨-, hn⟩ | ⟨-, hn⟩, -⟩ := Machine.manned_step code (c.machine s)
      · exact Nat.le_of_eq hn.symm
      · rw [hn]
        exact Nat.le_succ _
    · exact Nat.le_refl _

/-- The thread `t` has been started, and not by another strand than `i`. -/
structure Owns (c : Crew σ ε α) (i : Nat) (t : ThreadId) : Prop where
  known : t < c.world.nextThread
  others : ∀ j s, j ≠ i → c.strands[j]? = some s → t ∉ s.threads

theorem Apart.owns (h : c.Apart) {s : Strand σ ε α} (hs : c.strands[i]? = some s)
    (ht : t ∈ s.threads) : c.Owns i t where
  known := h.known t (List.mem_flatMap.mpr ⟨s, List.mem_of_getElem? hs, ht⟩)
  others _ _ hj hs' := h.not_mem hs hs' hj.symm ht

theorem Owns.step (h : c.Owns i t) (code : Behaviour σ ε α) (pick : Pick σ ε α) :
    (c.step code pick).Owns i t where
  known := Nat.lt_of_lt_of_le h.known (nextThread_step c code pick)
  others j s' hj hs' ht := by
    rcases threads_step hs' ht with rfl | ⟨s, hs, ht⟩
    · exact Nat.lt_irrefl _ h.known
    · exact h.others j s hj hs ht

theorem Owns.after {m n : Nat} (hmn : m ≤ n) (h : (c.after code picks m).Owns i t) :
    (c.after code picks n).Owns i t := by
  induction n, hmn using Nat.le_induction with
  | base => exact h
  | succ n _ ih => exact ih.step code (picks n)

variable (c code picks i t)

/-- At some time `t` is a thread of the strand `i`. -/
def Mans : Prop := ∃ n s, (c.after code picks n).strands[i]? = some s ∧ t ∈ s.threads

variable {c code picks i t}

/-- A thread of one strand is at no time a thread of another. -/
theorem Mans.others (h : Mans c code picks i t) (ha : c.Apart) (hj : j ≠ i) {n : Nat}
    {s : Strand σ ε α} (hs : (c.after code picks n).strands[j]? = some s) : t ∉ s.threads := by
  intro ht
  obtain ⟨m, s', hs', ht'⟩ := h
  rcases Nat.le_total m n with hmn | hnm
  · exact (((ha.after code picks m).owns hs' ht').after hmn).others j s hj hs ht
  · exact (((ha.after code picks n).owns hs ht).after hnm).others i s' hj.symm hs' ht'

/-- A thread of a strand is not at work in steps of others. -/
theorem Mans.not_at_work (hm : Mans c code picks i t) (ha : c.Apart) (hp : picks n ≠ .work i)
    {s : Strand σ ε α} (hs : (c.after code picks n).picked? (picks n) = some s) : s.thread ≠ t := by
  cases hpn : picks n with
  | start p =>
    rw [hpn] at hs
    cases hs
  | work l =>
    rw [hpn] at hs hp
    have hl : l ≠ i := fun hl => hp (hl ▸ rfl)
    exact fun hst => hm.others ha hl hs (hst ▸ List.mem_cons_self ..)

/-- What only machines with the thread `t` give is given by the strand of `t`. -/
theorem Mans.seen_eq_own (h : Mans c code picks i t) (ha : c.Apart) {mode : BusId → DispatchMode}
    (hc : c.Seated mode) {β : Type} {f : Machine σ ε α → List β}
    (hf : ∀ m : Machine σ ε α, m.Seated mode → t ∉ m.threads → f m = []) (n : Nat) :
    (c.after code picks n).seen (picks n) f = (c.after code picks n).own i (picks n) f := by
  cases hp : picks n with
  | start p => rfl
  | work j =>
    by_cases hj : j = i
    · simp only [own, if_pos hj]
    · simp only [own, if_neg hj, seen, picked?]
      cases hs : (c.after code picks n).strands[j]? with
      | none => rfl
      | some s =>
        exact hf _ ((hc.after code picks n).strands s (List.mem_of_getElem? hs)) (h.others ha hj hs)

end

end Crew

/-! ## Lanes of a strand's threads -/

/-- Lists with the same entries for each key are the same but for the order. -/
theorem perm_of_filter_key {κ β : Type} [DecidableEq κ] {l l' : List (κ × β)}
    (h : ∀ t, l.filter (fun x => decide (x.1 = t)) = l'.filter (fun x => decide (x.1 = t))) :
    l.Perm l' := by
  classical
  refine List.perm_iff_count.mpr fun x => ?_
  have hcount : ∀ l : List (κ × β),
      (l.filter fun y => decide (y.1 = x.1)).count x = l.count x :=
    fun l => List.count_filter (decide_eq_true rfl)
  rw [← hcount l, h x.1, hcount l']

theorem filter_key_map {κ β : Type} [DecidableEq κ] (u t : κ) (l : List β) :
    (l.map (u, ·)).filter (fun x => decide (x.1 = t)) = if u = t then l.map (t, ·) else [] := by
  by_cases h : u = t
  · subst h
    rw [if_pos rfl, List.filter_eq_self.mpr]
    rintro _ hx
    obtain ⟨d, -, rfl⟩ := List.mem_map.mp hx
    exact decide_eq_true rfl
  · rw [if_neg h, List.filter_eq_nil_iff.mpr]
    rintro _ hx hdec
    obtain ⟨d, -, rfl⟩ := List.mem_map.mp hx
    exact h (of_decide_eq_true hdec)

namespace Crew

section

variable {β γ : Type} {c : Crew σ ε α} {i : Nat} {pick : Pick σ ε α} {f : Machine σ ε α → List β}

theorem own_congr {f' : Machine σ ε α → List β}
    (h : pick = .work i → ∀ s, c.strands[i]? = some s → f (c.machine s) = f' (c.machine s)) :
    c.own i pick f = c.own i pick f' := by
  cases pick with
  | start p => rfl
  | work j =>
    by_cases hj : j = i
    · subst hj
      cases hs : c.strands[j]? with
      | none => simp only [own, seen, picked?, hs]
      | some s => simp only [own, seen, picked?, hs, h rfl s hs]
    · simp only [own, if_neg hj]

theorem own_comp {g : List β → List γ} (hg : g [] = []) :
    c.own i pick (fun m => g (f m)) = g (c.own i pick f) := by
  cases pick with
  | start p => exact hg.symm
  | work j =>
    by_cases hj : j = i
    · subst hj
      cases hs : c.strands[j]? with
      | none => simp only [own, seen, picked?, hs, hg, ite_self]
      | some s => simp only [own, seen, picked?, hs, if_true]
    · simp only [own, if_neg hj, hg]

theorem own_eq_nil (h : ∀ s, c.strands[i]? = some s → f (c.machine s) = []) :
    c.own i pick f = [] :=
  (own_congr fun _ => h).trans (own_comp (g := fun _ => []) (f := f) rfl)

end

section

variable {c : Crew σ ε α} (h : c.Fresh) (code : Behaviour σ ε α) (picks : Nat → Pick σ ε α)
  {b : BusId} (hb : c.world.mode b = .queued) {n : Nat}
  (hposts : ∀ m, m < n → (c.after code picks m).seen (picks m) (·.enqueues b) = [])
include h hb hposts

theorem Fresh.claimed : (c.after code picks n).world.Claimed b := by
  induction n with
  | zero =>
    intro t q hq
    rw [after, h.queues b t] at hq
    cases hq
  | succ n ih =>
    have ih := ih fun m hm => hposts m (Nat.lt_succ_of_lt hm)
    have he := hposts n (Nat.lt_succ_self n)
    rw [after]
    cases hp : picks n with
    | start p => exact ih
    | work j =>
      simp only [hp, seen, picked?] at he
      simp only [Crew.step]
      cases hs : (c.after code picks n).strands[j]? with
      | none => exact ih
      | some s =>
        simp only [hs] at he
        exact Machine.claimed_step code
          ((h.seated.after code picks n).strands s (List.mem_of_getElem? hs)) hb he ih

/-- A lane that no drain holds is empty. -/
theorem Fresh.lane_of_undrained {t : ThreadId}
    (hd : ∀ s ∈ (c.after code picks n).strands, s.drains b t = 0) :
    (c.after code picks n).lane b t = .empty := by
  have hshare := share_lane h code picks t hb n
  have hclaimed := h.claimed code picks hb hposts t
  rw [show (c.after code picks n).world.entry b t =
    ((c.after code picks n).lane b t).share.entry by rw [hshare]; rfl] at hclaimed
  have hdrains := congrArg Share.drains hshare
  rw [show ((c.after code picks n).share b t).drains = 0 from totalDrains_eq_zero.mpr hd] at hdrains
  cases hl : (c.after code picks n).lane b t with
  | empty => rfl
  | waiting ds =>
    rw [hl] at hclaimed
    exact nomatch hclaimed _ rfl
  | busy ds d? =>
    rw [hl] at hdrains
    cases hdrains

theorem Fresh.lane_of_mans {i : Nat} {t : ThreadId} (hm : Mans c code picks i t)
    {s : Strand σ ε α} (hs : (c.after code picks n).strands[i]? = some s) (hd : s.drains b t = 0) :
    (c.after code picks n).lane b t = .empty := by
  refine h.lane_of_undrained code picks hb hposts fun s' hs' => ?_
  obtain ⟨j, hs'⟩ := List.getElem?_of_mem hs'
  by_cases hj : j = i
  · subst hj
    rw [hs] at hs'
    cases hs'
    exact hd
  · exact drains_of_not_mem (hm.others h.apart hj hs')

end

/-- Of a lane of the strand nothing gets lost while no panic goes through the strand's loops. -/
theorem Fresh.lane_conserved {c : Crew σ ε α} (h : c.Fresh) (code : Behaviour σ ε α)
    (picks : Nat → Pick σ ε α) {b : BusId} (hb : c.world.mode b = .queued) {i j n : Nat} {t : ThreadId}
    (hm : Mans c code picks i t) (hjn : j ≤ n)
    (hunb : ∀ m s, j ≤ m → m < n → (c.after code picks m).strands[i]? = some s → s.breaks = false) :
    ((c.after code picks j).lane b t).pending ++
        during (fun m => (c.after code picks m).seen (picks m) (·.appends b t)) j n =
      during (fun m => (c.after code picks m).seen (picks m) (·.takes b t)) j n ++
        ((c.after code picks n).lane b t).pending := by
  refine Lane.conserved (turn_lane h code picks t hb) hjn fun m hjm hmn => ?_
  rw [hm.seen_eq_own h.apart h.seated (fun _ => Machine.drops_of_not_mem) m]
  exact own_eq_nil fun s hs => Machine.drops_of_unbroken _ (hunb m s hjm hmn hs)

section

variable {c : Crew σ ε α} (h : c.Fresh) (code : Behaviour σ ε α) (picks : Nat → Pick σ ε α)
  {b : BusId} (hb : c.world.mode b = .queued) {i j n : Nat} (hjn : j ≤ n)
  (hposts : ∀ m, m < n → (c.after code picks m).seen (picks m) (·.enqueues b) = [])
  {s s' : Strand σ ε α} (hs : (c.after code picks j).strands[i]? = some s)
  (hs' : (c.after code picks n).strands[i]? = some s')
  (hd : ∀ t, s.drains b t = 0) (hd' : ∀ t, s'.drains b t = 0)
  (hunb : ∀ m s, j ≤ m → m < n → (c.after code picks m).strands[i]? = some s → s.breaks = false)
include h hb hjn hposts hs hs' hd hd' hunb

/-- What the strand appends on a thread is taken there, in the same order. -/
theorem Fresh.own_appended (t : ThreadId) :
    during (fun m => (c.after code picks m).own i (picks m) (·.appends b t)) j n =
      during (fun m => (c.after code picks m).own i (picks m) (·.takes b t)) j n := by
  by_cases hm : Mans c code picks i t
  · -- The lane is the strand's own, and no drain holds it at either end.
    have hlane := h.lane_conserved code picks hb hm hjn hunb
    rw [h.lane_of_mans code picks hb (fun m hm => hposts m (Nat.lt_of_lt_of_le hm hjn)) hm hs (hd t),
      h.lane_of_mans code picks hb hposts hm hs' (hd' t)] at hlane
    rw [← during_congr fun m _ _ => hm.seen_eq_own h.apart h.seated
      (fun _ _ => Machine.appends_of_not_mem) m, ← during_congr fun m _ _ =>
      hm.seen_eq_own h.apart h.seated (fun _ => Machine.takes_of_not_mem) m]
    simpa [Lane.pending] using hlane
  · -- The thread is never one of the strand's.
    refine during_congr fun m _ _ => ?_
    have hnot : ∀ s, (c.after code picks m).strands[i]? = some s → t ∉ s.threads :=
      fun s hs ht => hm ⟨m, s, hs, ht⟩
    rw [own_eq_nil fun s hs => Machine.appends_of_not_mem (hnot s hs),
      own_eq_nil fun s hs => Machine.takes_of_not_mem
        ((h.seated.after code picks m).strands s (List.mem_of_getElem? hs)) (hnot s hs)]

/-- What the strand's posts reach is what its drains take. -/
theorem Fresh.reached_perm_taken :
    (during (fun m => (c.after code picks m).own i (picks m) (·.reached b)) j n).Perm
      (during (fun m => (c.after code picks m).own i (picks m) (·.taken b)) j n) := by
  -- The order is kept thread by thread only, so each delivery goes with its thread.
  let keyed (f : Machine σ ε α → List (Delivery α)) (m : Machine σ ε α) :=
    (f m).map fun d => (m.world.thread, d)
  have hkeyed : ∀ (f : Machine σ ε α → List (Delivery α)),
      (during (fun m => (c.after code picks m).own i (picks m) (keyed f)) j n).map Prod.snd =
        during (fun m => (c.after code picks m).own i (picks m) f) j n := by
    intro f
    rw [during_map]
    refine during_congr fun m _ _ => ?_
    rw [← own_comp List.map_nil]
    refine own_congr fun _ s _ => ?_
    simp only [keyed, List.map_map]
    exact List.map_id _
  have hfilter : ∀ (f : Machine σ ε α → List (Delivery α)) (g : Machine σ ε α → List (Delivery α))
      (t : ThreadId), (∀ m s, m < n → picks m = .work i →
        (c.after code picks m).strands[i]? = some s →
          g ((c.after code picks m).machine s) = if s.thread = t then
            f ((c.after code picks m).machine s) else []) →
      (during (fun m => (c.after code picks m).own i (picks m) (keyed f)) j n).filter
          (fun x => decide (x.1 = t)) =
        (during (fun m => (c.after code picks m).own i (picks m) g) j n).map (t, ·) := by
    intro f g t hg
    rw [during_filter, during_map]
    refine during_congr fun m _ hmn => ?_
    rw [← own_comp List.filter_nil, ← own_comp List.map_nil]
    refine own_congr fun hp s hs => ?_
    rw [hg m s hmn hp hs, filter_key_map]
    show (if s.thread = t then _ else _) = _
    split <;> rfl
  rw [← hkeyed, ← hkeyed (·.taken b)]
  refine (perm_of_filter_key fun t => ?_).map _
  rw [hfilter (·.reached b) (·.appends b t) t, hfilter (·.taken b) (·.takes b t) t,
    h.own_appended code picks hb hjn hposts hs hs' hd hd' hunb t]
  · intro m s hmn hp hs
    exact Machine.takes_eq ((h.seated.after code picks m).strands s (List.mem_of_getElem? hs)) b t
  · intro m s hmn hp hs
    have he := hposts m hmn
    rw [hp] at he
    simp only [seen, picked?, hs] at he
    exact Machine.appends_eq he t

end

end Crew
end EventBus
