import EventBus.Proofs.Lanes
import EventBus.Proofs.Runs

/-!
# Crews

A crew is a world with strands of code that work in it by turns, one for each thread that runs on
its own. A schedule picks a strand for each step, or starts a new one; all threads are different.
-/

namespace EventBus

variable {σ ε α : Type}

structure Strand (σ ε α : Type) where
  thread : ThreadId
  control : Control σ ε α
  stack : List (Frame σ ε α)

namespace Strand

def drains (b : BusId) (t : ThreadId) (s : Strand σ ε α) : Nat :=
  EventBus.drains b t s.thread s.stack

/-- The deliveries of `b` that `t` has at work, called or reported. -/
def working (b : BusId) (t : ThreadId) (s : Strand σ ε α) : List (Delivery α) :=
  (if s.thread = t then workOn b s.control.task? else []) ++ EventBus.working b t s.thread s.stack

end Strand

def totalDrains (b : BusId) (t : ThreadId) : List (Strand σ ε α) → Nat
  | [] => 0
  | s :: ss => s.drains b t + totalDrains b t ss

theorem totalDrains_append (b : BusId) (t : ThreadId) : ∀ ss ss' : List (Strand σ ε α),
    totalDrains b t (ss ++ ss') = totalDrains b t ss + totalDrains b t ss'
  | [], ss' => (Nat.zero_add _).symm
  | s :: ss, ss' => by
    rw [List.cons_append, totalDrains, totalDrains, totalDrains_append b t ss, Nat.add_assoc]

theorem totalDrains_eq_zero {b : BusId} {t : ThreadId} : ∀ {ss : List (Strand σ ε α)},
    totalDrains b t ss = 0 ↔ ∀ s ∈ ss, s.drains b t = 0
  | [] => by simp [totalDrains]
  | s :: ss => by
    rw [totalDrains, Nat.add_eq_zero_iff, totalDrains_eq_zero, List.forall_mem_cons]

structure Crew (σ ε α : Type) where
  world : World σ ε α
  strands : List (Strand σ ε α)

/-- Who is next: a strand, or a program on a new thread. -/
inductive Pick (σ ε α : Type) where
  | work (i : Nat)
  | start (program : Program σ ε α)

namespace Crew

def machine (c : Crew σ ε α) (s : Strand σ ε α) : Machine σ ε α :=
  ⟨{ c.world with thread := s.thread }, s.control, s.stack⟩

def step (code : Behaviour σ ε α) (c : Crew σ ε α) : Pick σ ε α → Crew σ ε α
  | .work i =>
    match c.strands[i]? with
    | some s =>
      let m := (c.machine s).step code
      ⟨m.world, c.strands.set i ⟨m.world.thread, m.control, m.stack⟩⟩
    | none => c
  | .start p =>
    ⟨{ c.world with nextThread := c.world.nextThread + 1 },
      c.strands ++ [⟨c.world.nextThread, .run p, []⟩]⟩

def after (code : Behaviour σ ε α) (c : Crew σ ε α) (picks : Nat → Pick σ ε α) : Nat → Crew σ ε α
  | 0 => c
  | n + 1 => (c.after code picks n).step code (picks n)

/-- No queue is in use, and every strand is about to run a program. -/
structure Fresh (c : Crew σ ε α) : Prop where
  queues : ∀ b t, c.world.entry b t = none
  programs : ∀ s ∈ c.strands, (∃ p, s.control = .run p) ∧ s.stack = []
  distinct : (c.strands.map (·.thread)).Nodup
  known : ∀ s ∈ c.strands, s.thread < c.world.nextThread

theorem fresh_alone {w : World σ ε α} (hq : ∀ b t, w.entry b t = none) {t : ThreadId}
    (ht : t < w.nextThread) (p : Program σ ε α) : Fresh ⟨w, [⟨t, .run p, []⟩]⟩ where
  queues := hq
  programs s hs := by
    rw [List.mem_singleton.mp hs]
    exact ⟨⟨p, rfl⟩, rfl⟩
  distinct := List.nodup_cons.mpr ⟨List.not_mem_nil, List.nodup_nil⟩
  known s hs := by
    rw [List.mem_singleton.mp hs]
    exact ht

end Crew

/-! ## A crew of one -/

namespace Machine

def crew (m : Machine σ ε α) : Crew σ ε α := ⟨m.world, [⟨m.world.thread, m.control, m.stack⟩]⟩

variable {code : Behaviour σ ε α}

theorem step_crew (m : Machine σ ε α) : m.crew.step code (.work 0) = (m.step code).crew := rfl

/-- A crew of one strand does what its machine does. -/
theorem after_crew (m : Machine σ ε α) (n : Nat) :
    m.crew.after code (fun _ => .work 0) n = (m.run code n).crew := by
  induction n with
  | zero => rfl
  | succ n ih => rw [Crew.after, ih, step_crew, run_add n 1, run_succ, run]

end Machine

namespace Crew

def picked? (c : Crew σ ε α) : Pick σ ε α → Option (Strand σ ε α)
  | .work i => c.strands[i]?
  | .start _ => none

/-- What a step gives as the machine at work sees it. -/
def seen {β : Type} (c : Crew σ ε α) (pick : Pick σ ε α) (f : Machine σ ε α → List β) : List β :=
  match c.picked? pick with
  | some s => f (c.machine s)
  | none => []

def working (b : BusId) (t : ThreadId) (c : Crew σ ε α) : List (Delivery α) :=
  c.strands.flatMap (·.working b t)

def share (b : BusId) (t : ThreadId) (c : Crew σ ε α) : Share α :=
  ⟨c.world.entry b t, totalDrains b t c.strands, c.working b t⟩

/-! ## Seats -/

structure Seated (mode : BusId → DispatchMode) (c : Crew σ ε α) : Prop where
  modes : c.world.mode = mode
  strands : ∀ s ∈ c.strands, (c.machine s).Seated mode

section

variable {c : Crew σ ε α} {mode : BusId → DispatchMode}

theorem Fresh.seated (h : c.Fresh) : c.Seated c.world.mode where
  modes := rfl
  strands s hs := by
    obtain ⟨⟨p, hp⟩, hk⟩ := h.programs s hs
    obtain ⟨t, control, stack⟩ := s
    subst hp hk
    exact ⟨rfl, Seat.none, trivial⟩

theorem Seated.step (h : c.Seated mode) (code : Behaviour σ ε α) (pick : Pick σ ε α) :
    (c.step code pick).Seated mode := by
  cases pick with
  | start p =>
    refine ⟨h.modes, fun s hs => ?_⟩
    rcases List.mem_append.mp hs with hs | hs
    · obtain ⟨hm, hseat, hk⟩ := h.strands s hs
      exact ⟨hm, hseat, hk⟩
    · rw [List.mem_singleton.mp hs]
      exact ⟨h.modes, Seat.none, trivial⟩
  | work i =>
    simp only [Crew.step]
    split
    · rename_i s hs
      obtain ⟨hm, hseat, hk⟩ := (h.strands s (List.mem_of_getElem? hs)).step code
      refine ⟨hm, fun s' hs' => ?_⟩
      rcases List.mem_or_eq_of_mem_set hs' with hs' | rfl
      · obtain ⟨-, hseat', hk'⟩ := h.strands s' hs'
        exact ⟨hm, hseat', hk'⟩
      · exact ⟨hm, hseat, hk⟩
    · exact h

theorem Seated.after (h : c.Seated mode) (code : Behaviour σ ε α) (picks : Nat → Pick σ ε α) :
    ∀ n, (c.after code picks n).Seated mode
  | 0 => h
  | n + 1 => (h.after code picks n).step code (picks n)

end

/-! ## Lanes of a crew -/

theorem exists_set {strands : List (Strand σ ε α)} {i : Nat} {s : Strand σ ε α}
    (h : strands[i]? = some s) (s' : Strand σ ε α) :
    ∃ front back, strands = front ++ s :: back ∧ strands.set i s' = front ++ s' :: back := by
  obtain ⟨hi, rfl⟩ := List.getElem?_eq_some_iff.mp h
  obtain ⟨front, back, hfront, -, hset⟩ := List.exists_of_set hi
  exact ⟨front, back, hfront, hset⟩

theorem share_split (b : BusId) (t : ThreadId) (w : World σ ε α) (front back : List (Strand σ ε α))
    (s : Strand σ ε α) : share b t ⟨w, front ++ s :: back⟩ =
      ⟨w.entry b t, totalDrains b t front + totalDrains b t back + s.drains b t,
        front.flatMap (·.working b t) ++ s.working b t ++ back.flatMap (·.working b t)⟩ := by
  simp only [share, working, totalDrains_append, totalDrains, List.flatMap_append,
    List.flatMap_cons, List.append_assoc, Share.mk.injEq, true_and, and_true]
  omega

section

variable {c : Crew σ ε α} {mode : BusId → DispatchMode} {b : BusId} (hb : mode b = .queued)
  (t : ThreadId)
include hb

theorem working_le {s : Strand σ ε α} (h : (c.machine s).Seated mode) :
    (s.working b t).length ≤ s.drains b t := by
  obtain ⟨-, hseat, hk⟩ := h
  have hle := working_le_drains hb t s.stack s.thread hk
  unfold Strand.working Strand.drains
  rw [List.length_append]
  by_cases ht : s.thread = t
  · rw [if_pos ht]
    cases htask : s.control.task? with
    | none => simpa [workOn] using hle.1
    | some cd =>
      obtain ⟨b', d⟩ := cd
      simp only [workOn]
      split
      · rename_i hb'
        subst hb'
        obtain ⟨k, hstack⟩ := hseat b' d htask hb
        have := hle.2 k ht (ht ▸ hstack)
        simp only [List.length_singleton]
        omega
      · simpa using hle.1
  · rw [if_neg ht]
    simpa using hle.1

theorem length_working_le {strands : List (Strand σ ε α)}
    (h : ∀ s ∈ strands, (c.machine s).Seated mode) :
    (strands.flatMap (·.working b t)).length ≤ totalDrains b t strands := by
  induction strands with
  | nil => exact Nat.le_refl 0
  | cons s ss ih =>
    have hs := working_le hb t (h s (List.mem_cons_self ..))
    have hss := ih fun s' hs' => h s' (List.mem_cons_of_mem s hs')
    rw [List.flatMap_cons, totalDrains, List.length_append]
    omega

/-- A step of a crew is at most one turn in each lane of a queued bus. -/
theorem turn (code : Behaviour σ ε α) (h : c.Seated mode) (pick : Pick σ ε α) {l : Lane α}
    (hl : l.share = c.share b t) :
    ∃ l', Lane.Turn (c.seen pick (·.appends b t)) (c.seen pick (·.takes b t))
        (c.seen pick (·.drops b t)) l l' ∧ l'.share = (c.step code pick).share b t := by
  cases pick with
  | start p =>
    refine ⟨l, .stay l, ?_⟩
    have hd : Strand.drains b t ⟨c.world.nextThread, .run p, []⟩ = 0 := rfl
    have hw : Strand.working b t ⟨c.world.nextThread, .run p, []⟩ = [] := by
      simp [Strand.working, Control.task?, workOn, EventBus.working]
    rw [hl, share, share]
    simp only [Crew.step, working, totalDrains_append, totalDrains, List.flatMap_append,
      List.flatMap_singleton, hd, hw, Nat.add_zero, List.append_nil]
    rfl
  | work i =>
    simp only [seen, picked?, Crew.step]
    cases hs : c.strands[i]? with
    | none => exact ⟨l, .stay l, hl⟩
    | some s =>
      obtain ⟨front, back, hfront, hset⟩ := exists_set hs
        ⟨((c.machine s).step code).world.thread, ((c.machine s).step code).control,
          ((c.machine s).step code).stack⟩
      have hmove := Machine.move code (h.strands s (List.mem_of_getElem? hs)) hb t
      have hothers : ∀ s' ∈ front ++ back, (c.machine s').Seated mode := by
        intro s' hs'
        refine h.strands s' ?_
        rw [hfront]
        rcases List.mem_append.mp hs' with hs' | hs'
        · exact List.mem_append_left _ hs'
        · exact List.mem_append_right _ (List.mem_cons_of_mem s hs')
      have hlen := length_working_le hb t hothers
      rw [List.flatMap_append, List.length_append, totalDrains_append] at hlen
      have hc : c = ⟨c.world, front ++ s :: back⟩ := by rw [← hfront]
      rw [hc, share_split] at hl
      obtain ⟨l', hturn, hl'⟩ := Lane.turn_of_move hmove hlen hl
      refine ⟨l', hturn, ?_⟩
      rw [hl']
      show _ = share b t ⟨_, c.strands.set i _⟩
      rw [hset, share_split]
      rfl

end

def lane (b : BusId) (t : ThreadId) (c : Crew σ ε α) : Lane α := Lane.ofShare (c.share b t)

theorem Fresh.share {c : Crew σ ε α} (h : c.Fresh) (b : BusId) (t : ThreadId) :
    c.share b t = Lane.empty.share := by
  have hnone : ∀ s ∈ c.strands, s.drains b t = 0 ∧ s.working b t = [] := by
    intro s hs
    obtain ⟨⟨p, hp⟩, hk⟩ := h.programs s hs
    simp [Strand.drains, Strand.working, hp, hk, EventBus.drains, EventBus.working, Control.task?,
      workOn]
  have hd : totalDrains b t c.strands = 0 :=
    totalDrains_eq_zero.mpr fun s hs => (hnone s hs).1
  have hw : c.working b t = [] := by
    rw [working, List.flatMap_eq_nil_iff]
    exact fun s hs => (hnone s hs).2
  rw [Crew.share, h.queues, hd, hw]
  rfl

section

variable {c : Crew σ ε α} (h : c.Fresh) (code : Behaviour σ ε α) (picks : Nat → Pick σ ε α)
  (b : BusId) (t : ThreadId)
include h

theorem lane_zero : (c.after code picks 0).lane b t = .empty := by
  rw [after, lane, h.share, Lane.ofShare_share]

variable {b} (hb : c.world.mode b = .queued)
include hb

/-- What a crew shows of a lane is what the lane shows. -/
theorem share_lane (n : Nat) :
    ((c.after code picks n).lane b t).share = (c.after code picks n).share b t := by
  induction n with
  | zero => rw [after, lane, h.share, Lane.ofShare_share]
  | succ n ih =>
    obtain ⟨l', -, hl'⟩ := turn hb t code (h.seated.after code picks n) (picks n) ih
    rw [after, lane, ← hl', Lane.ofShare_share]

theorem lane_eq_empty_iff (n : Nat) :
    (c.after code picks n).lane b t = .empty ↔ (c.after code picks n).world.entry b t = none := by
  rw [Lane.eq_empty_iff, share_lane h code picks t hb]
  rfl

theorem drains_of_gone {n : Nat} (hn : (c.after code picks n).world.entry b t = none) :
    ∀ s ∈ (c.after code picks n).strands, s.drains b t = 0 := by
  have hshare := share_lane h code picks t hb n
  rw [(lane_eq_empty_iff h code picks t hb n).mpr hn] at hshare
  exact totalDrains_eq_zero.mp (congrArg Share.drains hshare).symm

/-- A lane that is drained is not empty. -/
theorem lane_of_draining {i n : Nat} {s : Strand σ ε α}
    (hs : (c.after code picks n).strands[i]? = some s) (hd : .draining b t ∈ s.stack) :
    (c.after code picks n).lane b t ≠ .empty := by
  intro hempty
  have hgone := (lane_eq_empty_iff h code picks t hb n).mp hempty
  have hmem := List.mem_of_getElem? hs
  have hstack := ((h.seated.after code picks n).strands s hmem).stack
  exact drains_ne_zero hstack hd (drains_of_gone h code picks t hb hgone s hmem)

/-- A delivery that a strand has at work is the one of its lane. -/
theorem lane_of_working {i n : Nat} {s : Strand σ ε α}
    (hs : (c.after code picks n).strands[i]? = some s) {d : Delivery α} (hd : d ∈ s.working b t) :
    ∃ rest, (c.after code picks n).lane b t = .busy rest (some d) := by
  have hshare := share_lane h code picks t hb n
  have hd' : d ∈ ((c.after code picks n).share b t).working :=
    List.mem_flatMap.mpr ⟨s, List.mem_of_getElem? hs, hd⟩
  rw [← hshare] at hd'
  cases hl : (c.after code picks n).lane b t with
  | empty => rw [hl] at hd'; cases hd'
  | waiting ds => rw [hl] at hd'; cases hd'
  | busy ds d? =>
    rw [hl] at hd'
    cases d? with
    | none => cases hd'
    | some d' => exact ⟨ds, by rw [List.mem_singleton.mp hd']⟩

theorem turn_lane (n : Nat) :
    Lane.Turn ((c.after code picks n).seen (picks n) (·.appends b t))
      ((c.after code picks n).seen (picks n) (·.takes b t))
      ((c.after code picks n).seen (picks n) (·.drops b t))
      ((c.after code picks n).lane b t) ((c.after code picks (n + 1)).lane b t) := by
  obtain ⟨l', hl, hl'⟩ := turn hb t code (h.seated.after code picks n) (picks n)
    (share_lane h code picks t hb n)
  rw [show (c.after code picks (n + 1)).lane b t = l' by
    rw [lane, after, ← hl', Lane.ofShare_share]]
  exact hl

end

end Crew
end EventBus
