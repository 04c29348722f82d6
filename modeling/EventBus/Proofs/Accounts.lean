import EventBus.Proofs.Strands
import EventBus.Proofs.Threads
import Mathlib.Data.Nat.Find

/-!
# The accounts of a strand

What a strand posts, starts, settles and reports is told by its own turns. Each step keeps the books:
what comes in and what is open before it is what goes out and what is open after it, so over a whole
run the books of a strand that comes back to its stack are balanced.
-/

namespace EventBus

variable {σ ε α : Type}

namespace Control

/-- The delivery of `b` that is about to be made. -/
def calls (b : BusId) : Control σ ε α → List (Delivery α)
  | .call ⟨d, .delivery c⟩ => if c = b then [d] else []
  | _ => []

/-- The delivery of `b` that has just been made, and how it went. -/
def settles (b : BusId) : Control σ ε α → List (Delivery α × Except HandlerError Unit)
  | .settle ⟨d, .delivery c⟩ o => if c = b then [(d, o)] else []
  | _ => []

def reports (b : BusId) : Control σ ε α → List (Delivery α × HandlerError)
  | .report c d e => if c = b then [(d, e)] else []
  | _ => []

def enqueues (b : BusId) : Control σ ε α → List (Delivery α)
  | .run (.enqueue c d _) => if c = b then [d] else []
  | _ => []

variable {b : BusId} {c : Control σ ε α}

theorem calls_of_task (h : c.task? = none) : c.calls b = [] := by
  unfold calls
  split
  · cases h
  · rfl

theorem calls_eq {d : Delivery α} (h : c.calls b = [d]) : c = .call ⟨d, .delivery b⟩ := by
  unfold calls at h
  split at h
  · split at h
    · rename_i hb
      cases h
      rw [hb]
    · cases h
  · cases h

theorem settles_of_task (h : c.task? = none) : c.settles b = [] := by
  unfold settles
  split
  · cases h
  · rfl

theorem reports_of_task (h : c.task? = none) : c.reports b = [] := by
  unfold reports
  split
  · cases h
  · rfl

theorem Rests.cases (h : c.Rests) : (∃ x, c = .returned x) ∨ ∃ p, c = .unwinding p := by
  cases c with
  | returned x => exact .inl ⟨x, rfl⟩
  | unwinding p => exact .inr ⟨p, rfl⟩
  | _ => cases h

end Control

namespace Frame

def opens (b : BusId) : Frame σ ε α → List (Delivery α)
  | .call ⟨d, .delivery c⟩ => if c = b then [d] else []
  | _ => []

/-- The deliveries that the loop of an immediate dispatch has still to make. -/
def owes (b : BusId) : Frame σ ε α → List (Delivery α)
  | .handing c e bs => if c = b then bs.map (⟨e, ·⟩) else []
  | _ => []

end Frame

def failure? : Delivery α × Except HandlerError Unit → Option (Delivery α × HandlerError)
  | (d, .error e) => some (d, e)
  | (_, .ok _) => none

namespace World

/-- The deliveries that the posts of the code at work make now. -/
def reached (w : World σ ε α) (b : BusId) : Control σ ε α → List (Delivery α)
  | .run (.post c e _) => if c = b then w.finds c e else []
  | _ => []

/-- The delivery that the drain on top takes now. -/
def taken (w : World σ ε α) (b : BusId) : Control σ ε α → List (Frame σ ε α) → List (Delivery α)
  | .returned _, .draining c owner :: _ =>
    if c = b then ((w.bus c).queues.next owner).1.toList else []
  | _, _ => []

end World

/-! ## The books of a step -/

namespace Strand

/-- The deliveries of `b` that have been started and not left. -/
def opens (b : BusId) (s : Strand σ ε α) : List (Delivery α) :=
  (s.control.settles b).map (·.1) ++ s.stack.flatMap (·.opens b)

/-- The deliveries of `b` that immediate loops have still to start. -/
def owes (b : BusId) (s : Strand σ ε α) : List (Delivery α) :=
  s.control.calls b ++ s.stack.flatMap (·.owes b)

variable {w : World σ ε α} {s s' : Strand σ ε α} {b : BusId}

/-- What is started is open until it is settled. -/
theorem Step.settles (h : Step w s s') :
    s.control.calls b ++ s.opens b = (s.control.settles b).map (·.1) ++ s'.opens b := by
  cases h with
  | halted hc => obtain ⟨x, rfl⟩ | ⟨p, rfl⟩ := hc.cases <;> rfl
  | asked _ _ hc => simp only [opens, Control.settles_of_task hc]; rfl
  | @entered _ c _ _ =>
    obtain ⟨d, use⟩ := c
    cases use <;> simp [opens, Control.calls, Control.settles, Frame.opens]
  | @refused _ c _ _ =>
    obtain ⟨d, use⟩ := c
    cases use with
    | direct next => rfl
    | delivery c =>
      simp only [opens, Control.calls, Control.settles]
      split <;> rfl
  | succeeded => simp [opens, Control.calls, Control.settles]
  | failed => simp [opens, Control.calls, Control.settles]
  | @settled _ _ call o _ hc =>
    obtain ⟨d, use⟩ := call
    have hcall : Frame.opens b (.call ⟨d, use⟩ : Frame σ ε α) =
        ((Control.settle ⟨d, use⟩ o : Control σ ε α).settles b).map (·.1) := by
      cases use with
      | direct next => rfl
      | delivery c =>
        simp only [Frame.opens, Control.settles]
        split <;> rfl
    simp only [opens, List.flatMap_cons, hcall]
    obtain ⟨x, rfl⟩ | ⟨p, rfl⟩ := hc.cases <;> rfl
  | caught hc => obtain ⟨x, rfl⟩ | ⟨p, rfl⟩ := hc.cases <;> rfl
  | joined hc => obtain ⟨x, rfl⟩ | ⟨p, rfl⟩ := hc.cases <;> rfl
  | @unwound _ _ f _ hf => cases f <;> first | rfl | cases hf
  | _ => rfl

/-- What is reported next is what has just failed. -/
theorem Step.reports (h : Step w s s') :
    s'.control.reports b = (s.control.settles b).filterMap failure? := by
  cases h with
  | halted hc => obtain ⟨x, rfl⟩ | ⟨p, rfl⟩ := hc.cases <;> rfl
  | asked _ _ hc => exact Control.reports_of_task hc
  | succeeded | failed =>
    simp only [Control.settles, Control.reports]
    split <;> rfl
  | settled hc | caught hc | joined hc =>
    obtain ⟨x, rfl⟩ | ⟨p, rfl⟩ := hc.cases <;> rfl
  | _ => rfl

theorem reached_eq_nil {p : Program σ ε α} (hp : ∀ e next, p ≠ .post b e next) :
    w.reached b (.run p) = [] := by
  unfold World.reached
  split
  · rename_i c e next h
    cases h
    rw [if_neg]
    rintro rfl
    exact hp e next rfl
  · rfl

section

variable (hk : EventBus.Seated w.mode s.thread s.stack)
include hk

/-- Immediate dispatch: what a post reaches is owed by its loop until it is started. -/
theorem Step.owes (h : Step w s s') (hm : w.mode b = .immediate) (hb : s.breaks = false)
    (he : s.control.enqueues b = []) :
    w.reached b s.control ++ s.owes b = s.control.calls b ++ s'.owes b := by
  cases h with
  | asked hp _ hc =>
    simp only [Strand.owes, Control.calls_of_task hc, reached_eq_nil (hp b)]
    rfl
  | dropped hr _ | buried hr _ =>
    simp only [World.reached, hr, ite_self]
    rfl
  | @passed _ c e next _ hc _ =>
    have hcb : c ≠ b := by
      rintro rfl
      rw [hm] at hc
      cases hc
    simp only [World.reached, if_neg hcb]
    rfl
  | @handing _ c _ bs _ k _ _ hr =>
    simp only [World.reached, Strand.owes, Control.calls, List.flatMap_cons, Frame.owes, hr]
    rfl
  | @draining _ c p next _ hc hp =>
    have hreached : w.reached b (.run p) = [] := by
      refine reached_eq_nil fun e next' h => ?_
      rcases hp with ⟨e', rfl, -⟩ | rfl
      · cases h
        rw [hm] at hc
        cases hc
      · cases h
    simp only [hreached]
    rfl
  | @enqueued _ c d _ _ _ =>
    simp only [Strand.owes, Control.calls]
    rw [show (if c = b then [d] else []) = [] from he]
    rfl
  | handed =>
    simp only [Strand.owes, List.flatMap_cons, Frame.owes, List.map_nil, ite_self]
    rfl
  | hands =>
    simp only [World.reached, Strand.owes, Control.calls, List.flatMap_cons, Frame.owes]
    split <;> rfl
  | @takes _ _ c _ _ _ _ =>
    have hcb : c ≠ b := by
      rintro rfl
      rw [hk.2.1.2.1] at hm
      cases hm
    simp only [World.reached, Strand.owes, Control.calls, if_neg hcb]
  | entered => simp [World.reached, Strand.owes, Frame.owes, Control.calls]
  | @refused _ c _ _ => simp [World.reached, Strand.owes, Control.calls]
  | halted hc | settled hc | caught hc | joined hc =>
    obtain ⟨x, rfl⟩ | ⟨p, rfl⟩ := hc.cases <;> rfl
  | @unwound _ _ f _ hf =>
    cases f <;> first | rfl | cases hb
  | _ => rfl

/-- Queued dispatch: what starts next is what has just been taken. -/
theorem Step.calls (h : Step w s s') (hm : w.mode b = .queued) :
    s'.control.calls b = w.taken b s.control s.stack := by
  cases h with
  | asked _ _ hc => exact Control.calls_of_task hc
  | @enqueued _ c d _ _ hc =>
    simp only [Control.calls]
    rw [if_neg]
    · rfl
    · rintro rfl
      rw [hc] at hm
      cases hm
  | @hands _ _ c _ _ _ _ =>
    simp only [Control.calls]
    rw [if_neg]
    · rfl
    · rintro rfl
      rw [show w.mode c = .immediate from hk.2.1] at hm
      cases hm
  | drained hn =>
    simp only [World.taken, hn]
    split <;> rfl
  | takes hn =>
    simp only [World.taken, Control.calls, hn]
    rfl
  | halted hc | settled hc | caught hc | joined hc =>
    obtain ⟨x, rfl⟩ | ⟨p, rfl⟩ := hc.cases <;> rfl
  | _ => rfl

end

end Strand

namespace Machine

def reached (b : BusId) (m : Machine σ ε α) : List (Delivery α) := m.world.reached b m.control

def taken (b : BusId) (m : Machine σ ε α) : List (Delivery α) := m.world.taken b m.control m.stack

def starts (b : BusId) (m : Machine σ ε α) : List (Delivery α) := m.control.calls b

def settles (b : BusId) (m : Machine σ ε α) : List (Delivery α × Except HandlerError Unit) :=
  m.control.settles b

def reports (b : BusId) (m : Machine σ ε α) : List (Delivery α × HandlerError) :=
  m.control.reports b

/-- What goes to `b` past its posts. -/
def enqueues (b : BusId) (m : Machine σ ε α) : List (Delivery α) := m.control.enqueues b

end Machine

/-! ## The books of a run -/

/-- After its turn at `j` the strand `i` has its next one at `n`. -/
structure NextTurn (picks : Nat → Pick σ ε α) (i j n : Nat) : Prop where
  lt : j < n
  turn : picks n = .work i
  others : ∀ m, j < m → m < n → picks m ≠ .work i

theorem NextTurn.unique {picks : Nat → Pick σ ε α} {i j n n' : Nat} (h : NextTurn picks i j n)
    (h' : NextTurn picks i j n') : n = n' := by
  rcases Nat.lt_trichotomy n n' with hlt | heq | hgt
  · exact absurd h.turn (h'.others n h.lt hlt)
  · exact heq
  · exact absurd h'.turn (h.others n' h'.lt hgt)

namespace Crew

/-- What the step gives as the machine of the strand `i` sees it, if it is the strand's turn. -/
def own {β : Type} (c : Crew σ ε α) (i : Nat) (pick : Pick σ ε α) (f : Machine σ ε α → List β) :
    List β :=
  match pick with
  | .work j => if j = i then c.seen (.work j) f else []
  | .start _ => []

theorem own_cases (code : Behaviour σ ε α) {c : Crew σ ε α} {i : Nat} {s : Strand σ ε α}
    (hs : c.strands[i]? = some s) (pick : Pick σ ε α) :
    (pick = .work i ∧
        (c.step code pick).strands[i]? = some ((c.machine s).step code).strand ∧
        ∀ (β : Type) (f : Machine σ ε α → List β), c.own i pick f = f (c.machine s)) ∨
      (pick ≠ .work i ∧ (c.step code pick).strands[i]? = some s ∧
        ∀ (β : Type) (f : Machine σ ε α → List β), c.own i pick f = []) := by
  have hi : i < c.strands.length := (List.getElem?_eq_some_iff.mp hs).1
  cases pick with
  | start p =>
    refine .inr ⟨(fun h => nomatch h), ?_, fun _ _ => rfl⟩
    simp only [Crew.step]
    rw [List.getElem?_append_left hi, hs]
  | work j =>
    by_cases hji : j = i
    · subst hji
      refine .inl ⟨rfl, ?_, fun _ f => ?_⟩
      · simp only [Crew.step, hs]
        exact List.getElem?_set_self hi
      · simp only [own, seen, picked?, hs, if_true]
    · refine .inr ⟨fun h => hji (Pick.work.inj h), ?_, fun _ f => if_neg hji⟩
      simp only [Crew.step]
      split
      · rw [List.getElem?_set_ne hji, hs]
      · exact hs

/-- What the strand at work does is what happens. -/
theorem own_turn {c : Crew σ ε α} {code : Behaviour σ ε α} {picks : Nat → Pick σ ε α} {i n : Nat}
    {s : Strand σ ε α} (hs : (c.after code picks n).strands[i]? = some s) (hp : picks n = .work i) :
    (c.after code picks (n + 1)).strands[i]? =
        some (((c.after code picks n).machine s).step code).strand ∧
      (c.after code picks (n + 1)).world = (((c.after code picks n).machine s).step code).world ∧
      ∀ {β : Type} (f : Machine σ ε α → List β),
        (c.after code picks n).seen (picks n) f = f ((c.after code picks n).machine s) := by
  have hi : i < (c.after code picks n).strands.length := (List.getElem?_eq_some_iff.mp hs).1
  rw [after, hp]
  simp only [Crew.step, seen, picked?, hs]
  refine ⟨List.getElem?_set_self hi, ?_, ?_⟩
  · trivial
  · exact fun _ => trivial

section

variable (c : Crew σ ε α) (code : Behaviour σ ε α) (picks : Nat → Pick σ ε α) {i j n : Nat}

/-- On a queued bus a strand starts next what it has just taken. -/
theorem Fresh.calls_step (h : c.Fresh) {b : BusId} (hb : c.world.mode b = .queued)
    {s : Strand σ ε α} (hs : (c.after code picks n).strands[i]? = some s) :
    (((c.after code picks n).machine s).step code).strand.control.calls b =
      ((c.after code picks n).machine s).taken b := by
  have hseated := (h.seated.after code picks n).strands s (List.mem_of_getElem? hs)
  exact (strand_step code (c.after code picks n) s).calls (hseated.modes ▸ hseated.stack)
    ((congrFun hseated.modes b).trans hb)

/-- A strand stands still while others work. -/
theorem strand_of_others {s : Strand σ ε α} (hjn : j ≤ n)
    (hp : ∀ m, j ≤ m → m < n → picks m ≠ .work i)
    (hs : (c.after code picks j).strands[i]? = some s) :
    (c.after code picks n).strands[i]? = some s := by
  induction n, hjn using Nat.le_induction with
  | base => exact hs
  | succ n hjn ih =>
    have hs' := ih fun m hjm hmn => hp m hjm (Nat.lt_succ_of_lt hmn)
    rcases own_cases code hs' (picks n) with ⟨hn, -, -⟩ | ⟨-, h, -⟩
    · exact absurd hn (hp n hjn (Nat.lt_succ_self n))
    · exact h

/-- A strand that has not stood still has had a turn, and the first one where it stood. -/
theorem exists_first_turn {s : Strand σ ε α} (hjn : j ≤ n)
    (hs : (c.after code picks j).strands[i]? = some s)
    (hn : (c.after code picks n).strands[i]? ≠ some s) :
    ∃ q, j ≤ q ∧ q < n ∧ picks q = .work i ∧ (∀ m, j ≤ m → m < q → picks m ≠ .work i) ∧
      (c.after code picks q).strands[i]? = some s := by
  classical
  have hex : ∃ q, j ≤ q ∧ q < n ∧ picks q = .work i := by
    by_contra hnone
    exact hn (strand_of_others c code picks hjn
      (fun m hjm hmn hm => hnone ⟨m, hjm, hmn, hm⟩) hs)
  obtain ⟨hjq, hqn, hq⟩ := Nat.find_spec hex
  have hfirst : ∀ m, j ≤ m → m < Nat.find hex → picks m ≠ .work i := fun m hjm hmq hm =>
    Nat.find_min hex hmq ⟨hjm, Nat.lt_trans hmq hqn, hm⟩
  exact ⟨_, hjq, hqn, hq, hfirst, strand_of_others c code picks hjq hfirst hs⟩

theorem strand_after {s : Strand σ ε α} (hjn : j ≤ n)
    (hs : (c.after code picks j).strands[i]? = some s) :
    ∃ s', (c.after code picks n).strands[i]? = some s' := by
  induction n, hjn using Nat.le_induction with
  | base => exact ⟨s, hs⟩
  | succ n hjn ih =>
    obtain ⟨s', hs'⟩ := ih
    rcases own_cases code hs' (picks n) with ⟨-, h, -⟩ | ⟨-, h, -⟩
    · exact ⟨_, h⟩
    · exact ⟨_, h⟩

variable {β : Type} (x : Strand σ ε α → List β) (made done : Machine σ ε α → List β)

/-- What comes in first goes out first. -/
theorem own_fifo (hjn : j ≤ n)
    (law : ∀ m s, j ≤ m → m < n → picks m = .work i →
      (c.after code picks m).strands[i]? = some s →
      x s ++ made ((c.after code picks m).machine s) = done ((c.after code picks m).machine s) ++
        x (((c.after code picks m).machine s).step code).strand)
    {s s' : Strand σ ε α} (hs : (c.after code picks j).strands[i]? = some s)
    (hs' : (c.after code picks n).strands[i]? = some s') :
    x s ++ during (fun m => (c.after code picks m).own i (picks m) made) j n =
      during (fun m => (c.after code picks m).own i (picks m) done) j n ++ x s' := by
  induction n, hjn using Nat.le_induction generalizing s' with
  | base =>
    rw [hs] at hs'
    cases hs'
    rw [during_self, during_self, List.append_nil, List.nil_append]
  | succ n hjn ih =>
    obtain ⟨s₁, hs₁⟩ := strand_after c code picks hjn hs
    have ih := ih (fun m s hjm hmn => law m s hjm (Nat.lt_succ_of_lt hmn)) hs₁
    rw [during_succ _ hjn, during_succ _ hjn, ← List.append_assoc, ih, List.append_assoc,
      List.append_assoc]
    congr 1
    rcases own_cases code hs₁ (picks n) with ⟨hp, h, hown⟩ | ⟨-, h, hown⟩
    · rw [after, h] at hs'
      cases hs'
      rw [hown, hown]
      exact law n s₁ hjn (Nat.lt_succ_self n) hp hs₁
    · rw [after, h] at hs'
      cases hs'
      rw [hown, hown, List.append_nil, List.nil_append]

/-- Nothing gets lost, in whatever order it comes and goes. -/
theorem own_balance (hjn : j ≤ n)
    (law : ∀ m s, j ≤ m → m < n → picks m = .work i →
      (c.after code picks m).strands[i]? = some s →
      made ((c.after code picks m).machine s) ++ x s = done ((c.after code picks m).machine s) ++
        x (((c.after code picks m).machine s).step code).strand)
    {s s' : Strand σ ε α} (hs : (c.after code picks j).strands[i]? = some s)
    (hs' : (c.after code picks n).strands[i]? = some s') :
    (during (fun m => (c.after code picks m).own i (picks m) made) j n ++ x s).Perm
      (during (fun m => (c.after code picks m).own i (picks m) done) j n ++ x s') := by
  induction n, hjn using Nat.le_induction generalizing s' with
  | base =>
    rw [hs] at hs'
    cases hs'
    rw [during_self, during_self]
  | succ n hjn ih =>
    obtain ⟨s₁, hs₁⟩ := strand_after c code picks hjn hs
    have ih := ih (fun m s hjm hmn => law m s hjm (Nat.lt_succ_of_lt hmn)) hs₁
    have hstep : (c.after code picks n).own i (picks n) made ++ x s₁ =
        (c.after code picks n).own i (picks n) done ++ x s' := by
      rcases own_cases code hs₁ (picks n) with ⟨hp, h, hown⟩ | ⟨-, h, hown⟩
      · rw [after, h] at hs'
        cases hs'
        rw [hown, hown]
        exact law n s₁ hjn (Nat.lt_succ_self n) hp hs₁
      · rw [after, h] at hs'
        cases hs'
        rw [hown, hown]
    rw [during_succ _ hjn, during_succ _ hjn, List.append_assoc, List.append_assoc, ← hstep]
    refine (List.perm_append_comm_assoc _ _ _).trans ((ih.append_left _).trans ?_)
    exact List.perm_append_comm_assoc _ _ _

end

end Crew
end EventBus
