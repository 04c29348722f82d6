import EventBus.Machine.Step

/-!
# Runs and what is seen of them

A run is a number of steps; a machine that has halted stands still. Of each bus it is seen which
deliveries start and which failures are reported, in order.
-/

namespace EventBus

variable {σ ε α : Type}

inductive Sight (α : Type) where
  | start (delivery : Delivery α)
  | report (delivery : Delivery α) (error : HandlerError)

namespace Sight

def start? : Sight α → Option (Delivery α)
  | start d => some d
  | report .. => none

def report? : Sight α → Option (Delivery α × HandlerError)
  | start _ => none
  | report d e => some (d, e)

end Sight

namespace Machine

def sights (b : BusId) (m : Machine σ ε α) : List (Sight α) :=
  match m.control with
  | .call ⟨d, .delivery c⟩ => if c = b then [.start d] else []
  | .report c d e => if c = b then [.report d e] else []
  | _ => []

/-- What is seen of `b` in that many steps. -/
def trace (code : Behaviour σ ε α) (b : BusId) : Nat → Machine σ ε α → List (Sight α)
  | 0, _ => []
  | n + 1, m => m.sights b ++ trace code b n (m.step code)

/-- The machine `m` comes to `m'`, and `seen` is seen of `b` on the way. -/
def Leads (code : Behaviour σ ε α) (b : BusId) (m : Machine σ ε α) (seen : List (Sight α))
    (m' : Machine σ ε α) : Prop :=
  ∃ n, run code n m = m' ∧ trace code b n m = seen

variable {code : Behaviour σ ε α}

theorem step_of_halted {m : Machine σ ε α} (h : m.result?.isSome) : m.step code = m := by
  obtain ⟨w, c, k⟩ := m
  cases c <;> cases k <;> first | rfl | cases h

theorem run_of_halted {m : Machine σ ε α} (h : m.result?.isSome) : ∀ n, run code n m = m
  | 0 => rfl
  | n + 1 => by rw [run, if_pos h]

theorem run_succ (n : Nat) (m : Machine σ ε α) : run code (n + 1) m = run code n (m.step code) := by
  rw [run]
  split
  · rename_i h
    rw [step_of_halted h, run_of_halted h]
  · rfl

theorem run_add : ∀ (i j : Nat) (m : Machine σ ε α), run code (i + j) m = run code j (run code i m)
  | 0, j, m => by rw [Nat.zero_add]; rfl
  | i + 1, j, m => by rw [Nat.succ_add, run_succ, run_succ, run_add i j]

theorem trace_add (b : BusId) : ∀ (i j : Nat) (m : Machine σ ε α),
    trace code b (i + j) m = trace code b i m ++ trace code b j (run code i m)
  | 0, j, m => by rw [Nat.zero_add]; rfl
  | i + 1, j, m => by
    rw [Nat.succ_add, trace, trace, run_succ, trace_add b i j, List.append_assoc]

namespace Leads

variable {b : BusId} {m m' m'' : Machine σ ε α} {s s' : List (Sight α)}

theorem refl (m : Machine σ ε α) : Leads code b m [] m := ⟨0, rfl, rfl⟩

theorem trans (h : Leads code b m s m') (h' : Leads code b m' s' m'') :
    Leads code b m (s ++ s') m'' := by
  obtain ⟨i, rfl, rfl⟩ := h
  obtain ⟨j, rfl, rfl⟩ := h'
  exact ⟨i + j, run_add i j m, trace_add b i j m⟩

theorem head (h : Leads code b (m.step code) s m') : Leads code b m (m.sights b ++ s) m' := by
  obtain ⟨n, rfl, rfl⟩ := h
  exact ⟨n + 1, run_succ n m, rfl⟩

theorem next (hs : m.sights b = s) (hm : m.step code = m') (h : Leads code b m' s' m'') :
    Leads code b m (s ++ s') m'' := by
  rw [← hs]
  exact head (hm ▸ h)

theorem skip (hs : m.sights b = []) (hm : m.step code = m') (h : Leads code b m' s m'') :
    Leads code b m s m'' :=
  next hs hm h

theorem tail (h : Leads code b m s m') (hs : m'.sights b = []) :
    Leads code b m s (m'.step code) := by
  have h' := h.trans (head (refl (m'.step code)))
  rwa [hs, List.append_nil, List.append_nil] at h'

end Leads
end Machine
end EventBus
