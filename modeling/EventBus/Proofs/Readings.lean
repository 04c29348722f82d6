import EventBus.Source.Nesting

/-!
# Readings

What a reader gives is put together from what its parts give: each goes on where the one before it
stopped. A list of trees is read whole if nothing is left of it, nor of any group in it.
-/

namespace EventBus.Source
namespace Reader

variable {α β : Type} {r : Reader α} {f : α → Reader β} {s s' s'' : Remainder}

theorem bind_of_ok {a : α} (h : r s = .ok (a, s')) : (r >>= f) s = f a s' := by
  show (r s >>= fun x => f x.1 x.2) = _
  rw [h]
  rfl

theorem bind_eq_ok_iff {b : β} :
    (r >>= f) s = .ok (b, s'') ↔ ∃ a s', r s = .ok (a, s') ∧ f a s' = .ok (b, s'') := by
  constructor
  · intro h
    have h : (r s >>= fun x => f x.1 x.2) = .ok (b, s'') := h
    cases hr : r s with
    | error e =>
      rw [hr] at h
      cases h
    | ok x =>
      rw [hr] at h
      exact ⟨x.1, x.2, rfl, h⟩
  · rintro ⟨a, s', hr, h⟩
    rwa [bind_of_ok hr]

theorem pure_eq_ok_iff {a b : α} : (pure a : Reader α) s = .ok (b, s') ↔ a = b ∧ s = s' := by
  show Except.ok (a, s) = _ ↔ _
  simp

theorem readAll_eq_ok_iff {ts : List Tree} {a : α} :
    r.readAll ts = .ok a ↔ r ⟨ts, none⟩ = .ok (a, ⟨[], none⟩) := by
  unfold readAll StateT.run
  cases r ⟨ts, none⟩ with
  | error e => simp [bind, Except.bind]
  | ok x =>
    obtain ⟨b, trees, left?⟩ := x
    cases left? with
    | some d => simp [bind, Except.bind, throw, throwThe, MonadExceptOf.throw]
    | none =>
      cases trees <;>
        simp [bind, Except.bind, pure, Except.pure, throw, throwThe, MonadExceptOf.throw]

/-! ## Readers of a few trees -/

variable {ts rest : List Tree} {left : Option Delimiter}

theorem sees_bind {p : List Tree → Bool} {f : Bool → Reader α} : (sees p >>= f) s = f (p s.trees) s :=
  rfl

theorem ahead_bind {f : List Tree → Reader α} : (ahead >>= f) s = f s.trees s :=
  rfl

theorem identifier_eq {w : String} (hw : isIdentifier w = true) :
    identifier ⟨.word w :: rest, left⟩ = .ok (w, ⟨rest, left⟩) := by
  unfold identifier
  rw [ahead_bind]
  show (if isIdentifier w = true then _ else _ : Reader String) _ = _
  rw [if_pos hw]
  rfl

theorem mark?_eq_nil {m : String} (h : startsMark m rest = false) :
    mark? m ⟨rest, left⟩ = .ok ([], ⟨rest, left⟩) := by
  unfold mark?
  rw [ahead_bind, if_neg (by rw [h]; exact Bool.false_ne_true)]
  rfl

theorem within_eq {r : Reader α} {a : α} {d : Delimiter}
    (h : r ⟨ts, left⟩ = .ok (a, ⟨[], left⟩)) :
    within d r ⟨.group d ts :: rest, left⟩ = .ok (a, ⟨rest, left⟩) := by
  have henter : enter d r ⟨.group d ts :: rest, left⟩ = .ok ((a, false), ⟨rest, left⟩) := by
    unfold enter
    show (if d = d then _ else _ : Reader (α × Bool)) _ = _
    rw [if_pos rfl]
    have hrun : (liftM (StateT.run r ⟨ts, left⟩) : Reader (α × Remainder))
        ⟨.group d ts :: rest, left⟩ = .ok ((a, ⟨[], left⟩), ⟨.group d ts :: rest, left⟩) := by
      show (r ⟨ts, left⟩ >>= _ : Except SyntaxError _) = _
      rw [h]
      rfl
    exact bind_of_ok hrun
  unfold within
  rw [bind_of_ok henter]
  rfl

end Reader
end EventBus.Source
