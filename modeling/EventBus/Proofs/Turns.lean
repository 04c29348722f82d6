import EventBus.Proofs.Returns

/-!
# The turns of a strand

A schedule gives a strand its turns. Where a strand does the same in every world, it goes through the
same states and gives the same things turn by turn, whatever the others do in between.
-/

namespace EventBus

variable {σ ε α : Type}

namespace Pick

/-- The turn is that of the strand `i`. -/
def isOf (i : Nat) : Pick σ ε α → Bool
  | .work j => j == i
  | .start _ => false

theorem isOf_iff {i : Nat} {pick : Pick σ ε α} : pick.isOf i = true ↔ pick = .work i := by
  cases pick <;> simp [isOf]

end Pick

/-- The number of turns of the strand `i` from `n` up to `m`. -/
def turns (picks : Nat → Pick σ ε α) (i n m : Nat) : Nat :=
  (List.range' n (m - n)).countP fun l => (picks l).isOf i

section

variable (picks : Nat → Pick σ ε α) (i : Nat) {n m : Nat}

theorem turns_self (n : Nat) : turns picks i n n = 0 := by
  rw [turns, Nat.sub_self]
  rfl

theorem turns_succ (h : n ≤ m) :
    turns picks i n (m + 1) = turns picks i n m + if (picks m).isOf i then 1 else 0 := by
  rw [turns, turns, Nat.succ_sub h, List.range'_1_concat, List.countP_append, List.countP_singleton,
    Nat.add_sub_cancel' h]

theorem turns_mono {m' : Nat} (h : n ≤ m) (hm : m ≤ m') :
    turns picks i n m ≤ turns picks i n m' := by
  induction m', hm using Nat.le_induction with
  | base => exact Nat.le_refl _
  | succ m' hm ih =>
    rw [turns_succ picks i (Nat.le_trans h hm)]
    omega

/-- The turn with the number `l` is at some time. -/
theorem exists_turn {l : Nat} (hnm : n ≤ m) (hl : l < turns picks i n m) :
    ∃ r, n ≤ r ∧ r < m ∧ picks r = .work i ∧ turns picks i n r = l := by
  induction m, hnm using Nat.le_induction with
  | base =>
    rw [turns_self] at hl
    omega
  | succ m hnm ih =>
    by_cases hm : l < turns picks i n m
    · obtain ⟨r, hnr, hrm, hp, hr⟩ := ih hm
      exact ⟨r, hnr, Nat.lt_succ_of_lt hrm, hp, hr⟩
    · rw [turns_succ picks i hnm] at hl
      have hp : (picks m).isOf i = true := by
        by_contra hp
        rw [if_neg hp] at hl
        exact hm hl
      rw [if_pos hp] at hl
      exact ⟨m, hnm, Nat.lt_succ_self m, Pick.isOf_iff.mp hp, by omega⟩

end

/-- In whatever world, the strand's next state is `s'`. -/
def Strand.Then (code : Behaviour σ ε α) (s s' : Strand σ ε α) : Prop :=
  ∀ c : Crew σ ε α, ((c.machine s).step code).strand = s'

namespace Crew

section

variable (c : Crew σ ε α) (code : Behaviour σ ε α) (picks : Nat → Pick σ ε α) (i : Nat)

/-- From `n` on the strand `i` goes through the states, one for each of its turns. -/
def Follows (n : Nat) (states : List (Strand σ ε α)) : Prop :=
  ∀ m, n ≤ m → ∀ s, states[turns picks i n m]? = some s →
    (c.after code picks m).strands[i]? = some s

theorem own_of_other {β : Type} {pick : Pick σ ε α} (h : pick.isOf i = false)
    (f : Machine σ ε α → List β) : c.own i pick f = [] := by
  cases pick with
  | start p => rfl
  | work j => exact if_neg fun hj => by simp [Pick.isOf, hj] at h

end

variable {c : Crew σ ε α} {code : Behaviour σ ε α} {picks : Nat → Pick σ ε α} {i n m : Nat}
  {s : Strand σ ε α} {states : List (Strand σ ε α)}

theorem follows_of_chain (hs : (c.after code picks n).strands[i]? = some s)
    (hchain : (s :: states).IsChain (Strand.Then code)) :
    c.Follows code picks i n (s :: states) := by
  intro m hnm
  induction m, hnm using Nat.le_induction with
  | base =>
    intro s' hs'
    rw [turns_self] at hs'
    cases hs'
    exact hs
  | succ m hnm ih =>
    intro s' hs'
    rw [turns_succ picks i hnm] at hs'
    cases hp : (picks m).isOf i with
    | false =>
      rw [hp, if_neg Bool.false_ne_true, Nat.add_zero] at hs'
      have hm := ih s' hs'
      rcases own_cases code hm (picks m) with ⟨hpm, -, -⟩ | ⟨-, hnext, -⟩
      · rw [Pick.isOf_iff.mpr hpm] at hp
        cases hp
      · exact hnext
    | true =>
      rw [hp, if_pos rfl] at hs'
      obtain ⟨hlt, hget⟩ := List.getElem?_eq_some_iff.mp hs'
      have hm := ih _ (List.getElem?_eq_getElem (Nat.lt_of_succ_lt hlt))
      have hthen := List.isChain_iff_getElem.mp hchain (turns picks i n m) hlt
      rcases own_cases code hm (picks m) with ⟨-, hnext, -⟩ | ⟨hpm, -, -⟩
      · rw [after, hnext, hthen, hget]
      · exact absurd (Pick.isOf_iff.mp hp) hpm

namespace Follows

variable (h : c.Follows code picks i n states)
include h

theorem exists_mem (hnm : n ≤ m) (hlt : turns picks i n m < states.length) :
    ∃ s ∈ states, (c.after code picks m).strands[i]? = some s :=
  ⟨_, List.getElem_mem hlt, h m hnm _ (List.getElem?_eq_getElem hlt)⟩

/-- What the states give, one for each turn, is what the strand gives. -/
theorem own_eq {β : Type} (g : Strand σ ε α → List β) (hnm : n ≤ m)
    (hle : turns picks i n m ≤ states.length) :
    during (fun l => (c.after code picks l).own i (picks l) fun m => g m.strand) n m =
      (states.take (turns picks i n m)).flatMap g := by
  induction m, hnm using Nat.le_induction with
  | base =>
    rw [during_self, turns_self]
    rfl
  | succ m hnm ih =>
    rw [turns_succ picks i hnm] at hle
    rw [during_succ _ hnm, turns_succ picks i hnm]
    cases hp : (picks m).isOf i with
    | false =>
      rw [hp, if_neg Bool.false_ne_true, Nat.add_zero] at hle
      rw [ih hle, own_of_other _ i hp, List.append_nil, if_neg Bool.false_ne_true, Nat.add_zero]
    | true =>
      rw [hp, if_pos rfl] at hle
      have hget := List.getElem?_eq_getElem (show turns picks i n m < states.length by omega)
      rcases own_cases code (h m hnm _ hget) (picks m) with ⟨-, -, hown⟩ | ⟨hpm, -, -⟩
      · rw [ih (Nat.le_of_succ_le hle), hown, if_pos rfl, List.take_add_one, hget, List.flatMap_append]
        exact congrArg _ (List.append_nil _).symm
      · exact absurd (Pick.isOf_iff.mp hp) hpm

end Follows
end Crew
end EventBus
