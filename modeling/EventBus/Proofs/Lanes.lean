import EventBus.Proofs.Moves
import Mathlib.Data.Nat.Init

/-!
# Lanes

A lane is empty, or waits for a drain, or is drained with at most one delivery at work. What is
appended to it since it was empty is what was taken from it and then what is pending, in this order.
-/

namespace EventBus

variable {α : Type}

inductive Lane (α : Type) where
  | empty
  | waiting (pending : List (Delivery α))
  | busy (pending : List (Delivery α)) (atWork : Option (Delivery α))

namespace Lane

def pending : Lane α → List (Delivery α)
  | empty => []
  | waiting ds => ds
  | busy ds _ => ds

/-- What a lane shows when all its frames are seen. -/
def share : Lane α → Share α
  | empty => ⟨none, 0, []⟩
  | waiting ds => ⟨some ⟨ds, false⟩, 0, []⟩
  | busy ds d? => ⟨some ⟨ds, true⟩, 1, d?.toList⟩

def ofShare : Share α → Lane α
  | ⟨none, _, _⟩ => empty
  | ⟨some ⟨ds, false⟩, _, _⟩ => waiting ds
  | ⟨some ⟨ds, true⟩, _, a⟩ => busy ds a.head?

theorem ofShare_share (l : Lane α) : ofShare l.share = l := by
  cases l with
  | empty => rfl
  | waiting ds => rfl
  | busy ds d? => cases d? <;> rfl

theorem eq_empty_iff {l : Lane α} : l = empty ↔ l.share.entry = none := by
  cases l <;> simp [share]

theorem pending_eq {l : Lane α} {q : ThreadQueue α} (h : l.share.entry = some q) :
    l.pending = q.pending := by
  cases l with
  | empty => cases h
  | waiting ds => cases h; rfl
  | busy ds d? => cases h; rfl

theorem working_length_le (l : Lane α) : l.share.working.length ≤ 1 := by
  cases l with
  | empty => exact Nat.zero_le 1
  | waiting ds => exact Nat.zero_le 1
  | busy ds d? => cases d? <;> simp [share]

/-- The turns of a lane, with the deliveries that are appended, taken and dropped. -/
inductive Turn :
    List (Delivery α) → List (Delivery α) → List (Delivery α) → Lane α → Lane α → Prop
  | stay (l : Lane α) : Turn [] [] [] l l
  | opened (ds : List (Delivery α)) : Turn ds [] [] empty (waiting ds)
  | start (ds : List (Delivery α)) : Turn ds [] [] empty (busy ds none)
  | claim (ps ds : List (Delivery α)) : Turn ds [] [] (waiting ps) (busy (ps ++ ds) none)
  | append (ps ds : List (Delivery α)) : Turn ds [] [] (waiting ps) (waiting (ps ++ ds))
  | nest (ps ds : List (Delivery α)) (d? : Option (Delivery α)) :
      Turn ds [] [] (busy ps d?) (busy (ps ++ ds) d?)
  | take (d : Delivery α) (ds : List (Delivery α)) :
      Turn [] [d] [] (busy (d :: ds) none) (busy ds (some d))
  | leave (ds : List (Delivery α)) (d : Delivery α) :
      Turn [] [] [] (busy ds (some d)) (busy ds none)
  | finish : Turn [] [] [] (busy [] none) empty
  | abandon (ds : List (Delivery α)) : Turn [] [] ds (busy ds none) empty

section

variable {n k k' : Nat} {e e' : Option (ThreadQueue α)} {front back a a' : List (Delivery α)}

/-- A drain that is seen is the only one, and takes and closes only with nothing at work. -/
theorem share_of_drain {l : Lane α} (hn : front.length + back.length ≤ n) (ha : a.length ≤ k)
    (hl : l.share = ⟨e, n + (k + 1), front ++ a ++ back⟩) :
    ∃ ds, l = busy ds none ∧ e = some ⟨ds, true⟩ ∧ n = 0 ∧ k = 0 ∧ front = [] ∧ a = [] ∧ back = [] := by
  cases l with
  | empty => simp [share] at hl
  | waiting ds => simp [share] at hl
  | busy ds d? =>
    simp only [share, Share.mk.injEq] at hl
    obtain ⟨rfl, hk, hw⟩ := hl
    obtain rfl : n = 0 := by omega
    obtain rfl : k = 0 := by omega
    obtain rfl := List.eq_nil_of_length_eq_zero (show front.length = 0 by omega)
    obtain rfl := List.eq_nil_of_length_eq_zero (show back.length = 0 by omega)
    obtain rfl := List.eq_nil_of_length_eq_zero (show a.length = 0 by omega)
    cases d? with
    | none => exact ⟨ds, rfl, rfl, rfl, rfl, rfl, rfl, rfl⟩
    | some d => cases hw

/-- A move of one machine among others is a turn of the lane. -/
theorem turn_of_move {l : Lane α} {ds ts xs : List (Delivery α)}
    (h : Share.Move ds ts xs ⟨e, k, a⟩ ⟨e', k', a'⟩) (hn : front.length + back.length ≤ n)
    (hl : l.share = ⟨e, n + k, front ++ a ++ back⟩) :
    ∃ l', Turn ds ts xs l l' ∧ l'.share = ⟨e', n + k', front ++ a' ++ back⟩ := by
  cases h with
  | stay _ => exact ⟨l, .stay l, hl⟩
  | append _ _ _ hds =>
    cases l with
    | empty =>
      simp only [share, Share.mk.injEq] at hl
      obtain ⟨rfl, hk, hw⟩ := hl
      exact ⟨_, .opened ds, by rw [← hk, ← hw]; rfl⟩
    | waiting ps =>
      simp only [share, Share.mk.injEq] at hl
      obtain ⟨rfl, hk, hw⟩ := hl
      exact ⟨_, .append ps ds, by rw [← hk, ← hw]; rfl⟩
    | busy ps d? =>
      simp only [share, Share.mk.injEq] at hl
      obtain ⟨rfl, hk, hw⟩ := hl
      exact ⟨_, .nest ps ds d?, by rw [← hk, ← hw]; rfl⟩
  | claim _ _ hidle =>
    cases l with
    | empty =>
      simp only [share, Share.mk.injEq] at hl
      obtain ⟨rfl, hk, hw⟩ := hl
      exact ⟨_, .start ds, by rw [← Nat.add_assoc, ← hk, ← hw]; rfl⟩
    | waiting ps =>
      simp only [share, Share.mk.injEq] at hl
      obtain ⟨rfl, hk, hw⟩ := hl
      exact ⟨_, .claim ps ds, by rw [← Nat.add_assoc, ← hk, ← hw]; rfl⟩
    | busy ps d? =>
      simp only [share, Share.mk.injEq] at hl
      obtain ⟨rfl, -, -⟩ := hl
      cases hidle
  | take d ds r ha =>
    obtain ⟨ps, rfl, he, rfl, rfl, rfl, rfl, rfl⟩ := share_of_drain hn ha hl
    cases he
    exact ⟨_, .take d ds, rfl⟩
  | leave _ _ d a =>
    cases l with
    | empty => simp [share] at hl
    | waiting ps => simp [share] at hl
    | busy ps d? =>
      simp only [share, Share.mk.injEq] at hl
      obtain ⟨rfl, hk, hw⟩ := hl
      cases d? with
      | none => simp at hw
      | some c =>
        have hlen := congrArg List.length hw
        simp only [Option.toList_some, List.length_append, List.length_cons, List.length_nil] at hlen
        obtain rfl := List.eq_nil_of_length_eq_zero (show front.length = 0 by omega)
        obtain rfl := List.eq_nil_of_length_eq_zero (show back.length = 0 by omega)
        obtain rfl := List.eq_nil_of_length_eq_zero (show a'.length = 0 by omega)
        cases hw
        exact ⟨_, .leave ps d, by rw [← hk]; rfl⟩
  | finish hempty ha =>
    obtain ⟨ps, rfl, rfl, rfl, rfl, rfl, rfl, rfl⟩ := share_of_drain hn ha hl
    obtain rfl : ps = [] := hempty _ rfl
    exact ⟨_, .finish, rfl⟩
  | abandon _ ha =>
    obtain ⟨ps, rfl, rfl, rfl, rfl, rfl, rfl, rfl⟩ := share_of_drain hn ha hl
    exact ⟨_, .abandon ps, rfl⟩

end

namespace Turn

variable {ds ts xs : List (Delivery α)} {l l' : Lane α}

theorem conserves (h : Turn ds ts xs l l') : l.pending ++ ds = ts ++ xs ++ l'.pending := by
  cases h <;> simp [pending]

theorem dropped_of_filled (h : Turn ds ts xs l l') (hl : l' ≠ .empty) : xs = [] := by
  cases h with
  | abandon _ => exact absurd rfl hl
  | _ => rfl

/-- A delivery comes to work when it is taken, and only with no other at work. -/
theorem working_cases (h : Turn ds ts xs l l') :
    (ts = [] ∧ (l'.share.working = l.share.working ∨ l'.share.working = [])) ∨
      ∃ d, ts = [d] ∧ l.share.working = [] ∧ l'.share.working = [d] := by
  cases h with
  | take d ds => exact .inr ⟨d, rfl, rfl, rfl⟩
  | leave _ _ => exact .inl ⟨rfl, .inr rfl⟩
  | _ => exact .inl ⟨rfl, .inl rfl⟩

/-- While a delivery is at work nothing is taken or dropped. -/
theorem of_at_work {ps : List (Delivery α)} {d : Delivery α}
    (h : Turn ds ts xs (.busy ps (some d)) l') : ts = [] ∧ xs = [] ∧ l'.pending = ps ++ ds := by
  cases h with
  | stay _ => exact ⟨rfl, rfl, (List.append_nil _).symm⟩
  | nest _ _ _ => exact ⟨rfl, rfl, rfl⟩
  | leave _ _ => exact ⟨rfl, rfl, (List.append_nil _).symm⟩

theorem pending_of_taken (h : Turn ds ts xs l l') {d : Delivery α} (ht : ts = [d]) :
    ∃ ps, l.pending = d :: ps := by
  cases h with
  | take c ps => cases ht; exact ⟨ps, rfl⟩
  | _ => cases ht

end Turn
end Lane

/-! ## Histories -/

def during {β : Type} (f : Nat → List β) (i n : Nat) : List β := (List.range' i (n - i)).flatMap f

theorem during_self {β : Type} (f : Nat → List β) (i : Nat) : during f i i = [] := by
  rw [during, Nat.sub_self]
  rfl

theorem during_succ {β : Type} (f : Nat → List β) {i n : Nat} (h : i ≤ n) :
    during f i (n + 1) = during f i n ++ f n := by
  rw [during, during, Nat.succ_sub h, List.range'_1_concat, List.flatMap_append,
    List.flatMap_singleton, Nat.add_sub_cancel' h]

theorem during_append {β : Type} (f : Nat → List β) {i j n : Nat} (hij : i ≤ j) (hjn : j ≤ n) :
    during f i n = during f i j ++ during f j n := by
  induction n, hjn using Nat.le_induction with
  | base => rw [during_self, List.append_nil]
  | succ n hjn ih => rw [during_succ f (Nat.le_trans hij hjn), during_succ f hjn, ih, List.append_assoc]

theorem during_congr {β : Type} {f g : Nat → List β} {i n : Nat}
    (h : ∀ m, i ≤ m → m < n → f m = g m) : during f i n = during g i n := by
  rw [during, during, List.flatMap_def, List.flatMap_def, List.map_congr_left]
  intro m hm
  obtain ⟨him, hmn⟩ := List.mem_range'_1.mp hm
  exact h m him (by omega)

theorem during_map {β γ : Type} (g : β → γ) (f : Nat → List β) (i n : Nat) :
    (during f i n).map g = during (fun m => (f m).map g) i n :=
  List.map_flatMap

theorem during_filter {β : Type} (p : β → Bool) (f : Nat → List β) (i n : Nat) :
    (during f i n).filter p = during (fun m => (f m).filter p) i n :=
  List.filter_flatMap

theorem during_filterMap {β γ : Type} (g : β → Option γ) (f : Nat → List β) (i n : Nat) :
    (during f i n).filterMap g = during (fun m => (f m).filterMap g) i n :=
  List.filterMap_flatMap

namespace Lane

/-- The lane was empty at `i`, and not again up to `n`. -/
structure Since (lane : Nat → Lane α) (i n : Nat) : Prop where
  lt : i < n
  empty : lane i = .empty
  filled : ∀ j, i < j → j ≤ n → lane j ≠ .empty

theorem exists_since {lane : Nat → Lane α} (h₀ : lane 0 = .empty) {n : Nat} (hn : lane n ≠ .empty) :
    ∃ i, Since lane i n := by
  induction n with
  | zero => exact absurd h₀ hn
  | succ n ih =>
    by_cases h : lane n = .empty
    · refine ⟨n, Nat.lt_succ_self n, h, fun j hj hjn => ?_⟩
      rwa [show j = n + 1 by omega]
    · obtain ⟨i, hi⟩ := ih h
      refine ⟨i, Nat.lt_succ_of_lt hi.lt, hi.empty, fun j hij hjn => ?_⟩
      rcases Nat.lt_or_eq_of_le hjn with hj | rfl
      · exact hi.filled j hij (Nat.le_of_lt_succ hj)
      · exact hn

section

variable {appended taken dropped : Nat → List (Delivery α)} {lane : Nat → Lane α}
  (h : ∀ n, Turn (appended n) (taken n) (dropped n) (lane n) (lane (n + 1)))
include h

/-- While nothing is dropped, what is pending and what is appended are taken or pending in the end. -/
theorem conserved {i n : Nat} (hin : i ≤ n) (hx : ∀ m, i ≤ m → m < n → dropped m = []) :
    (lane i).pending ++ during appended i n = during taken i n ++ (lane n).pending := by
  induction n, hin using Nat.le_induction with
  | base => rw [during_self, during_self, List.append_nil, List.nil_append]
  | succ n hin ih =>
    have hc := (h n).conserves
    rw [hx n hin (Nat.lt_succ_self n), List.append_nil] at hc
    rw [during_succ _ hin, during_succ _ hin, ← List.append_assoc,
      ih fun m him hmn => hx m him (Nat.lt_succ_of_lt hmn), List.append_assoc, hc,
      List.append_assoc]

/-- What was appended since the lane was empty is what was taken and then what is pending. -/
theorem fifo {i n m : Nat} (hi : Since lane i n) (him : i ≤ m) (hmn : m ≤ n) :
    during appended i m = during taken i m ++ (lane m).pending := by
  have hc := conserved h him fun j hij hjm => (h j).dropped_of_filled
    (hi.filled (j + 1) (Nat.lt_succ_of_le hij) (Nat.le_trans hjm hmn))
  rwa [hi.empty] at hc

theorem taken_last {i n m : Nat} (hi : Since lane i n) (him : i ≤ m) (hmn : m ≤ n)
    {d : Delivery α} (hd : (lane m).share.working = [d]) :
    ∃ front, during taken i m = front ++ [d] := by
  induction m, him using Nat.le_induction with
  | base =>
    rw [hi.empty] at hd
    cases hd
  | succ m him ih =>
    rw [during_succ _ him]
    rcases (h m).working_cases with ⟨ht, hw | hw⟩ | ⟨c, ht, -, hw⟩
    · rw [hw] at hd
      rw [ht, List.append_nil]
      exact ih (Nat.le_of_succ_le hmn) hd
    · rw [hw] at hd
      cases hd
    · rw [hw] at hd
      cases hd
      exact ⟨_, by rw [ht]⟩

theorem busy_since (h₀ : lane 0 = .empty) {n : Nat} {lost : List (Delivery α)} {d : Delivery α}
    (hn : lane n = .busy lost (some d)) :
    ∃ i front, Since lane i n ∧ during taken i n = front ++ [d] ∧
      during appended i n = front ++ [d] ++ lost := by
  have hfilled : lane n ≠ .empty := fun hl => by
    rw [hn] at hl
    cases hl
  obtain ⟨i, hi⟩ := exists_since h₀ hfilled
  have hle := Nat.le_of_lt hi.lt
  obtain ⟨front, hfront⟩ := taken_last h hi hle (Nat.le_refl n) (d := d) (by rw [hn]; rfl)
  have hfifo := fifo h hi hle (Nat.le_refl n)
  rw [hfront, hn] at hfifo
  exact ⟨i, front, hi, hfront, hfifo⟩

/-- A delivery is taken after all that were appended before it, and with no other at work. -/
theorem taken_in_turn {i n j k : Nat} (hi : Since lane i n) (hij : i ≤ j) (hjn : j < n)
    (hik : i ≤ k) (hkn : k < n) {us vs : List (Delivery α)} {c d : Delivery α}
    (hj : appended j = us ++ d :: vs) (hk : taken k = [c])
    (hlen : (during taken i k).length = (during appended i j ++ us).length) :
    c = d ∧ j < k ∧ (lane k).share.working = [] ∧
      during taken i k = during appended i j ++ us := by
  have happ : during appended i n =
      (during appended i j ++ us) ++ (d :: vs ++ during appended (j + 1) n) := by
    rw [during_append appended hij (Nat.le_of_lt hjn),
      during_append appended (Nat.le_succ j) hjn, during_succ appended (Nat.le_refl j), during_self,
      hj]
    simp only [List.nil_append, List.append_assoc]
  have htake : during appended i n =
      during taken i k ++ (c :: (during taken (k + 1) n ++ (lane n).pending)) := by
    rw [fifo h hi (Nat.le_of_lt hi.lt) (Nat.le_refl n),
      during_append taken hik (Nat.le_of_lt hkn), during_append taken (Nat.le_succ k) hkn,
      during_succ taken (Nat.le_refl k), during_self, hk]
    simp only [List.nil_append, List.append_assoc, List.cons_append]
  obtain ⟨heq, hrest⟩ := List.append_inj (htake.symm.trans happ) hlen
  have hcd : c = d := by
    rw [List.cons_append, List.cons.injEq] at hrest
    exact hrest.1
  have hw : (lane k).share.working = [] := by
    rcases (h k).working_cases with ⟨ht, -⟩ | ⟨_, -, hw, -⟩
    · rw [hk] at ht
      cases ht
    · exact hw
  refine ⟨hcd, Nat.lt_of_not_le fun hkj => ?_, hw, heq⟩
  -- What is pending at `k` was appended before `j`, so more was appended by then than is taken.
  obtain ⟨ps, hps⟩ := (h k).pending_of_taken hk
  have hfifo := congrArg List.length (fifo h hi hik (Nat.le_of_lt hkn))
  have hle := congrArg List.length (during_append appended hik hkj)
  rw [List.length_append, hps, List.length_cons] at hfifo
  rw [List.length_append] at hlen hle
  omega

theorem closed {i n : Nat} (hi : Since lane i n) (hn : lane (n + 1) = .empty) :
    during appended i (n + 1) = during taken i (n + 1) ++ dropped n := by
  have hc := (h n).conserves
  rw [hn, show (empty : Lane α).pending = [] from rfl, List.append_nil] at hc
  have hin := Nat.le_of_lt hi.lt
  rw [during_succ _ hin, during_succ _ hin, fifo h hi hin (Nat.le_refl n),
    List.append_assoc, hc, List.append_assoc]

/-- Nothing is taken after the lane was empty but what is appended after. -/
theorem taken_sublist {i n : Nat} (hi : lane i = .empty) (hin : i ≤ n) :
    (during taken i n ++ (lane n).pending).Sublist (during appended i n) := by
  induction n, hin using Nat.le_induction with
  | base =>
    rw [during_self, during_self, hi]
    exact List.Sublist.refl _
  | succ n hin ih =>
    rw [during_succ _ hin, during_succ _ hin]
    refine List.Sublist.trans ?_ (ih.append_right (appended n))
    rw [List.append_assoc, List.append_assoc, (h n).conserves, List.append_assoc]
    exact ((List.sublist_append_right _ _).append_left _).append_left _

end

end Lane
end EventBus
