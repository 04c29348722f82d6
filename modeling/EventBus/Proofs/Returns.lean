import EventBus.Proofs.Accounts

/-!
# Posts that return

A post stays on the stack of its strand until it returns. If no report is left by a panic meanwhile,
no panic comes to its loop, and the post returns normally.
-/

namespace EventBus

variable {σ ε α : Type}

namespace Strand

/-- The strand works on a loop of `t` on the stack `k`, under which `next` waits. -/
def Loops (t : ThreadId) (next : Program σ ε α) (k : List (Frame σ ε α)) (s : Strand σ ε α) : Prop :=
  (∃ fs f, s.stack = fs ++ f :: .resume next :: k ∧ f.loop?.isSome = true ∧
      ground s.thread fs = t) ∨
    s = ⟨t, .returned .done, .resume next :: k⟩

/-- The strand works on a post that `t` made on the stack `k` and that goes on with `next`: on its
loop, or on the post of the dead event in the place of its event. -/
inductive Serves (t : ThreadId) (next : Program σ ε α) (k : List (Frame σ ε α)) :
    Strand σ ε α → Prop
  | loops {s : Strand σ ε α} : Loops t next k s → Serves t next k s
  | burying (b : BusId) (e : Event α) : Serves t next k ⟨t, .run (.bury b e), .resume next :: k⟩
  | buries {s : Strand σ ε α} : Loops t (.finish .done) (.resume next :: k) s → Serves t next k s
  | buried : Serves t next k ⟨t, .run (.finish .done), .resume next :: k⟩

variable {w : World σ ε α} {s s' : Strand σ ε α} {t : ThreadId} {next : Program σ ε α}
  {k : List (Frame σ ε α)}

theorem Loops.above (h : Loops t next k s) : ∃ fs, s.stack = fs ++ .resume next :: k := by
  rcases h with ⟨fs, f, hs, -, -⟩ | rfl
  · exact ⟨fs ++ [f], by rw [hs, List.append_assoc]; rfl⟩
  · exact ⟨[], rfl⟩

/-- Until a post is over what goes on after it waits on the stack. -/
theorem Serves.above (h : Serves t next k s) : ∃ fs, s.stack = fs ++ .resume next :: k := by
  cases h with
  | loops h => exact h.above
  | buries h =>
    obtain ⟨fs, hs⟩ := h.above
    exact ⟨fs ++ [.resume (.finish .done)], by rw [hs, List.append_assoc]; rfl⟩
  | burying b e => exact ⟨[], rfl⟩
  | buried => exact ⟨[], rfl⟩

theorem Serves.length (h : Serves t next k s) : k.length < s.stack.length := by
  obtain ⟨fs, hs⟩ := h.above
  rw [hs, List.length_append, List.length_cons]
  omega

theorem Step.finish {x : Ending} (h : Step w ⟨t, .run (.finish x), k⟩ s) :
    s = ⟨t, .returned x, k⟩ := by
  cases h with
  | finished => rfl
  | asked _ hf _ => exact absurd rfl (hf x)
  | draining _ hp =>
    rcases hp with ⟨e, hp, -⟩ | hp
    · cases hp
    · cases hp
  | halted hc | settled hc | caught hc | joined hc => exact hc.elim

/-- A post is passed, since a dead event has nobody to go to or a drain is under way, or its loop
starts, or it buries its event. -/
theorem Step.post {b : BusId} {e : Event α} (h : Step w ⟨t, .run (.post b e next), k⟩ s) :
    s = ⟨t, .run next, k⟩ ∨ Loops t next k s ∨
      (e.type ≠ .dead ∧ s = ⟨t, .run (.bury b e), .resume next :: k⟩) := by
  cases h with
  | asked hp _ _ => exact absurd rfl (hp b e next)
  | dropped _ _ => exact .inl rfl
  | buried _ hd => exact .inr (.inr ⟨hd, rfl⟩)
  | passed _ _ => exact .inl rfl
  | handing _ _ _ => exact .inr (.inl (.inl ⟨[], _, rfl, rfl, rfl⟩))
  | draining _ hp =>
    rcases hp with ⟨e', hp, -⟩ | hp
    · cases hp
      exact .inr (.inl (.inl ⟨[], _, rfl, rfl, rfl⟩))
    · cases hp
  | halted hc | settled hc | caught hc | joined hc => exact hc.elim

theorem Loops.step (h : Loops t next k s) (hb : s.breaks = false) (hs : Step w s s') :
    s' = ⟨t, .run next, k⟩ ∨ Loops t next k s' := by
  rcases h with ⟨fs, f, hstack, hf, ht⟩ | rfl
  · by_cases habove : fs ≠ [] ∨ ¬s.control.Rests
    · obtain ⟨fs', hstack', ht'⟩ := hs.above hstack habove
      exact .inr (.inl ⟨fs', f, hstack', hf, ht'.trans ht⟩)
    · -- The loop is on top and goes on.
      obtain ⟨hfs, hrests⟩ := not_or.mp habove
      obtain rfl := not_not.mp hfs
      obtain ⟨u, c, k'⟩ := s
      obtain rfl : k' = f :: .resume next :: k := hstack
      obtain rfl : u = t := ht
      cases hs with
      | handed => exact .inr (.inr rfl)
      | drained _ => exact .inr (.inr rfl)
      | hands => exact .inr (.inl ⟨[], _, rfl, rfl, rfl⟩)
      | takes _ => exact .inr (.inl ⟨[], _, rfl, rfl, rfl⟩)
      | unwound _ => exact absurd hf (Bool.eq_false_iff.mp hb)
      | resumed | reported | settled _ | caught _ | joined _ => cases hf
      | _ => exact (hrests id).elim
  · cases hs with
    | resumed => exact .inl rfl

theorem Serves.step (h : Serves t next k s) (hb : s.breaks = false) (hs : Step w s s') :
    s' = ⟨t, .run next, k⟩ ∨ Serves t next k s' := by
  cases h with
  | loops h => exact (h.step hb hs).imp id .loops
  | burying b e =>
    -- A dead event is not buried again.
    rcases hs.post with rfl | h | ⟨hd, -⟩
    · exact .inr .buried
    · exact .inr (.buries h)
    · exact absurd rfl hd
  | buries h =>
    rcases h.step hb hs with rfl | h
    · exact .inr .buried
    · exact .inr (.buries h)
  | buried =>
    rw [hs.finish]
    exact .inr (.loops (.inr rfl))

end Strand

/-- What goes on from one step to the next, or ends, goes on to the last step or has ended before. -/
theorem ends_or_lasts {ends lasts : Nat → Prop} {r n : Nat} (hrn : r < n)
    (start : ends (r + 1) ∨ lasts (r + 1))
    (step : ∀ m, r < m → m < n → lasts m → ends (m + 1) ∨ lasts (m + 1)) :
    (∃ q, r < q ∧ q ≤ n ∧ ends q ∧ ∀ m, r < m → m < q → lasts m) ∨
      ∀ m, r < m → m ≤ n → lasts m := by
  induction n, hrn using Nat.le_induction with
  | base =>
    rcases start with hends | hlasts
    · exact .inl ⟨r + 1, Nat.lt_succ_self r, Nat.le_refl _, hends, fun m hrm hmr => by omega⟩
    · refine .inr fun m hrm hmr => ?_
      obtain rfl : m = r + 1 := by omega
      exact hlasts
  | succ n hrn ih =>
    rcases ih fun m hrm hmn => step m hrm (Nat.lt_succ_of_lt hmn) with ⟨q, hrq, hqn, hq⟩ | hlasts
    · exact .inl ⟨q, hrq, Nat.le_succ_of_le hqn, hq⟩
    · rcases step n hrn (Nat.lt_succ_self n) (hlasts n hrn (Nat.le_refl n)) with hends | hnext
      · exact .inl ⟨n + 1, Nat.lt_succ_of_lt hrn, Nat.le_refl _, hends, fun m hrm hmn =>
          hlasts m hrm (Nat.le_of_lt_succ hmn)⟩
      · refine .inr fun m hrm hmn => ?_
        rcases Nat.eq_or_lt_of_le hmn with rfl | hmn
        · exact hnext
        · exact hlasts m hrm (Nat.le_of_lt_succ hmn)

namespace Crew

section

variable (c : Crew σ ε α) (code : Behaviour σ ε α) (picks : Nat → Pick σ ε α) (i : Nat)

/-- Between the steps `j` and `n` no panic leaves a report of the strand. -/
def Contained (j n : Nat) : Prop :=
  ∀ m, j < m → m < n → ∀ s, (c.after code picks m).strands[i]? = some s → s.escapes = false

variable {c code picks i} {j n : Nat} {t : ThreadId} {p : Program σ ε α} {k : List (Frame σ ε α)}

theorem Contained.mono {j' n' : Nat} (h : Contained c code picks i j n) (hj : j ≤ j') (hn : n' ≤ n) :
    Contained c code picks i j' n' :=
  fun m hjm hmn => h m (Nat.lt_of_le_of_lt hj hjm) (Nat.lt_of_lt_of_le hmn hn)

theorem Contained.of_escapes
    (h : ∀ m < n, ((c.after code picks m).strands[i]?.map (·.escapes)).getD false = false) :
    Contained c code picks i j n := by
  intro m _ hmn s hs
  have he := h m hmn
  rwa [hs] at he

/-- A strand whose reports are not left by panics has no loop that is. -/
theorem Contained.unbroken (hq : Contained c code picks i j n) (hd : c.Docked)
    (hs : (c.after code picks j).strands[i]? = some ⟨t, .run p, k⟩) {m : Nat} (hjm : j ≤ m)
    (hmn : m ≤ n) {s : Strand σ ε α} (hm : (c.after code picks m).strands[i]? = some s) :
    s.breaks = false := by
  induction m, hjm using Nat.le_induction generalizing s with
  | base =>
    rw [hs] at hm
    cases hm
    rfl
  | succ m hjm ih =>
    obtain ⟨s₁, hs₁⟩ := strand_after c code picks hjm hs
    rcases own_cases code hs₁ (picks m) with ⟨-, h, -⟩ | ⟨-, h, -⟩
    · rw [after, h] at hm
      cases hm
      have he : s₁.escapes = false := by
        rcases Nat.eq_or_lt_of_le hjm with rfl | hjm
        · rw [hs] at hs₁
          cases hs₁
          rfl
        · exact hq m hjm hmn s₁ hs₁
      refine Bool.eq_false_iff.mpr fun hb => ?_
      have hdocked := hd.after code picks m s₁ (List.mem_of_getElem? hs₁)
      rw [(hdocked.breaks_from (strand_step code _ s₁) hb).1] at he
      cases he
    · rw [after, h] at hm
      cases hm
      exact ih (Nat.le_of_succ_le hmn) hs₁

section

variable {b : BusId} {e : Event α} {next : Program σ ε α} (hd : c.Docked) (hp : picks j = .work i)
  (hs : (c.after code picks j).strands[i]? = some ⟨t, .run (.post b e next), k⟩)
include hd hp hs

/-- Until it returns a strand works on its post. -/
theorem Contained.served (hq : Contained c code picks i j n) (hjn : j < n) :
    (∃ r, j < r ∧ r ≤ n ∧ (c.after code picks r).strands[i]? = some ⟨t, .run next, k⟩ ∧
        ∀ m, j < m → m < r → ∃ s, (c.after code picks m).strands[i]? = some s ∧
          s.Serves t next k) ∨
      ∀ m, j < m → m ≤ n → ∃ s, (c.after code picks m).strands[i]? = some s ∧
        s.Serves t next k := by
  refine ends_or_lasts hjn ?start fun m hjm hmn hserved => ?step
  case start =>
    rcases own_cases code hs (picks j) with ⟨-, h, -⟩ | ⟨hne, -⟩
    · rcases (strand_step code (c.after code picks j) _).post with hs' | hs' | ⟨-, hs'⟩
      · exact .inl (hs' ▸ h)
      · exact .inr ⟨_, h, .loops hs'⟩
      · exact .inr ⟨_, h, hs' ▸ .burying b e⟩
    · exact absurd hp hne
  case step =>
    obtain ⟨s, hs', hserves⟩ := hserved
    have hb := hq.unbroken hd hs (Nat.le_of_lt hjm) (Nat.le_of_lt hmn) hs'
    rcases own_cases code hs' (picks m) with ⟨-, h, -⟩ | ⟨-, h, -⟩
    · rcases hserves.step hb (strand_step code _ s) with hdone | hserves'
      · exact .inl (hdone ▸ h)
      · exact .inr ⟨_, h, hserves'⟩
    · exact .inr ⟨s, h, hserves⟩

/-- A post that does not stay on the stack for ever returns normally. -/
theorem Contained.returns (hq : Contained c code picks i j n) (hjn : j < n) {s : Strand σ ε α}
    (hn : (c.after code picks n).strands[i]? = some s) (hlen : s.stack.length ≤ k.length) :
    ∃ r, j < r ∧ r ≤ n ∧ (c.after code picks r).strands[i]? = some ⟨t, .run next, k⟩ ∧
      ∀ m, j < m → m < r → ∃ s, (c.after code picks m).strands[i]? = some s ∧
        s.Serves t next k := by
  rcases hq.served hd hp hs hjn with h | hserved
  · exact h
  · obtain ⟨s', hs', hserves⟩ := hserved n hjn (Nat.le_refl n)
    rw [hn] at hs'
    cases hs'
    exact absurd hserves.length (Nat.not_lt_of_le hlen)

end

end

end Crew
end EventBus
