import EventBus.Proofs.Owners
import EventBus.Proofs.Turns
import Mathlib.Data.List.Infix

/-!
# Panics on their way

A panic goes through programs, reports and loops, one for each turn of the strand, up to the first
frame that stops it. If that is a call, what the call was for learns of the panic; if it was a
delivery, a report follows. Meanwhile the delivery is at work, and nothing moves in its lane.
-/

namespace EventBus

variable {σ ε α : Type}

theorem ground_of_passes {t : ThreadId} {fs : List (Frame σ ε α)} (h : ∀ f ∈ fs, f.Passes) :
    ground t fs = t := by
  induction fs with
  | nil => rfl
  | cons f fs ih =>
    have hbelow : f.below t = t := by
      have hf := h f (List.mem_cons_self ..)
      cases f with
      | joined _ _ => cases hf
      | _ => rfl
    have ih := ih fun g hg => h g (List.mem_cons_of_mem f hg)
    rw [ground, List.foldl_cons, hbelow]
    exact ih

/-- A panic goes through the whole stack, or some frame stops it. -/
theorem passes_or_stops (k : List (Frame σ ε α)) : (∀ f ∈ k, f.Passes) ∨
    ∃ fs f k', k = fs ++ f :: k' ∧ (∀ g ∈ fs, g.Passes) ∧ ¬f.Passes := by
  induction k with
  | nil => exact .inl fun f hf => by cases hf
  | cons f k ih =>
    by_cases hf : f.Passes
    · rcases ih with hk | ⟨fs, g, k', rfl, hfs, hg⟩
      · exact .inl (List.forall_mem_cons.mpr ⟨hf, hk⟩)
      · exact .inr ⟨f :: fs, g, k', rfl, List.forall_mem_cons.mpr ⟨hf, hfs⟩, hg⟩
    · exact .inr ⟨[], f, k, rfl, List.forall_mem_nil _, hf⟩

namespace Strand

/-- The states of a panic on its way through `fs` to `k`. -/
def falls (t : ThreadId) (p : Panic) (fs k : List (Frame σ ε α)) : List (Strand σ ε α) :=
  fs.tails.map fun fs => ⟨t, .unwinding p, fs ++ k⟩

/-- The states of a panic on its way through `fs` to the call of `d` for the bus `a`, and up to the
report of it. -/
def caught (t : ThreadId) (p : Panic) (fs : List (Frame σ ε α)) (a : BusId) (d : Delivery α)
    (k : List (Frame σ ε α)) : List (Strand σ ε α) :=
  falls t p fs (.call ⟨d, .delivery a⟩ :: k) ++
    [⟨t, .settle ⟨d, .delivery a⟩ (.error (.panicked p.message)), k⟩,
      ⟨t, .report a d (.panicked p.message), k⟩]

section

variable {code : Behaviour σ ε α} {t : ThreadId} {p : Panic} {fs k : List (Frame σ ε α)}
  {a : BusId} {d : Delivery α}

theorem falls_eq_cons (t : ThreadId) (p : Panic) (fs k : List (Frame σ ε α)) :
    ∃ ss, falls t p fs k = ⟨t, .unwinding p, fs ++ k⟩ :: ss := by
  cases fs <;> exact ⟨_, rfl⟩

theorem length_falls : (falls t p fs k).length = fs.length + 1 := by
  rw [falls, List.length_map, List.length_tails]

theorem length_caught : (caught t p fs a d k).length = fs.length + 3 := by
  rw [caught, List.length_append, length_falls]
  rfl

theorem then_unwound {f : Frame σ ε α} (hf : f.Passes) :
    Then code ⟨t, .unwinding p, f :: k⟩ ⟨t, .unwinding p, k⟩ := by
  intro c
  cases f with
  | draining b owner =>
    have hthread := World.thread_abandon { c.world with thread := t } b owner
    simp only [Crew.machine, Machine.step, Machine.unwind, Machine.strand, hthread]
  | resume _ | report _ _ _ | handing _ _ _ => rfl
  | _ => cases hf

theorem then_stopped {f : Frame σ ε α} (hf : ¬f.Passes) :
    ∃ s, Then code ⟨t, .unwinding p, f :: k⟩ s ∧ ∀ q, s.control ≠ .unwinding q := by
  cases f with
  | call c =>
    exact ⟨⟨t, .settle c (.error (.panicked p.message)), k⟩, fun _ => rfl, fun _ h => by cases h⟩
  | guarded next => exact ⟨⟨t, .run (next (some p)), k⟩, fun _ => rfl, fun _ h => by cases h⟩
  | joined parent next =>
    exact ⟨⟨parent, .run (next (some p)), k⟩, fun _ => rfl, fun _ h => by cases h⟩
  | _ => exact absurd trivial hf

/-- What comes after the frames that a panic goes through. -/
theorem chain_falls (hfs : ∀ f ∈ fs, f.Passes) {ss : List (Strand σ ε α)}
    (h : ((⟨t, .unwinding p, k⟩ : Strand σ ε α) :: ss).IsChain (Then code)) :
    (falls t p fs k ++ ss).IsChain (Then code) := by
  induction fs with
  | nil => exact h
  | cons f fs ih =>
    have ih := ih fun g hg => hfs g (List.mem_cons_of_mem f hg)
    obtain ⟨ss', hss'⟩ := falls_eq_cons t p fs k
    have hcons : falls t p (f :: fs) k = ⟨t, .unwinding p, f :: (fs ++ k)⟩ :: falls t p fs k := rfl
    rw [hcons, List.cons_append]
    rw [hss'] at ih ⊢
    exact List.isChain_cons_cons.mpr ⟨then_unwound (hfs f (List.mem_cons_self ..)), ih⟩

theorem mem_falls {s : Strand σ ε α} (h : s ∈ falls t p fs k) :
    ∃ gs, gs <:+ fs ∧ s = ⟨t, .unwinding p, gs ++ k⟩ := by
  obtain ⟨gs, hgs, rfl⟩ := List.mem_map.mp h
  exact ⟨gs, (List.mem_tails _ _).mp hgs, rfl⟩

end

/-! ## What a stack holds -/

/-- The strand works on top of the stack `k` of `t`. -/
def Holds (t : ThreadId) (k : List (Frame σ ε α)) (s : Strand σ ε α) : Prop :=
  ∃ fs, s.stack = fs ++ k ∧ ground s.thread fs = t

section

variable {w : World σ ε α} {s s' : Strand σ ε α} {t : ThreadId} {k : List (Frame σ ε α)}
  {f : Frame σ ε α} {b : BusId} {d : Delivery α}

theorem Holds.length (h : s.Holds t k) : k.length ≤ s.stack.length := by
  obtain ⟨fs, hs, -⟩ := h
  rw [hs, List.length_append]
  omega

/-- What a strand holds it holds on, until it rests with it on top. -/
theorem Holds.step (h : s.Holds t (f :: k)) (hs : Step w s s') :
    s'.Holds t (f :: k) ∨ s.control.Rests ∧ s = ⟨t, s.control, f :: k⟩ := by
  obtain ⟨fs, hstack, ht⟩ := h
  by_cases habove : fs ≠ [] ∨ ¬s.control.Rests
  · obtain ⟨fs', hstack', ht'⟩ := hs.above hstack habove
    exact .inl ⟨fs', hstack', ht'.trans ht⟩
  · obtain ⟨hfs, hrests⟩ := not_or.mp habove
    obtain rfl := not_not.mp hfs
    obtain ⟨u, c, k'⟩ := s
    obtain rfl : k' = f :: k := hstack
    obtain rfl : u = t := ht
    exact .inr ⟨not_not.mp hrests, rfl⟩

theorem mem_working (hf : f.task? = some (b, d)) : ∀ (fs : List (Frame σ ε α)) (u : ThreadId),
    ground u fs = t → d ∈ EventBus.working b t u (fs ++ f :: k)
  | [], u, h => by
    obtain rfl : u = t := h
    simp [EventBus.working, hf, workOn]
  | g :: fs, u, h => List.mem_append_right _ (mem_working hf fs (g.below u) h)

theorem Holds.working (h : s.Holds t (f :: k)) (hf : f.task? = some (b, d)) : d ∈ s.working b t := by
  obtain ⟨fs, hstack, ht⟩ := h
  rw [Strand.working, hstack]
  exact List.mem_append_right _ (mem_working hf fs s.thread ht)

/-- From where a panic is caught up to the report the delivery is at work, and no program runs. -/
theorem of_mem_caught {p : Panic} {fs : List (Frame σ ε α)} (hfs : ∀ f ∈ fs, f.Passes)
    (h : s ∈ caught t p fs b d k) : d ∈ s.working b t ∧ ∀ q, s.control ≠ .run q := by
  rcases List.mem_append.mp h with h | h
  · obtain ⟨gs, hgs, rfl⟩ := mem_falls h
    have hground := ground_of_passes (t := t) fun g hg => hfs g (hgs.subset hg)
    exact ⟨Holds.working ⟨gs, rfl, hground⟩ rfl, fun _ h => by cases h⟩
  · obtain rfl | rfl : s = _ ∨ s = _ := by simpa using h
    · exact ⟨by simp [Strand.working, Control.task?, workOn], fun _ h => by cases h⟩
    · exact ⟨by simp [Strand.working, Control.task?, workOn], fun _ h => by cases h⟩

/-! ## Reports -/

theorem Step.report {e : HandlerError} (h : Step w ⟨t, .report b d e, k⟩ s) :
    s.Holds t (.report b d e :: k) ∨ s = ⟨t, .returned .done, k⟩ := by
  cases h with
  | consulted => exact .inl ⟨[], rfl, rfl⟩
  | kept => exact .inr rfl
  | halted hc | settled hc | caught hc | joined hc => exact hc.elim

/-- A report goes on, or returns, or is left by a panic. -/
theorem Holds.report {e : HandlerError} (h : s.Holds t (.report b d e :: k)) (hs : Step w s s') :
    s'.Holds t (.report b d e :: k) ∨ s' = ⟨t, .returned .done, k⟩ ∨
      ∃ p, s = ⟨t, .unwinding p, .report b d e :: k⟩ ∧ s' = ⟨t, .unwinding p, k⟩ := by
  rcases h.step hs with h | ⟨hrests, htop⟩
  · exact .inl h
  · rw [htop] at hs
    obtain ⟨x, hx⟩ | ⟨p, hp⟩ := hrests.cases
    · rw [hx] at hs
      cases hs with
      | reported => exact .inr (.inl rfl)
    · rw [hp] at hs htop
      cases hs with
      | unwound _ => exact .inr (.inr ⟨p, htop, rfl⟩)

end

end Strand

namespace Crew

section

variable {c : Crew σ ε α} {code : Behaviour σ ε α} {picks : Nat → Pick σ ε α} {i r n : Nat}
  {t : ThreadId} {b : BusId} {d : Delivery α} {e : HandlerError} {k : List (Frame σ ε α)}

/-- A report stays on the stack until it returns or a panic leaves it. -/
theorem reporting (hp : picks r = .work i)
    (hs : (c.after code picks r).strands[i]? = some ⟨t, .report b d e, k⟩) (hrn : r < n) :
    (∃ q, r < q ∧ q ≤ n ∧
        ((c.after code picks q).strands[i]? = some ⟨t, .returned .done, k⟩ ∨
          ∃ p j, r < j ∧ j < q ∧ picks j = .work i ∧
            (c.after code picks j).strands[i]? = some ⟨t, .unwinding p, .report b d e :: k⟩ ∧
            (c.after code picks q).strands[i]? = some ⟨t, .unwinding p, k⟩) ∧
        ∀ m, r < m → m < q → ∃ s, (c.after code picks m).strands[i]? = some s ∧
          s.Holds t (.report b d e :: k)) ∨
      ∀ m, r < m → m ≤ n → ∃ s, (c.after code picks m).strands[i]? = some s ∧
        s.Holds t (.report b d e :: k) := by
  refine ends_or_lasts hrn ?start fun m hrm _ hholds => ?step
  case start =>
    rcases own_cases code hs (picks r) with ⟨-, hnext, -⟩ | ⟨hne, -, -⟩
    · rcases (strand_step code (c.after code picks r) _).report with hholds | hdone
      · exact .inr ⟨_, hnext, hholds⟩
      · exact .inl (.inl (hdone ▸ hnext))
    · exact absurd hp hne
  case step =>
    obtain ⟨s, hs', h⟩ := hholds
    rcases own_cases code hs' (picks m) with ⟨hpm, hnext, -⟩ | ⟨-, hnext, -⟩
    · rcases h.report (strand_step code (c.after code picks m) s) with h' | hdone | ⟨p, hout, hleft⟩
      · exact .inr ⟨_, hnext, h'⟩
      · exact .inl (.inl (hdone ▸ hnext))
      · exact .inl (.inr ⟨p, m, hrm, Nat.lt_succ_self m, hpm, hout ▸ hs', hleft ▸ hnext⟩)
    · exact .inr ⟨s, hnext, h⟩

/-- At the first time that it is off the stack a report has returned or was left by a panic. -/
theorem report_over (hp : picks r = .work i)
    (hs : (c.after code picks r).strands[i]? = some ⟨t, .report b d e, k⟩) {q : Nat} (hrq : r < q)
    {s : Strand σ ε α} (hq : (c.after code picks q).strands[i]? = some s)
    (hlen : s.stack.length ≤ k.length)
    (hfirst : ∀ m s, r < m → m < q → (c.after code picks m).strands[i]? = some s →
      k.length < s.stack.length) :
    (∀ m, r < m → m < q → ∃ s, (c.after code picks m).strands[i]? = some s ∧
        s.Holds t (.report b d e :: k)) ∧
      ((∃ p j, r < j ∧ j < q ∧ picks j = .work i ∧
          (c.after code picks j).strands[i]? = some ⟨t, .unwinding p, .report b d e :: k⟩ ∧
          s = ⟨t, .unwinding p, k⟩) ∨
        s = ⟨t, .returned .done, k⟩) := by
  rcases reporting hp hs hrq with ⟨q', hrq', hqq', hend, hholds⟩ | hholds
  · have hq' : ∃ s', (c.after code picks q').strands[i]? = some s' ∧ s'.stack.length = k.length := by
      rcases hend with hend | ⟨p, j, -, -, -, -, hend⟩
      · exact ⟨_, hend, rfl⟩
      · exact ⟨_, hend, rfl⟩
    obtain rfl : q' = q := by
      obtain ⟨s', hs', hlen'⟩ := hq'
      by_contra hne
      have hhigh := hfirst q' s' hrq' (by omega) hs'
      omega
    refine ⟨hholds, ?_⟩
    rcases hend with hend | ⟨p, j, hrj, hjq, hpj, hj, hend⟩
    · exact .inr (Option.some.inj (hq.symm.trans hend))
    · exact .inl ⟨p, j, hrj, hjq, hpj, hj, Option.some.inj (hq.symm.trans hend)⟩
  · obtain ⟨s', hs', hs''⟩ := hholds q hrq (Nat.le_refl q)
    cases hq.symm.trans hs'
    have hlen' := hs''.length
    rw [List.length_cons] at hlen'
    omega

end

/-! ## Lanes of deliveries at work -/

section

variable {c : Crew σ ε α} (h : c.Fresh) (code : Behaviour σ ε α) (picks : Nat → Pick σ ε α)
  {b : BusId} (hb : c.world.mode b = .queued) {i j n : Nat} {t : ThreadId} {d : Delivery α}
include h hb

theorem quiet_at_work {s : Strand σ ε α} (hs : (c.after code picks n).strands[i]? = some s)
    (hd : d ∈ s.working b t) : (c.after code picks n).seen (picks n) (·.takes b t) = [] ∧
      (c.after code picks n).seen (picks n) (·.drops b t) = [] := by
  obtain ⟨rest, hlane⟩ := lane_of_working h code picks t hb hs hd
  have hturn := turn_lane h code picks t hb n
  rw [hlane] at hturn
  obtain ⟨htakes, hdrops, -⟩ := hturn.of_at_work
  exact ⟨htakes, hdrops⟩

/-- While a delivery is at work and no program runs on its strand, its lane stays as it is. -/
theorem lane_still (hm : Mans c code picks i t) (hjn : j ≤ n)
    (hwork : ∀ m, j ≤ m → m ≤ n → ∃ s, (c.after code picks m).strands[i]? = some s ∧
      d ∈ s.working b t ∧ ∀ q, s.control ≠ .run q) :
    (c.after code picks n).lane b t = (c.after code picks j).lane b t := by
  induction n, hjn using Nat.le_induction with
  | base => rfl
  | succ n hjn ih =>
    rw [← ih fun m hjm hmn => hwork m hjm (Nat.le_succ_of_le hmn)]
    obtain ⟨s, hs, hd, hcontrol⟩ := hwork n hjn (Nat.le_succ n)
    obtain ⟨s', hs', hd', -⟩ := hwork (n + 1) (Nat.le_succ_of_le hjn) (Nat.le_refl _)
    obtain ⟨rest, hlane⟩ := lane_of_working h code picks t hb hs hd
    obtain ⟨rest', hlane'⟩ := lane_of_working h code picks t hb hs' hd'
    have happ : (c.after code picks n).seen (picks n) (·.appends b t) = [] := by
      rw [hm.seen_eq_own h.apart h.seated (fun _ _ => Machine.appends_of_not_mem) n]
      refine own_eq_nil fun s₁ hs₁ => ?_
      cases hs.symm.trans hs₁
      unfold Machine.appends
      split
      · rename_i hc
        exact absurd hc (hcontrol _)
      · rename_i hc
        exact absurd hc (hcontrol _)
      · rfl
    have hturn := turn_lane h code picks t hb n
    rw [happ, hlane, hlane'] at hturn
    obtain ⟨-, -, hpending⟩ := hturn.of_at_work
    rw [hlane, hlane']
    rw [List.append_nil] at hpending
    exact congrArg (Lane.busy · (some d)) hpending

end

end Crew
end EventBus
