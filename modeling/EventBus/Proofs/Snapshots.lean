import EventBus.Proofs.DeadLetters
import EventBus.Proofs.Owners
import EventBus.Proofs.Withdrawals

/-!
# A post's deliveries are fixed when it is made

Which deliveries a post makes is decided in the world in which it is made. Whatever is registered,
withdrawn, declared or posted before the last of them, these are made, in their order, and no others.
A dead event has a post of its own, of which the same holds.
-/

namespace EventBus

variable {σ ε α : Type}

/-! ## Immediate dispatch -/

namespace Strand

/-- The delivery that an immediate loop of `b` makes now, if it is the one on a stack of `h`. -/
def hands (b : BusId) (h : Nat) : Strand σ ε α → List (Delivery α)
  | ⟨_, .returned _, .handing c e (g :: _) :: k⟩ => if c = b ∧ k.length = h then [⟨e, g⟩] else []
  | _ => []

variable {w : World σ ε α} {s s' : Strand σ ε α} {b : BusId} {k : List (Frame σ ε α)}

theorem hands_of_not_rests {h : Nat} (hc : ¬s.control.Rests) : s.hands b h = [] := by
  obtain ⟨u, c, k⟩ := s
  cases c with
  | returned x => exact absurd trivial hc
  | _ => rfl

theorem hands_above {fs : List (Frame σ ε α)} (hk : s.stack = fs ++ k) (hfs : fs ≠ []) {h : Nat}
    (hh : h < k.length) : s.hands b h = [] := by
  obtain ⟨u, c, k'⟩ := s
  obtain ⟨f, fs, rfl⟩ := List.exists_cons_of_ne_nil hfs
  obtain rfl : k' = f :: (fs ++ k) := hk
  cases c with
  | returned x =>
    cases f with
    | handing c e bs =>
      cases bs with
      | nil => rfl
      | cons g gs =>
        refine if_neg fun hc => ?_
        rw [List.length_append] at hc
        omega
    | _ => rfl
  | _ => rfl

theorem Step.calls_handed (h : Step w s s') {l : Nat} {d : Delivery α} (hd : s.hands b l = [d]) :
    s'.control = .call ⟨d, .delivery b⟩ := by
  cases h with
  | @hands _ _ c e g _ k =>
    simp only [Strand.hands] at hd
    split at hd
    · rename_i hc
      rw [← hc.1]
      cases hd
      rfl
    · cases hd
  | halted hc | settled hc | caught hc | joined hc =>
    obtain ⟨x, rfl⟩ | ⟨p, rfl⟩ := hc.cases <;> cases hd
  | _ => cases hd

/-- The strand has the deliveries `left` of an immediate post to `b` still to make. The post was made
on the stack `k`, and `next` comes after it. -/
def Owing (b : BusId) (next : Program σ ε α) (k : List (Frame σ ε α)) (left : List (Delivery α))
    (s : Strand σ ε α) : Prop :=
  (∃ fs e rest, s.stack = fs ++ .handing b e rest :: .resume next :: k ∧ left = rest.map (⟨e, ·⟩)) ∨
    (left = [] ∧ ((s.control = .returned .done ∧ s.stack = .resume next :: k) ∨ s.stack = k))

theorem Step.owing {t : ThreadId} {e : Event α} {next : Program σ ε α}
    (h : Step w ⟨t, .run (.post b e next), k⟩ s) (hm : w.mode b = .immediate)
    (hf : w.finds b e ≠ []) : s.Owing b next k (w.finds b e) := by
  cases h with
  | asked hp _ _ => exact absurd rfl (hp b e next)
  | dropped hr _ | buried hr _ => exact absurd hr hf
  | passed hq _ =>
    rw [hm] at hq
    cases hq
  | handing _ _ hr => exact .inl ⟨[], _, _, rfl, hr⟩
  | draining hq hp =>
    rcases hp with ⟨e', hp, -⟩ | hp
    · cases hp
      rw [hm] at hq
      cases hq
    · cases hp
  | halted hc | settled hc | caught hc | joined hc => exact hc.elim

/-- The loop of the post stays as it is while others lie on it. On top it makes its next delivery,
or ends when it has none. -/
theorem Owing.step {next : Program σ ε α} {left : List (Delivery α)} (h : s.Owing b next k left)
    (hk : k.length < s.stack.length) (hb : s.stack.length = k.length + 2 → s.breaks = false)
    (hs : Step w s s') :
    ∃ left', left = s.hands b (k.length + 1) ++ left' ∧ s'.Owing b next k left' := by
  obtain ⟨u, c, stack⟩ := s
  rcases h with ⟨fs, e, rest, rfl, rfl⟩ | ⟨rfl, ⟨rfl, rfl⟩ | rfl⟩
  · by_cases habove : fs ≠ [] ∨ ¬c.Rests
    · obtain ⟨fs', hk', -⟩ := hs.above rfl habove
      have hnone : hands b (k.length + 1) ⟨u, c, fs ++ .handing b e rest :: .resume next :: k⟩ = [] := by
        rcases habove with hfs | hc
        · exact hands_above rfl hfs (Nat.lt_succ_self _)
        · exact hands_of_not_rests hc
      exact ⟨_, by rw [hnone, List.nil_append], .inl ⟨fs', e, rest, hk', rfl⟩⟩
    · obtain ⟨hfs, hrests⟩ := not_or.mp habove
      obtain rfl := not_not.mp hfs
      cases hs with
      | handed => exact ⟨[], rfl, .inr ⟨rfl, .inl ⟨rfl, rfl⟩⟩⟩
      | @hands _ x _ _ g gs _ =>
        have hmade : hands b (k.length + 1)
            ⟨u, .returned x, .handing b e (g :: gs) :: .resume next :: k⟩ = [⟨e, g⟩] :=
          if_pos ⟨rfl, rfl⟩
        refine ⟨gs.map (⟨e, ·⟩), ?_, .inl ⟨[], e, gs, rfl, rfl⟩⟩
        rw [List.nil_append, hmade]
        rfl
      | unwound _ => cases hb rfl
      | _ => exact (hrests id).elim
  · cases hs with
    | resumed => exact ⟨[], rfl, .inr ⟨rfl, .inr rfl⟩⟩
  · exact absurd hk (Nat.lt_irrefl _)

theorem Owing.returned {next : Program σ ε α} {left : List (Delivery α)}
    (h : s.Owing b next k left) (hk : s.stack.length < k.length + 2) : left = [] := by
  rcases h with ⟨fs, e, rest, hstack, -⟩ | ⟨hleft, -⟩
  · rw [hstack, List.length_append, List.length_cons, List.length_cons] at hk
    omega
  · exact hleft

end Strand

namespace Crew

section

variable {c : Crew σ ε α} {code : Behaviour σ ε α} {picks : Nat → Pick σ ε α} {i j n : Nat}

/-- A strand makes what its loop owes, first things first. -/
theorem owing_after {b : BusId} {next : Program σ ε α} {k : List (Frame σ ε α)} {s : Strand σ ε α}
    {owed : List (Delivery α)} (hjn : j ≤ n) (hs : (c.after code picks j).strands[i]? = some s)
    (ho : s.Owing b next k owed)
    (hserved : ∀ m s, j ≤ m → m < n → (c.after code picks m).strands[i]? = some s →
      k.length < s.stack.length ∧ (s.stack.length = k.length + 2 → s.breaks = false)) :
    ∃ s left, (c.after code picks n).strands[i]? = some s ∧ s.Owing b next k left ∧
      owed = during (fun m => (c.after code picks m).own i (picks m)
        fun m => m.strand.hands b (k.length + 1)) j n ++ left := by
  induction n, hjn using Nat.le_induction with
  | base => exact ⟨s, owed, hs, ho, by rw [during_self, List.nil_append]⟩
  | succ n hjn ih =>
    obtain ⟨s', left, hs', howing, hmade⟩ :=
      ih fun m s hjm hmn => hserved m s hjm (Nat.lt_succ_of_lt hmn)
    obtain ⟨hlen, hb⟩ := hserved n s' hjn (Nat.lt_succ_self n) hs'
    rw [during_succ _ hjn]
    rcases own_cases code hs' (picks n) with ⟨-, h, hown⟩ | ⟨-, h, hown⟩
    · obtain ⟨left', hleft, howing'⟩ :=
        howing.step hlen hb (strand_step code (c.after code picks n) s')
      refine ⟨_, left', h, howing', ?_⟩
      rw [hmade, hleft, hown, List.append_assoc]
      rfl
    · refine ⟨s', left, h, howing, ?_⟩
      rw [hmade, hown, List.append_nil]

/-- On the way to its return an immediate post makes what it found when it was made. -/
theorem Contained.owing (hd : c.Docked) {t : ThreadId} {b : BusId} {e : Event α}
    {next : Program σ ε α} {k : List (Frame σ ε α)}
    (hm : (c.after code picks j).world.mode b = .immediate) (hp : picks j = .work i)
    (hs : (c.after code picks j).strands[i]? = some ⟨t, .run (.post b e next), k⟩)
    (hf : (c.after code picks j).world.finds b e ≠ [])
    (hq : Contained c code picks i j n) (hjn : j < n)
    (hserved : ∀ m, j < m → m < n → ∃ s, (c.after code picks m).strands[i]? = some s ∧
      k.length < s.stack.length) :
    ∃ s left, (c.after code picks n).strands[i]? = some s ∧ s.Owing b next k left ∧
      (c.after code picks j).world.finds b e = during (fun m => (c.after code picks m).own i (picks m)
        fun m => m.strand.hands b (k.length + 1)) j n ++ left := by
  rcases own_cases code hs (picks j) with ⟨-, hnext, hown⟩ | ⟨hne, -⟩
  · obtain ⟨s, left, hs', howing, hfound⟩ := owing_after hjn hnext
      ((strand_step code (c.after code picks j) _).owing hm hf) fun m s hjm hmn hm => by
        obtain ⟨s', hs', hlen⟩ := hserved m hjm hmn
        cases hm.symm.trans hs'
        exact ⟨hlen, fun _ =>
          hq.unbroken hd hs (Nat.le_of_succ_le hjm) (Nat.le_of_lt hmn) hs'⟩
    refine ⟨s, left, hs', howing, hfound.trans ?_⟩
    rw [during_append _ (Nat.le_succ j) hjn, during_succ _ (Nat.le_refl j), during_self, hown]
    rfl
  · exact absurd hp hne

theorem calls_handed {s : Strand σ ε α} (hs : (c.after code picks n).strands[i]? = some s) {b : BusId}
    {l : Nat} {d : Delivery α}
    (hd : (c.after code picks n).own i (picks n) (fun m => m.strand.hands b l) = [d]) :
    ∃ s', (c.after code picks (n + 1)).strands[i]? = some s' ∧ s'.control = .call ⟨d, .delivery b⟩ := by
  rcases own_cases code hs (picks n) with ⟨-, h, hown⟩ | ⟨-, -, hown⟩
  · rw [hown] at hd
    exact ⟨_, h, (strand_step code (c.after code picks n) s).calls_handed hd⟩
  · rw [hown] at hd
    cases hd

end

/-! ## Queued dispatch -/

section

variable {c : Crew σ ε α} (h : c.Fresh) (code : Behaviour σ ε α) (picks : Nat → Pick σ ε α)
  {b : BusId} (hb : c.world.mode b = .queued) {i j n : Nat}
include h hb

theorem lane_pending (t : ThreadId) (n : Nat) :
    ((c.after code picks n).lane b t).pending = (c.after code picks n).world.waiting b t := by
  have hentry : (c.after code picks n).world.entry b t =
      ((c.after code picks n).lane b t).share.entry := by
    rw [share_lane h code picks t hb n]
    rfl
  rw [World.waiting, hentry]
  cases (c.after code picks n).lane b t <;> rfl

variable {t : ThreadId} (hm : Mans c code picks i t)
include hm

theorem calls_taken {s : Strand σ ε α} (hs : (c.after code picks n).strands[i]? = some s)
    {d : Delivery α} (hd : (c.after code picks n).seen (picks n) (·.takes b t) = [d]) :
    ∃ s', (c.after code picks (n + 1)).strands[i]? = some s' ∧ s'.control = .call ⟨d, .delivery b⟩ := by
  rw [hm.seen_eq_own h.apart h.seated (fun _ => Machine.takes_of_not_mem) n] at hd
  rcases own_cases code hs (picks n) with ⟨-, hs', hown⟩ | ⟨-, -, hown⟩
  · have hseated := (h.seated.after code picks n).strands s (List.mem_of_getElem? hs)
    rw [hown, Machine.takes_eq hseated] at hd
    split at hd
    · exact ⟨_, hs', Control.calls_eq ((h.calls_step c code picks hb hs).trans hd)⟩
    · cases hd
  · rw [hown] at hd
    cases hd

/-- What is taken from the queue and what waits there in the end is what waited there in the
beginning and what came in between. -/
theorem Contained.taken {p : Program σ ε α} {k : List (Frame σ ε α)}
    (hq : Contained c code picks i j n) (hjn : j ≤ n)
    (hs : (c.after code picks j).strands[i]? = some ⟨t, .run p, k⟩) :
    (c.after code picks j).world.waiting b t ++
        during (fun m => (c.after code picks m).seen (picks m) (·.appends b t)) j n =
      during (fun m => (c.after code picks m).seen (picks m) (·.takes b t)) j n ++
        (c.after code picks n).world.waiting b t := by
  rw [← lane_pending h code picks hb t, ← lane_pending h code picks hb t]
  exact h.lane_conserved code picks hb hm hjn fun m s hjm hmn =>
    hq.unbroken h.docked hs hjm (Nat.le_of_lt hmn)

end

end Crew

/-! ## Every dispatch -/

namespace Crew

/-- The post of the strand `i` on `t` at `j`, on the stack `k`, has the deliveries `ds` to `b` to make,
and no others. An immediate post has made a first part of them at `n`, and all of them when it has
returned. A queued post puts them behind what waits for its thread then, and from there they are taken
in this order, before all that comes later. What is made or taken is called at once. -/
structure Fixes (c : Crew σ ε α) (code : Behaviour σ ε α) (picks : Nat → Pick σ ε α) (b : BusId)
    (i j n : Nat) (t : ThreadId) (k : List (Frame σ ε α)) (ds : List (Delivery α)) : Prop where
  immediate : c.world.mode b = .immediate →
    let made := fun m => (c.after code picks m).own i (picks m) fun m => m.strand.hands b (k.length + 1)
    (∀ m d, j ≤ m → made m = [d] →
      ∃ s, (c.after code picks (m + 1)).strands[i]? = some s ∧ s.control = .call ⟨d, .delivery b⟩) ∧
    ((∀ m, j < m → m < n → ∃ s, (c.after code picks m).strands[i]? = some s ∧
        k.length < s.stack.length) →
      ∃ left, ds = during made j n ++ left ∧
        ∀ s, (c.after code picks n).strands[i]? = some s → s.stack.length ≤ k.length → left = [])
  queued : c.world.mode b = .queued →
    let appended := fun m => (c.after code picks m).seen (picks m) (·.appends b t)
    let taken := fun m => (c.after code picks m).seen (picks m) (·.takes b t)
    (∀ m d, j ≤ m → taken m = [d] →
      ∃ s, (c.after code picks (m + 1)).strands[i]? = some s ∧ s.control = .call ⟨d, .delivery b⟩) ∧
    (c.after code picks j).world.waiting b t ++ ds ++ during appended (j + 1) n =
      during taken j n ++ (c.after code picks n).world.waiting b t

/-- A post has the deliveries to make that its event finds at the time. -/
theorem fixes_post {c : Crew σ ε α} (h : c.Fresh) (code : Behaviour σ ε α) {picks : Nat → Pick σ ε α}
    {b : BusId} {i j n : Nat} (hp : picks j = .work i) (hjn : j < n) {t : ThreadId} {e : Event α}
    {next : Program σ ε α} {k : List (Frame σ ε α)}
    (hs : (c.after code picks j).strands[i]? = some ⟨t, .run (.post b e next), k⟩)
    (hq : Contained c code picks i j n) (hf : (c.after code picks j).world.finds b e ≠ []) :
    c.Fixes code picks b i j n t k ((c.after code picks j).world.finds b e) := by
  have hmans : Mans c code picks i t := ⟨j, _, hs, List.mem_cons_self ..⟩
  refine ⟨fun hb => ⟨fun m d hjm hd => ?_, fun hserved => ?_⟩, fun hb => ⟨fun m d hjm hd => ?_, ?_⟩⟩
  · obtain ⟨s, hs'⟩ := strand_after c code picks hjm hs
    exact calls_handed hs' hd
  · have hm : (c.after code picks j).world.mode b = .immediate :=
      (congrFun (h.seated.after code picks j).modes b).trans hb
    obtain ⟨s, left, hs', howing, hfound⟩ := hq.owing h.docked hm hp hs hf hjn hserved
    refine ⟨left, hfound, fun s' hs'' hlen => ?_⟩
    rw [hs'] at hs''
    cases hs''
    exact howing.returned (Nat.lt_succ_of_lt (Nat.lt_succ_of_le hlen))
  · obtain ⟨s, hs'⟩ := strand_after c code picks hjm hs
    exact calls_taken h code picks hb hmans hs' hd
  · have htaken := hq.taken h code picks hb hmans (Nat.le_of_lt hjn) hs
    have hfound : (c.after code picks j).seen (picks j) (·.appends b t) =
        (c.after code picks j).world.finds b e := by
      obtain ⟨-, -, hown⟩ := own_turn hs hp
      rw [hown]
      exact if_pos ⟨rfl, rfl⟩
    rw [during_append _ (Nat.le_succ j) hjn, during_succ _ (Nat.le_refl j), during_self,
      List.nil_append] at htaken
    rw [← hfound, List.append_assoc]
    exact htaken

end Crew

/-! A handler that withdraws its subscriber while a second delivery to it is still to be made, and
the same event again, when only dead events are still handled. -/

namespace Ripple

def quit : Binding := ⟨0, .erased "Ripple" "quit" ping 0, ping⟩

def stay : Binding := ⟨0, .erased "Ripple" "stay" ping 3, ping⟩

def mourn : Binding := ⟨1, .erased "Mourner" "mourn" .dead 2, .dead⟩

def leaving : Behaviour Unit Unit Unit where
  body id _ _ := if id = 0 then .unregister 0 0 fun _ => .finish .done else .finish .done
  sink _ _ _ := .finish .done

def quitting : Crew Unit Unit Unit :=
  ⟨⟨⟨.empty⟩, [⟨0, "Ripple", [quit.method, stay.method]⟩, ⟨1, "Mourner", [mourn.method]⟩],
      [{ (default : Bus Unit) with
        registry := Registry.empty.putAll (.ofList [quit, stay, mourn])
        cache := ⟨⟨[(ping, [ping, .root]), (.dead, [.dead, .root])]⟩⟩ }], 0, 1, (), []⟩,
    [⟨0, .run (.post 0 (event ping) (.post 0 (event ping) (.finish .done))), []⟩]⟩

theorem quitting_fresh : quitting.Fresh :=
  Crew.fresh_alone (fun b t => by cases b <;> rfl) (by decide) _

theorem quitting_orderly : ∀ b, (quitting.world.bus b).Orderly := by
  intro b
  cases b with
  | zero =>
    refine ⟨Registry.Orderly.empty.putAll _, fun t types ht => ?_⟩
    rcases List.mem_pair.mp (Table.mem_of_get? ht) with hping | hdead
    · obtain ⟨-, rfl⟩ := Prod.mk.inj hping
      exact ⟨by decide, [ping], rfl⟩
    · obtain ⟨-, rfl⟩ := Prod.mk.inj hdead
      exact ⟨by decide, [.dead], rfl⟩
  | succ b => exact Bus.Orderly.build .new

end Ripple
end EventBus
