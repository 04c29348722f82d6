import EventBus.Proofs.Entries
import EventBus.Proofs.Falls
import EventBus.Proofs.Isolation
import EventBus.Proofs.Unwinding

/-!
# What a post leaves behind

A post to a queued bus that starts a drain is over when the drain is: the queue was taken to its end,
or a panic left a report in it and what was pending is dropped. Either way the thread has no queue when
the post returns or unwinds. A post that puts nothing on the queue leaves it as it was.
-/

namespace EventBus

variable {σ ε α : Type}

/-! ## Starts on a thread -/

namespace Machine

/-- What `t` starts to deliver now. -/
def startsOn (b : BusId) (t : ThreadId) (m : Machine σ ε α) : List (Delivery α) :=
  if m.world.thread = t then m.starts b else []

theorem startsOn_of_not_mem {b : BusId} {t : ThreadId} {m : Machine σ ε α} (h : t ∉ m.threads) :
    m.startsOn b t = [] :=
  if_neg fun (ht : m.world.thread = t) => h (ht ▸ List.mem_cons_self ..)

/-- A post to a queued bus that finds somebody starts a drain, unless its thread has one. -/
theorem stack_post {w : World σ ε α} {b : BusId} (hb : w.mode b = .queued) {e : Event α}
    (hf : w.finds b e ≠ []) (hidle : (w.bus b).queues.isDraining w.thread = false)
    (next : Program σ ε α) (k : List (Frame σ ε α)) :
    (request w k (.post b e next)).stack = .draining b w.thread :: .resume next :: k := by
  obtain ⟨w₁, hc, -, ⟨hr, -⟩ | ⟨hr, -⟩ | ⟨g, gs, -, hp⟩⟩ := request_post w k b e next
  · exact absurd (World.finds_eq_nil.mpr hr) hf
  · exact absurd (World.finds_eq_nil.mpr hr) hf
  · have hm : (w₁.bus b).config.mode = .queued := (congrFun hc.mode b).trans hb
    have hentry := entry_enqueueAll_self (w := w₁) (b := b) hm
      (show (g :: gs).map (⟨e, ·⟩ : Binding → Delivery α) ≠ [] from List.cons_ne_nil _ _)
    have hgrown : ∀ ds : List (Delivery α),
        (Queues.grown (w₁.entry b w₁.thread) ds).draining = false := by
      intro ds
      rw [hc.thread, hc.entry]
      simp only [Queues.isDraining] at hidle
      rw [World.entry]
      cases hq : (w.bus b).queues.get? w.thread with
      | none => rfl
      | some q =>
        rw [hq] at hidle
        exact hidle
    obtain ⟨q, hclaim, -⟩ := Queues.claim?_of_idle hentry (hgrown _)
    simp only [request, hp, hm, drain]
    rw [show (w₁.enqueueAll b _).thread = w₁.thread from rfl, hclaim, ← hc.thread]

end Machine

/-- What is taken is started next, by the same thread. -/
theorem Strand.Step.calls_on {w : World σ ε α} {s s' : Strand σ ε α} (h : Step w s s') {b : BusId}
    (hc : s'.control.calls b = w.taken b s.control s.stack) (t : ThreadId) :
    (if s'.thread = t then s'.control.calls b else []) =
      if s.thread = t then w.taken b s.control s.stack else [] := by
  rw [hc]
  cases h with
  | @spawned u u' body next k =>
    have hnone : w.taken b (.run (.spawn body next)) k = [] := rfl
    simp only [hnone, ite_self]
  | @joined u parent c next p k hr =>
    have hnone : w.taken b c (.joined parent next :: k) = [] := by
      obtain ⟨x, rfl⟩ | ⟨p, rfl⟩ := hr.cases <;> rfl
    simp only [hnone, ite_self]
  | _ => rfl

/-! ## The end of a drain -/

/-- A panic comes to a drain out of a report of one of its deliveries. -/
theorem Strand.Docked.left_report {w : World σ ε α} {s : Strand σ ε α} {t owner : ThreadId} {p : Panic}
    {b : BusId} {k : List (Frame σ ε α)} (h : s.Docked)
    (hs : Step w s ⟨t, .unwinding p, .draining b owner :: k⟩) :
    ∃ d e, s = ⟨t, .unwinding p, .report b d e :: .draining b owner :: k⟩ := by
  have hescapes := (h.breaks_from hs rfl).1
  obtain ⟨-, hdocked⟩ := h
  unfold escapes at hescapes
  split at hescapes
  · rename_i u q a d e k'
    cases hs with
    | unwound _ =>
      obtain ⟨hberth, -⟩ := hdocked
      obtain ⟨d', hd'⟩ := hberth b _ k rfl rfl
      cases hd'
      exact ⟨d, e, rfl⟩
  · cases hescapes

theorem Strand.Holds.mem {t : ThreadId} {f : Frame σ ε α} {k : List (Frame σ ε α)} {s : Strand σ ε α}
    (h : s.Holds t (f :: k)) : f ∈ s.stack := by
  obtain ⟨fs, hstack, -⟩ := h
  rw [hstack]
  exact List.mem_append_right _ (List.mem_cons_self ..)

namespace Machine

variable {b : BusId} {t : ThreadId} {k : List (Frame σ ε α)}

/-- A drain on top takes a delivery, or ends and its queue is gone. It drops deliveries only as a panic
goes through it. -/
theorem drain_on_top (code : Behaviour σ ε α) {m : Machine σ ε α} (hm : m.world.mode b = .queued)
    (hrests : m.control.Rests) (hs : m.strand = ⟨t, m.control, .draining b t :: k⟩) :
    (m.step code).strand.Holds t (.draining b t :: k) ∨
      (m.step code).world.entry b t = none ∧
        ((m.step code).strand = ⟨t, .returned .done, k⟩ ∧ m.drops b t = [] ∨
          ∃ p, m.control = .unwinding p ∧ (m.step code).strand = ⟨t, .unwinding p, k⟩) := by
  obtain ⟨w, c, stack⟩ := m
  simp only [strand, Strand.mk.injEq, true_and] at hs
  obtain ⟨hthread, rfl⟩ := hs
  obtain ⟨x, rfl⟩ | ⟨p, rfl⟩ := hrests.cases
  · simp only [step, resume]
    split
    · rename_i d q hq
      exact .inl ⟨[], rfl, hthread⟩
    · rename_i q hq
      refine .inr ⟨?_, .inl ⟨?_, rfl⟩⟩
      · show (w.setQueues b q).entry b t = none
        rw [World.entry_setQueues hm, if_pos rfl]
        exact (Queues.of_next_none hq).2.1
      · rw [strand, ← hthread]
        rfl
  · refine .inr ⟨?_, .inr ⟨p, rfl, ?_⟩⟩
    · show (w.abandon b t).entry b t = none
      rw [World.entry_abandon, World.entry_setQueues hm, if_pos rfl, Queues.get?_release_self]
    · show (⟨(w.abandon b t).thread, .unwinding p, k⟩ : Strand σ ε α) = _
      rw [World.thread_abandon, hthread]

end Machine

/-! ## The way back -/

/-- What lies under the drain of a post that goes on with `next` on `k`: that, or before it the end of
the post of a dead event. -/
inductive Bed (next : Program σ ε α) (k : List (Frame σ ε α)) : List (Frame σ ε α) → Prop
  | own : Bed next k (.resume next :: k)
  | dead : Bed next k (.resume (.finish .done) :: .resume next :: k)

theorem Bed.length {next : Program σ ε α} {k l : List (Frame σ ε α)} (h : Bed next k l) :
    k.length < l.length := by
  cases h with
  | own => exact Nat.lt_succ_self _
  | dead => exact Nat.lt_succ_of_lt (Nat.lt_succ_self _)

/-- The post has no loop any more, and goes back to `k` or is left by a panic. -/
inductive Homeward (next : Program σ ε α) (k : List (Frame σ ε α)) :
    Control σ ε α → List (Frame σ ε α) → Prop
  | rests {x : Control σ ε α} {l : List (Frame σ ε α)} : x.Rests → Bed next k l → Homeward next k x l
  | buried : Homeward next k (.run (.finish .done)) (.resume next :: k)

/-- The post is over: it has returned, or a panic has left it. -/
def Home (next : Program σ ε α) (k : List (Frame σ ε α)) (x : Control σ ε α)
    (l : List (Frame σ ε α)) : Prop :=
  l = k ∧ (x = .run next ∨ ∃ p, x = .unwinding p)

namespace Homeward

variable {next : Program σ ε α} {k l : List (Frame σ ε α)} {x : Control σ ε α}

theorem length (h : Homeward next k x l) : k.length < l.length := by
  cases h with
  | rests _ hl => exact hl.length
  | buried => exact Nat.lt_succ_self _

/-- Nothing happens on the way back, and a panic stays a panic. -/
theorem step (h : Homeward next k x l) (code : Behaviour σ ε α) (w : World σ ε α) :
    ∃ y l', Machine.step code ⟨w, x, l⟩ = ⟨w, y, l'⟩ ∧ (Home next k y l' ∨ Homeward next k y l') ∧
      ∀ p, y = .unwinding p ↔ x = .unwinding p := by
  cases h with
  | rests hx hl =>
    obtain ⟨e, rfl⟩ | ⟨p, rfl⟩ := hx.cases
    · cases hl with
      | own => exact ⟨_, _, rfl, .inl ⟨rfl, .inl rfl⟩, fun p => by simp⟩
      | dead => exact ⟨_, _, rfl, .inr .buried, fun p => by simp⟩
    · cases hl with
      | own => exact ⟨_, _, rfl, .inl ⟨rfl, .inr ⟨p, rfl⟩⟩, fun _ => Iff.rfl⟩
      | dead => exact ⟨_, _, rfl, .inr (.rests trivial .own), fun _ => Iff.rfl⟩
  | buried => exact ⟨_, _, rfl, .inr (.rests trivial .own), fun p => by simp⟩

theorem still (h : Homeward next k x l) (w : World σ ε α) (b : BusId) (t : ThreadId) :
    Machine.appends b t ⟨w, x, l⟩ = [] ∧ Machine.takes b t ⟨w, x, l⟩ = [] ∧
      Machine.drops b t ⟨w, x, l⟩ = [] := by
  cases h with
  | rests hx hl =>
    obtain ⟨e, rfl⟩ | ⟨p, rfl⟩ := hx.cases
    · cases hl <;> exact ⟨rfl, rfl, rfl⟩
    · cases hl <;> exact ⟨rfl, rfl, rfl⟩
  | buried => exact ⟨rfl, rfl, rfl⟩

end Homeward

namespace Crew

section

variable {c : Crew σ ε α} {code : Behaviour σ ε α} {picks : Nat → Pick σ ε α} {i n m : Nat}
  {t u : ThreadId} {b : BusId} {k k' : List (Frame σ ε α)}

/-- In a run, the report was left before, and after the strand last ran a program. -/
theorem Docked.report_before (hd : c.Docked) {q : Program σ ε α} (hnm : n ≤ m)
    (hs : (c.after code picks n).strands[i]? = some ⟨u, .run q, k'⟩) {p : Panic}
    (hm : (c.after code picks m).strands[i]? = some ⟨t, .unwinding p, .draining b t :: k⟩) :
    ∃ j d e, n < j ∧ j < m ∧ (c.after code picks j).strands[i]? =
      some ⟨t, .unwinding p, .report b d e :: .draining b t :: k⟩ := by
  induction m, hnm using Nat.le_induction with
  | base => cases hs.symm.trans hm
  | succ m hnm ih =>
    obtain ⟨s, hs'⟩ := strand_after c code picks hnm hs
    rcases own_cases code hs' (picks m) with ⟨-, hnext, -⟩ | ⟨-, hnext, -⟩
    · have hstep := strand_step code (c.after code picks m) s
      rw [Option.some.inj (hnext.symm.trans hm)] at hstep
      obtain ⟨d, e, rfl⟩ := (hd.after code picks m s (List.mem_of_getElem? hs')).left_report hstep
      refine ⟨m, d, e, Nat.lt_of_le_of_ne hnm ?_, Nat.lt_succ_self m, hs'⟩
      intro hnm
      subst hnm
      cases hs.symm.trans hs'
    · rw [Option.some.inj (hnext.symm.trans hm)] at hs'
      obtain ⟨j, d, e, hnj, hjm, hj⟩ := ih hs'
      exact ⟨j, d, e, hnj, Nat.lt_succ_of_lt hjm, hj⟩

end

/-! ## The phases of a post -/

section

variable (c : Crew σ ε α) (code : Behaviour σ ε α) (picks : Nat → Pick σ ε α) (b : BusId) (i n : Nat)
  (t : ThreadId)

def appended (m : Nat) : List (Delivery α) := (c.after code picks m).seen (picks m) (·.appends b t)

def taken (m : Nat) : List (Delivery α) := (c.after code picks m).seen (picks m) (·.takes b t)

def dropped (m : Nat) : List (Delivery α) := (c.after code picks m).seen (picks m) (·.drops b t)

/-- The step at `m` leaves the lane of `t` on `b` as it is. -/
structure Silent (m : Nat) : Prop where
  entry : (c.after code picks (m + 1)).world.entry b t = (c.after code picks m).world.entry b t
  appended : c.appended code picks b t m = []
  taken : c.taken code picks b t m = []
  dropped : c.dropped code picks b t m = []

/-- What waited at `n` and came up to `m` was taken, or is `left`. -/
def Books (m : Nat) (left : List (Delivery α)) : Prop :=
  (c.after code picks n).world.waiting b t ++ during (c.appended code picks b t) n m =
    during (c.taken code picks b t) n m ++ left

/-- At `m` the post that was made at `n` has put nothing on the queue of its thread, which is as it
was. The strand has the control `x` on the stack `l`. -/
structure Idles (x : Control σ ε α) (l : List (Frame σ ε α)) (m : Nat) : Prop where
  strand : (c.after code picks m).strands[i]? = some ⟨t, x, l⟩
  entry : (c.after code picks m).world.entry b t = (c.after code picks n).world.entry b t
  appended : during (c.appended code picks b t) n m = []
  taken : during (c.taken code picks b t) n m = []
  dropped : during (c.dropped code picks b t) n m = []
  calm : ∀ p, x ≠ .unwinding p

variable (next : Program σ ε α) (k : List (Frame σ ε α))

/-- At `m` the drain of the post that was made at `n` is on the stack. -/
structure Drains (m : Nat) : Prop where
  strand : ∃ s l, (c.after code picks m).strands[i]? = some s ∧ Bed next k l ∧
    s.Holds t (.draining b t :: l)
  books : c.Books code picks b n t m ((c.after code picks m).world.waiting b t)
  kept : during (c.dropped code picks b t) n m = []

/-- At `m` the drain is over and its queue gone. The strand has the control `x` on the stack `l`, and
it comes with a panic just if a report in the drain was left by it. -/
structure Drained (m : Nat) (x : Control σ ε α) (l : List (Frame σ ε α)) : Prop where
  strand : (c.after code picks m).strands[i]? = some ⟨t, x, l⟩
  gone : (c.after code picks m).world.entry b t = none
  books : c.Books code picks b n t m (during (c.dropped code picks b t) n m)
  lost : (∀ p, x ≠ .unwinding p) ∧ during (c.dropped code picks b t) n m = [] ∨
    ∃ p j d e under, x = .unwinding p ∧ n < j ∧ j < m ∧ Bed next k under ∧
      (c.after code picks j).strands[i]? =
        some ⟨t, .unwinding p, .report b d e :: .draining b t :: under⟩

/-- At `m` the post that was made at `n` is at its drain, or on its way from there. -/
def Posting (m : Nat) : Prop :=
  c.Drains code picks b i n t next k m ∨
    ∃ x l, Homeward next k x l ∧ c.Drained code picks b i n t next k m x l

/-- At `m` the post is over, and its drain was before. -/
def Posted (m : Nat) : Prop :=
  ∃ y, (y = .run next ∨ ∃ p, y = .unwinding p) ∧ c.Drained code picks b i n t next k m y k

/-- At `m` the post is on its way back and has put nothing on the queue. -/
def Idling (m : Nat) : Prop := ∃ x l, Homeward next k x l ∧ c.Idles code picks b i n t x l m

/-- What a post of `e` at `n` finds is put on the queue of its thread: handlers of `e`, or if there are
none handlers of the dead event that the strand posts in its next turn. -/
def Puts (e : Event α) : Prop :=
  (c.after code picks n).world.finds b e ≠ [] ∨
    e.type ≠ .dead ∧ ∃ l, NextTurn picks i n l ∧ (c.after code picks l).world.finds b (.dead b e) ≠ []

end

/-! ## From phase to phase -/

section

variable {c : Crew σ ε α} {code : Behaviour σ ε α} {picks : Nat → Pick σ ε α} {b : BusId}
  {i n m : Nat} {t : ThreadId} {next : Program σ ε α} {k l l' : List (Frame σ ε α)}
  {x y : Control σ ε α}

theorem Drains.length (h : c.Drains code picks b i n t next k m) :
    ∃ s, (c.after code picks m).strands[i]? = some s ∧ k.length < s.stack.length := by
  obtain ⟨s, l, hs, hl, hholds⟩ := h.strand
  exact ⟨s, hs, Nat.lt_trans hl.length hholds.length⟩

theorem Posting.length (h : c.Posting code picks b i n t next k m) :
    ∃ s, (c.after code picks m).strands[i]? = some s ∧ k.length < s.stack.length := by
  rcases h with hdrains | ⟨x, l, hhome, hdrained⟩
  · exact hdrains.length
  · exact ⟨_, hdrained.strand, hhome.length⟩

theorem Books.start : c.Books code picks b n t n ((c.after code picks n).world.waiting b t) := by
  unfold Books
  rw [during_self, during_self, List.append_nil, List.nil_append]

theorem Idles.start (hs : (c.after code picks n).strands[i]? = some ⟨t, x, l⟩)
    (hx : ∀ p, x ≠ .unwinding p) : c.Idles code picks b i n t x l n :=
  ⟨hs, rfl, during_self _ _, during_self _ _, during_self _ _, hx⟩

/-- A silent step leaves the queue alone. -/
theorem Idles.silent (h : c.Idles code picks b i n t x l m) (hnm : n ≤ m)
    (hsilent : c.Silent code picks b t m)
    (hs : (c.after code picks (m + 1)).strands[i]? = some ⟨t, y, l'⟩)
    (hy : ∀ p, y = .unwinding p ↔ x = .unwinding p) : c.Idles code picks b i n t y l' (m + 1) where
  strand := hs
  entry := hsilent.entry.trans h.entry
  appended := by rw [during_succ _ hnm, h.appended, hsilent.appended, List.append_nil]
  taken := by rw [during_succ _ hnm, h.taken, hsilent.taken, List.append_nil]
  dropped := by rw [during_succ _ hnm, h.dropped, hsilent.dropped, List.append_nil]
  calm p hp := h.calm p ((hy p).mp hp)

theorem Idles.books (h : c.Idles code picks b i n t x l m) :
    c.Books code picks b n t m ((c.after code picks m).world.waiting b t) := by
  unfold Books World.waiting
  rw [h.appended, h.taken, h.entry, List.append_nil, List.nil_append]

theorem Drained.silent (h : c.Drained code picks b i n t next k m x l) (hnm : n ≤ m)
    (hsilent : c.Silent code picks b t m)
    (hs : (c.after code picks (m + 1)).strands[i]? = some ⟨t, y, l'⟩)
    (hy : ∀ p, y = .unwinding p ↔ x = .unwinding p) :
    c.Drained code picks b i n t next k (m + 1) y l' := by
  obtain ⟨-, hgone, hbooks, hlost⟩ := h
  have hsame : during (c.dropped code picks b t) n (m + 1) = during (c.dropped code picks b t) n m := by
    rw [during_succ _ hnm, hsilent.dropped, List.append_nil]
  refine ⟨hs, hsilent.entry.trans hgone, ?books, ?lost⟩
  case books =>
    unfold Books at hbooks ⊢
    rw [hsame, during_succ _ hnm, during_succ _ hnm, hsilent.appended, hsilent.taken, List.append_nil,
      List.append_nil]
    exact hbooks
  case lost =>
    rcases hlost with ⟨hreturned, hnone⟩ | ⟨p, j, d, e, under, hx, hnj, hjm, hunder, hj⟩
    · exact .inl ⟨fun p => mt (hy p).mp (hreturned p), hsame.trans hnone⟩
    · exact .inr ⟨p, j, d, e, under, (hy p).mpr hx, hnj, Nat.lt_succ_of_lt hjm, hunder, hj⟩

/-- A post that finds nobody makes a silent step. -/
theorem silent_of_unheard {e : Event α} {p : Program σ ε α} (hp : picks m = .work i)
    (hs : (c.after code picks m).strands[i]? = some ⟨t, .run (.post b e p), l⟩)
    (hf : (c.after code picks m).world.finds b e = []) : c.Silent code picks b t m := by
  obtain ⟨-, -, hown⟩ := own_turn hs hp
  refine ⟨(calm_post code hp hs (World.finds_eq_nil.mp hf)).1 b t, (hown _).trans ?_, (hown _).trans rfl,
    (hown _).trans rfl⟩
  simp only [Machine.appends, machine]
  rw [show World.finds { (c.after code picks m).world with thread := t } b e = [] from hf, ite_self]

end

section

variable {c : Crew σ ε α} (h : c.Fresh) (code : Behaviour σ ε α) (picks : Nat → Pick σ ε α)
  {b : BusId} (hb : c.world.mode b = .queued) {i n m : Nat} {t : ThreadId} {next : Program σ ε α}
  {k l : List (Frame σ ε α)} {x : Control σ ε α}
include h hb

/-- While other strands work, a strand and the lanes of its threads stay as they are. -/
theorem others_silent {s : Strand σ ε α} (hs : (c.after code picks m).strands[i]? = some s)
    (ht : t ∈ s.threads) (hp : picks m ≠ .work i) :
    (c.after code picks (m + 1)).strands[i]? = some s ∧ c.Silent code picks b t m := by
  obtain ⟨hstrand, hentry, happended, htaken⟩ := others_still code (h.seated.after code picks m)
    (h.apart.after code picks m) hb hs ht hp
  refine ⟨hstrand, hentry, happended, htaken, ?_⟩
  have hmans : Mans c code picks i t := ⟨m, s, hs, ht⟩
  unfold dropped
  rw [hmans.seen_eq_own h.apart h.seated (fun _ => Machine.drops_of_not_mem) m]
  rcases own_cases code hs (picks m) with ⟨hpm, -, -⟩ | ⟨-, -, hown⟩
  · exact absurd hpm hp
  · exact hown _ _

/-- On the way back each step is silent, whoever makes it. -/
theorem homeward_silent (hhome : Homeward next k x l)
    (hs : (c.after code picks m).strands[i]? = some ⟨t, x, l⟩) :
    ∃ y l', (c.after code picks (m + 1)).strands[i]? = some ⟨t, y, l'⟩ ∧
      c.Silent code picks b t m ∧ (Home next k y l' ∨ Homeward next k y l') ∧
      ∀ p, y = .unwinding p ↔ x = .unwinding p := by
  by_cases hp : picks m = .work i
  · obtain ⟨hnext, hworld, hown⟩ := own_turn hs hp
    obtain ⟨y, l', hstep, hy, hpanic⟩ :=
      hhome.step code { (c.after code picks m).world with thread := t }
    obtain ⟨happended, htaken, hdropped⟩ :=
      hhome.still { (c.after code picks m).world with thread := t } b t
    replace hstep : ((c.after code picks m).machine ⟨t, x, l⟩).step code = _ := hstep
    rw [hstep] at hnext hworld
    refine ⟨y, l', hnext, ⟨?_, (hown _).trans happended, (hown _).trans htaken,
      (hown _).trans hdropped⟩, hy, hpanic⟩
    rw [hworld]
    rfl
  · obtain ⟨hs', hsilent⟩ := others_silent h code picks hb hs (List.mem_cons_self ..) hp
    exact ⟨x, l, hs', hsilent, .inr hhome, fun _ => Iff.rfl⟩

theorem Idling.step (hnm : n ≤ m) (hm : c.Idling code picks b i n t next k m) :
    c.Idles code picks b i n t (.run next) k (m + 1) ∨ c.Idling code picks b i n t next k (m + 1) := by
  obtain ⟨x, l, hhome, hidles⟩ := hm
  obtain ⟨y, l', hs, hsilent, hy, hpanic⟩ := homeward_silent h code picks hb hhome hidles.strand
  have hidles' := hidles.silent hnm hsilent hs hpanic
  rcases hy with ⟨rfl, rfl | ⟨p, rfl⟩⟩ | hhome'
  · exact .inl hidles'
  · exact absurd rfl (hidles'.calm p)
  · exact .inr ⟨y, l', hhome', hidles'⟩

theorem Books.step (hnm : n ≤ m)
    (hm : c.Books code picks b n t m ((c.after code picks m).world.waiting b t)) :
    c.Books code picks b n t (m + 1)
      (c.dropped code picks b t m ++ (c.after code picks (m + 1)).world.waiting b t) := by
  have hturn := (turn_lane h code picks t hb m).conserves
  rw [lane_pending h code picks hb, lane_pending h code picks hb] at hturn
  unfold Books at hm ⊢
  rw [during_succ _ hnm, during_succ _ hnm, ← List.append_assoc, hm, List.append_assoc,
    List.append_assoc]
  congr 1
  rw [← List.append_assoc]
  exact hturn

/-- While a drain stays on the stack nothing is dropped. -/
theorem Drains.stays (hnm : n ≤ m)
    (hm : c.Books code picks b n t m ((c.after code picks m).world.waiting b t))
    (hkept : during (c.dropped code picks b t) n m = []) {s : Strand σ ε α}
    (hs : (c.after code picks (m + 1)).strands[i]? = some s) (hl : Bed next k l)
    (hholds : s.Holds t (.draining b t :: l)) : c.Drains code picks b i n t next k (m + 1) := by
  have hlane := lane_of_draining h code picks t hb hs hholds.mem
  have hdropped : c.dropped code picks b t m = [] :=
    (turn_lane h code picks t hb m).dropped_of_filled hlane
  refine ⟨⟨s, l, hs, hl, hholds⟩, ?books, ?kept⟩
  case books =>
    have hbooks := hm.step h code picks hb hnm
    rwa [hdropped] at hbooks
  case kept => rw [during_succ _ hnm, hkept, hdropped, List.append_nil]

/-- A drain on top ends and its queue is gone. What it drops it drops for a panic that left a report. -/
theorem Drains.closes (hnm : n ≤ m) {p : Program σ ε α} {k' : List (Frame σ ε α)}
    (hn : (c.after code picks n).strands[i]? = some ⟨t, .run p, k'⟩)
    (hbooks : c.Books code picks b n t m ((c.after code picks m).world.waiting b t))
    (hkept : during (c.dropped code picks b t) n m = []) (hl : Bed next k l)
    (hs : (c.after code picks m).strands[i]? = some ⟨t, x, .draining b t :: l⟩)
    {y : Control σ ε α} (hs' : (c.after code picks (m + 1)).strands[i]? = some ⟨t, y, l⟩)
    (hgone : (c.after code picks (m + 1)).world.entry b t = none)
    (hend : y = .returned .done ∧ c.dropped code picks b t m = [] ∨
      ∃ q, x = .unwinding q ∧ y = .unwinding q) :
    c.Drained code picks b i n t next k (m + 1) y l := by
  have hdropped : during (c.dropped code picks b t) n (m + 1) = c.dropped code picks b t m := by
    rw [during_succ _ hnm, hkept, List.nil_append]
  have hleft := hbooks.step h code picks hb hnm
  rw [World.waiting, hgone] at hleft
  replace hleft : c.Books code picks b n t (m + 1) (c.dropped code picks b t m ++ []) := hleft
  rw [List.append_nil, ← hdropped] at hleft
  refine ⟨hs', hgone, hleft, ?lost⟩
  rcases hend with ⟨rfl, hnone⟩ | ⟨q, rfl, rfl⟩
  · refine .inl ⟨?_, hdropped.trans hnone⟩
    intro q hq
    cases hq
  · obtain ⟨j, d, e, hnj, hjm, hj⟩ := h.docked.report_before hnm hn hs
    exact .inr ⟨q, j, d, e, l, rfl, hnj, Nat.lt_succ_of_lt hjm, hl, hj⟩

/-- A drain lasts, or ends and its queue is gone. -/
theorem Drains.step (hnm : n ≤ m) {p : Program σ ε α} {k' : List (Frame σ ε α)}
    (hn : (c.after code picks n).strands[i]? = some ⟨t, .run p, k'⟩)
    (hm : c.Drains code picks b i n t next k m) : c.Posting code picks b i n t next k (m + 1) := by
  obtain ⟨⟨s, l, hs, hl, hholds⟩, hbooks, hkept⟩ := hm
  by_cases hp : picks m = .work i
  · obtain ⟨hnext, hworld, hown⟩ := own_turn hs hp
    rcases hholds.step (strand_step code (c.after code picks m) s) with hholds' | ⟨hrests, hs'⟩
    · exact .inl (Drains.stays h code picks hb hnm hbooks hkept hnext hl hholds')
    · -- The drain is on top.
      rcases Machine.drain_on_top code (m := (c.after code picks m).machine s)
        (h.queued_after code picks hb m) hrests hs' with hholds' | ⟨hgone, hend⟩
      · exact .inl (Drains.stays h code picks hb hnm hbooks hkept hnext hl hholds')
      · rw [← hworld] at hgone
        rw [hs'] at hs
        refine .inr ?_
        rcases hend with ⟨hstrand, hnone⟩ | ⟨q, hc, hstrand⟩
        · rw [hstrand] at hnext
          exact ⟨.returned .done, l, .rests trivial hl, Drains.closes h code picks hb hnm hn hbooks hkept
            hl hs hnext hgone (.inl ⟨rfl, (hown _).trans hnone⟩)⟩
        · rw [hstrand] at hnext
          exact ⟨.unwinding q, l, .rests trivial hl, Drains.closes h code picks hb hnm hn hbooks hkept
            hl hs hnext hgone (.inr ⟨q, hc, rfl⟩)⟩
  · have hstack := ((h.seated.after code picks m).strands s (List.mem_of_getElem? hs)).stack
    have ht := mem_threads_of_drain hstack hholds.mem
    obtain ⟨hs', -⟩ := others_silent h code picks hb hs ht hp
    exact .inl (Drains.stays h code picks hb hnm hbooks hkept hs' hl hholds)

theorem Posting.step (hnm : n ≤ m) {p : Program σ ε α} {k' : List (Frame σ ε α)}
    (hn : (c.after code picks n).strands[i]? = some ⟨t, .run p, k'⟩)
    (hm : c.Posting code picks b i n t next k m) :
    c.Posted code picks b i n t next k (m + 1) ∨ c.Posting code picks b i n t next k (m + 1) := by
  rcases hm with hdrains | ⟨x, l, hhome, hdrained⟩
  · exact .inr (hdrains.step h code picks hb hnm hn)
  · obtain ⟨y, l', hs, hsilent, hy, hpanic⟩ := homeward_silent h code picks hb hhome hdrained.strand
    have hdrained' := hdrained.silent hnm hsilent hs hpanic
    rcases hy with ⟨rfl, hy⟩ | hhome'
    · exact .inl ⟨y, hy, hdrained'⟩
    · exact .inr (.inr ⟨y, l', hhome', hdrained'⟩)

/-- A post that finds somebody starts a drain if none of its thread is on the stack below. -/
theorem drains_of_post {e : Event α} {p : Program σ ε α} (hp : picks m = .work i) (hnm : n ≤ m)
    (hbooks : c.Books code picks b n t m ((c.after code picks m).world.waiting b t))
    (hkept : during (c.dropped code picks b t) n m = [])
    (hs : (c.after code picks m).strands[i]? = some ⟨t, .run (.post b e p), l⟩)
    (hl : Bed next k (.resume p :: l)) (hk : .draining b t ∉ l)
    (hf : (c.after code picks m).world.finds b e ≠ []) :
    c.Drains code picks b i n t next k (m + 1) := by
  have hidle : ((c.after code picks m).world.bus b).queues.isDraining t = false := by
    by_contra hdraining
    rw [Bool.not_eq_false, (entry_iff h code picks hb t m).2.1] at hdraining
    obtain ⟨s, hmem, ht, hdrain⟩ := hdraining
    obtain ⟨j, hj⟩ := List.getElem?_of_mem hmem
    by_cases hij : i = j
    · subst hij
      cases hs.symm.trans hj
      exact hk hdrain
    · exact (h.apart.after code picks m).not_mem hs hj hij (List.mem_cons_self ..) ht
  obtain ⟨hnext, -, -⟩ := own_turn hs hp
  refine Drains.stays h code picks hb hnm hbooks hkept hnext hl ?_
  have hstack : (((c.after code picks m).machine ⟨t, .run (.post b e p), l⟩).step code).stack =
      [.draining b t, .resume p] ++ l :=
    Machine.stack_post (w := { (c.after code picks m).world with thread := t })
      (h.queued_after code picks hb m) hf hidle p l
  obtain ⟨fs, hfs, hground⟩ := (strand_step code (c.after code picks m)
    ⟨t, .run (.post b e p), l⟩).above (show _ = [] ++ l from rfl) (.inr id)
  obtain rfl := List.append_cancel_right (hfs.symm.trans hstack)
  exact ⟨[], hstack, hground⟩

/-- A strand that waits for its turn leaves the queue alone. -/
theorem Idles.wait (hm : c.Idles code picks b i n t x l m) (hnm : n ≤ m) {m' : Nat} (hmm : m ≤ m')
    (hp : ∀ j, m ≤ j → j < m' → picks j ≠ .work i) : c.Idles code picks b i n t x l m' := by
  induction m', hmm using Nat.le_induction with
  | base => exact hm
  | succ m' hmm ih =>
    have hm' := ih fun j hj hjm => hp j hj (Nat.lt_succ_of_lt hjm)
    obtain ⟨hs, hsilent⟩ := others_silent h code picks hb hm'.strand (List.mem_cons_self ..)
      (hp m' hmm (Nat.lt_succ_self m'))
    exact hm'.silent (Nat.le_trans hnm hmm) hsilent hs fun _ => Iff.rfl

section

variable {s : Strand σ ε α} (hm : (c.after code picks m).strands[i]? = some s)
  (hlen : s.stack.length ≤ k.length)
include hm hlen

/-- From its drain a post comes to its end. -/
theorem Posting.ends {p : Program σ ε α} {k' : List (Frame σ ε α)}
    (hn : (c.after code picks n).strands[i]? = some ⟨t, .run p, k'⟩) {j : Nat} (hnj : n ≤ j)
    (hjm : j < m) (hj : c.Posting code picks b i n t next k (j + 1)) :
    ∃ r y, j < r ∧ r ≤ m ∧ (y = .run next ∨ ∃ p, y = .unwinding p) ∧
      c.Drained code picks b i n t next k r y k ∧
      ∀ l, j < l → l < r → ∃ s, (c.after code picks l).strands[i]? = some s ∧
        k.length < s.stack.length := by
  rcases ends_or_lasts hjm (.inr hj) fun m hjm _ hm =>
    hm.step h code picks hb (Nat.le_of_lt (Nat.lt_of_le_of_lt hnj hjm)) hn with
    ⟨r, hjr, hrm, ⟨y, hy, hdrained⟩, hlasts⟩ | hlasts
  · exact ⟨r, y, hjr, hrm, hy, hdrained, fun l hjl hlr => (hlasts l hjl hlr).length⟩
  · obtain ⟨s', hs', hlong⟩ := (hlasts m hjm (Nat.le_refl m)).length
    cases hm.symm.trans hs'
    exact absurd hlong (Nat.not_lt_of_le hlen)

theorem Idling.ends {j : Nat} (hnj : n ≤ j) (hjm : j < m)
    (hj : c.Idling code picks b i n t next k (j + 1)) :
    ∃ r, j < r ∧ r ≤ m ∧ c.Idles code picks b i n t (.run next) k r ∧
      ∀ l, j < l → l < r → ∃ s, (c.after code picks l).strands[i]? = some s ∧
        k.length < s.stack.length := by
  rcases ends_or_lasts hjm (.inr hj) fun m hjm _ hm =>
    hm.step h code picks hb (Nat.le_of_lt (Nat.lt_of_le_of_lt hnj hjm)) with
    ⟨r, hjr, hrm, hidles, hlasts⟩ | hlasts
  · refine ⟨r, hjr, hrm, hidles, fun l hjl hlr => ?_⟩
    obtain ⟨x, l', hhome, hidles⟩ := hlasts l hjl hlr
    exact ⟨_, hidles.strand, hhome.length⟩
  · obtain ⟨x, l', hhome, hidles⟩ := hlasts m hjm (Nat.le_refl m)
    cases hm.symm.trans hidles.strand
    exact absurd hhome.length (Nat.not_lt_of_le hlen)

/-- A post that does not stay on the stack for ever comes to its end. If it puts something on the
queue, its drain has come to its end before; if not, the queue is as it was. -/
theorem post_ends {e : Event α} (hp : picks n = .work i)
    (hs : (c.after code picks n).strands[i]? = some ⟨t, .run (.post b e next), k⟩)
    (hk : .draining b t ∉ k) (hnm : n < m) :
    ∃ r y, n < r ∧ r ≤ m ∧ (y = .run next ∨ ∃ p, y = .unwinding p) ∧
      (c.Puts code picks b i n e ∧ c.Drained code picks b i n t next k r y k ∨
        ¬c.Puts code picks b i n e ∧ c.Idles code picks b i n t y k r) ∧
      ∀ l, n < l → l < r → ∃ s, (c.after code picks l).strands[i]? = some s ∧
        k.length < s.stack.length := by
  have hstart : c.Idles code picks b i n t (.run (.post b e next)) k n :=
    .start hs fun p hp => by cases hp
  by_cases hf : (c.after code picks n).world.finds b e = []
  · have hresolve := World.finds_eq_nil.mp hf
    have hsilent := silent_of_unheard hp hs hf
    by_cases hd : e.type = .dead
    · -- A dead event is dropped.
      have hidles := hstart.silent (Nat.le_refl n) hsilent (goesOn_dropped code hp hs hresolve hd).strand
        fun p => by simp
      refine ⟨n + 1, .run next, Nat.lt_succ_self n, hnm, .inl rfl, .inr ⟨?_, hidles⟩, fun l hnl hln => ?_⟩
      · rintro (hputs | ⟨hne, -⟩)
        · exact hputs hf
        · exact hne hd
      · exact absurd hln (Nat.not_lt_of_le hnl)
    · -- The strand waits, and then posts the dead event.
      obtain ⟨j, hnext, hjm, hj⟩ := exists_bury code hp hs hresolve hd hnm hm hlen
      have hwaits : ∀ l, n < l → l ≤ j →
          c.Idles code picks b i n t (.run (.bury b e)) (.resume next :: k) l := fun l hnl hlj =>
        Idles.wait h code picks hb (hstart.silent (Nat.le_refl n) hsilent
          (goesOn_buried code hp hs hresolve hd).strand fun p => by simp) (Nat.le_succ n) hnl
          fun m hnm hml => hnext.others m hnm (Nat.lt_of_lt_of_le hml hlj)
      have hidles := hwaits j hnext.lt (Nat.le_refl j)
      have hnj := Nat.le_of_lt hnext.lt
      have hhigh : ∀ r, (∀ l, j < l → l < r → ∃ s, (c.after code picks l).strands[i]? = some s ∧
          k.length < s.stack.length) → ∀ l, n < l → l < r →
            ∃ s, (c.after code picks l).strands[i]? = some s ∧ k.length < s.stack.length := by
        intro r hlater l hnl hlr
        rcases Nat.lt_or_ge j l with hjl | hlj
        · exact hlater l hjl hlr
        · exact ⟨_, (hwaits l hnl hlj).strand, Nat.lt_succ_self _⟩
      by_cases hheirs : (c.after code picks j).world.finds b (.dead b e) = []
      · obtain ⟨r, hjr, hrm, hends, hlater⟩ := Idling.ends h code picks hb hm hlen hnj hjm
          ⟨_, _, .buried, hidles.silent hnj (silent_of_unheard hnext.turn hj hheirs)
            (goesOn_dropped code hnext.turn hj (World.finds_eq_nil.mp hheirs) rfl).strand
            fun p => by simp⟩
        refine ⟨r, _, Nat.lt_trans hnext.lt hjr, hrm, .inl rfl, .inr ⟨?_, hends⟩, hhigh r hlater⟩
        rintro (hputs | ⟨-, l, hl, hputs⟩)
        · exact hputs hf
        · rw [hl.unique hnext] at hputs
          exact hputs hheirs
      · have hdrains := drains_of_post h code picks hb hnext.turn hnj hidles.books hidles.dropped hj
          .dead (fun hmem => hk ((List.mem_cons.mp hmem).resolve_left fun h => by cases h)) hheirs
        obtain ⟨r, y, hjr, hrm, hy, hends, hlater⟩ :=
          Posting.ends h code picks hb hm hlen hs hnj hjm (.inl hdrains)
        exact ⟨r, y, Nat.lt_trans hnext.lt hjr, hrm, hy, .inl ⟨.inr ⟨hd, j, hnext, hheirs⟩, hends⟩,
          hhigh r hlater⟩
  · have hdrains := drains_of_post h code picks hb hp (Nat.le_refl n) Books.start (during_self _ _) hs
      .own hk hf
    obtain ⟨r, y, hnr, hrm, hy, hends, hhigh⟩ :=
      Posting.ends h code picks hb hm hlen hs (Nat.le_refl n) hnm (.inl hdrains)
    exact ⟨r, y, hnr, hrm, hy, .inl ⟨.inl hf, hends⟩, hhigh⟩

end

end

section

variable {c : Crew σ ε α} (h : c.Fresh) (code : Behaviour σ ε α) (picks : Nat → Pick σ ε α)
  {b : BusId} (hb : c.world.mode b = .queued) {i j n : Nat} {t : ThreadId}
include h hb

/-- A strand at no delivery has started on its thread what it has taken there. -/
theorem taken_eq_started_of_task (hjn : j ≤ n) {u : ThreadId} {p : Program σ ε α} {x : Control σ ε α}
    {k k' : List (Frame σ ε α)} (hs : (c.after code picks j).strands[i]? = some ⟨t, .run p, k⟩)
    (hs' : (c.after code picks n).strands[i]? = some ⟨u, x, k'⟩) (hx : x.task? = none) :
    during (fun m => (c.after code picks m).seen (picks m) (·.takes b t)) j n =
      during (fun m => (c.after code picks m).seen (picks m) (·.startsOn b t)) j n := by
  have hmans : Mans c code picks i t := ⟨j, _, hs, List.mem_cons_self ..⟩
  have hbooks := own_fifo c code picks (fun s => if s.thread = t then s.control.calls b else [])
    (·.takes b t) (·.startsOn b t) hjn (fun m s _ _ _ hm => by
      have hseated := (h.seated.after code picks m).strands s (List.mem_of_getElem? hm)
      rw [Machine.takes_eq hseated, (strand_step code (c.after code picks m) s).calls_on
        (h.calls_step c code picks hb hm) t]
      rfl) hs hs'
  have hcalls : x.calls b = [] := Control.calls_of_task hx
  have hrun : (.run p : Control σ ε α).calls b = [] := rfl
  simp only [hcalls, hrun, ite_self, List.append_nil, List.nil_append] at hbooks
  rw [during_congr fun m _ _ => hmans.seen_eq_own h.apart h.seated (fun _ =>
    Machine.takes_of_not_mem) m, hbooks]
  exact during_congr fun m _ _ => (hmans.seen_eq_own h.apart h.seated (fun _ _ =>
    Machine.startsOn_of_not_mem) m).symm

/-- Where deliveries come by posts alone, a thread without a drain has no queue. -/
theorem entry_of_undrained (hposts : ∀ m < n, (c.after code picks m).seen (picks m) (·.enqueues b) = [])
    {x : Control σ ε α} {k : List (Frame σ ε α)}
    (hs : (c.after code picks n).strands[i]? = some ⟨t, x, k⟩) (hk : .draining b t ∉ k) :
    (c.after code picks n).world.entry b t = none := by
  have hseat := ((h.seated.after code picks n).strands _ (List.mem_of_getElem? hs)).stack
  have hundrained : Strand.drains b t ⟨t, x, k⟩ = 0 :=
    (drains_eq_countP hseat).trans (Nat.eq_zero_of_not_pos (mt countP_isDrain_pos_iff.mp hk))
  rw [← lane_eq_empty_iff h code picks t hb]
  exact h.lane_of_mans code picks hb hposts ⟨n, _, hs, List.mem_cons_self ..⟩ hs hundrained

end

/-- The life of the entries of a queued bus. At all times a thread has an entry iff something waits
for it or a drain of it is on the stack of its strand; it shows as draining iff there is one, and there
is at most one. So a drain of a thread without entry, or inside a drain of its own, changes nothing.

A post that is not inside such a drain ends in one of two ways. It returns, and nothing is dropped; or
a panic leaves it that left a report in its drain before. Either way its thread has no entry then. What
waited for the thread before and came since was taken or dropped, what was taken was started by the
thread, and all that was started has been settled. This holds of each post that puts something on the
queue, be it for its event or for the dead event in its place; one that does not starts no drain and
leaves no entry if deliveries came to the bus by posts alone. -/
theorem queue_entries_live {c : Crew σ ε α} (h : c.Fresh) (code : Behaviour σ ε α)
    (picks : Nat → Pick σ ε α) {b : BusId} (hb : c.world.mode b = .queued) :
    let crew := c.after code picks
    let queues := fun n => ((crew n).world.bus b).queues
    (∀ n t,
      let draining := ∃ s ∈ (crew n).strands, t ∈ s.threads ∧ .draining b t ∈ s.stack
      ((queues n).get? t ≠ none ↔ 0 < (queues n).pending t ∨ draining) ∧
        ((queues n).isDraining t = true ↔ draining) ∧
        ((crew n).strands.flatMap (·.stack)).countP (·.isDrain b t) ≤ 1) ∧
    (∀ n i t next k, picks n = .work i →
      (crew n).strands[i]? = some ⟨t, .run (.drain b next), k⟩ →
      (queues n).get? t = none ∨ .draining b t ∈ k →
        crew (n + 1) =
          ⟨{ (crew n).world with thread := t }, (crew n).strands.set i ⟨t, .run next, k⟩⟩) ∧
    ∀ n m i t e next k s, picks n = .work i →
      (crew n).strands[i]? = some ⟨t, .run (.post b e next), k⟩ → .draining b t ∉ k →
      (c.Puts code picks b i n e ∨ ∀ l < n, (crew l).seen (picks l) (·.enqueues b) = []) →
      n < m → (crew m).strands[i]? = some s → s.stack.length ≤ k.length →
        ∃ r x, n < r ∧ r ≤ m ∧ (crew r).strands[i]? = some ⟨t, x, k⟩ ∧
          (∀ l, n < l → l < r → ∃ s, (crew l).strands[i]? = some s ∧ k.length < s.stack.length) ∧
          (queues r).get? t = none ∧ (queues r).pending t = 0 ∧ (queues r).isDraining t = false ∧
          (let appended := fun l => (crew l).seen (picks l) (·.appends b t)
            let taken := fun l => (crew l).seen (picks l) (·.takes b t)
            let dropped := fun l => (crew l).seen (picks l) (·.drops b t)
            let started := fun l => (crew l).seen (picks l) (·.startsOn b t)
            (crew n).world.waiting b t ++ during appended n r =
                during taken n r ++ during dropped n r ∧
              during taken n r = during started n r ∧
              (x = .run next ∧ during dropped n r = [] ∨
                ∃ p j d error under, x = .unwinding p ∧ n < j ∧ j < r ∧
                  (under = .resume next :: k ∨
                    under = .resume (.finish .done) :: .resume next :: k) ∧
                  (crew j).strands[i]? =
                    some ⟨t, .unwinding p, .report b d error :: .draining b t :: under⟩)) ∧
          (during (fun l => (crew l).own i (picks l) (·.starts b)) n r).Perm
            ((during (fun l => (crew l).own i (picks l) (·.settles b)) n r).map Prod.fst) := by
  intro crew queues
  refine ⟨fun n t => entry_iff h code picks hb t n, fun n i t next k hp hs hpass =>
    drain_passes h code picks hb t hp hs hpass, ?posts⟩
  case posts =>
    intro n m i t e next k s hp hs hk hposts hnm hm hlen
    obtain ⟨r, x, hnr, hrm, hx, hend, hhigh⟩ := post_ends h code picks hb hm hlen hp hs hk hnm
    -- A post that puts nothing on the queue found none there.
    have hdrained : c.Drained code picks b i n t next k r x k := by
      rcases hend with ⟨-, hdrained⟩ | ⟨hputs, hidles⟩
      · exact hdrained
      · have hnone := entry_of_undrained h code picks hb (hposts.resolve_left hputs) hs hk
        have hgone := hidles.entry.trans hnone
        refine ⟨hidles.strand, hgone, ?_, .inl ⟨hidles.calm, hidles.dropped⟩⟩
        have hbooks := hidles.books
        rw [World.waiting, hgone] at hbooks
        rw [hidles.dropped]
        exact hbooks
    obtain ⟨hs', hgone, hbooks, hlost⟩ := hdrained
    have hgone : (queues r).get? t = none := hgone
    have htask : x.task? = none := by
      rcases hx with rfl | ⟨p, rfl⟩
      · rfl
      · rfl
    refine ⟨r, x, hnr, hrm, hs', hhigh, hgone, ?pending, ?idle, ⟨hbooks, ?started, ?lost⟩, ?settled⟩
    case pending =>
      unfold Queues.pending
      rw [hgone]
    case idle =>
      unfold Queues.isDraining
      rw [hgone]
    case started => exact taken_eq_started_of_task h code picks hb (Nat.le_of_lt hnr) hs hs' htask
    case lost =>
      rcases hlost with ⟨hreturned, hnone⟩ | ⟨p, j, d, error, under, hpanic, hnj, hjr, hunder, hj⟩
      · refine .inl ⟨hx.resolve_right ?_, hnone⟩
        intro hpanic
        obtain ⟨p, hp⟩ := hpanic
        exact hreturned p hp
      · refine .inr ⟨p, j, d, error, under, hpanic, hnj, hjr, ?_, hj⟩
        cases hunder with
        | own => exact .inl rfl
        | dead => exact .inr rfl
    case settled => exact starts_perm_settles_of_task (Nat.le_of_lt hnr) hs hs' htask b

end Crew

/-! A post that a panic leaves: its sink panics, and its drain drops what is pending. -/

namespace Ripple

theorem post_left_by_sink_panic :
    let run := shaky.after panicking (fun _ => .work 0)
    let appended := fun l => (run l).seen (.work 0) (·.appends 0 0)
    (shaky.Fresh ∧ shaky.world.mode 0 = .queued ∧
        (run 0).strands[0]? = some ⟨0, .run (.post 0 (event ping) (.finish .done)), []⟩ ∧
        shaky.Puts panicking (fun _ => .work 0) 0 0 0 (event ping) ∧
        (run 16).strands[0]? = some ⟨0, .unwinding (.text "sink"), []⟩) ∧
      ((run 16).world.bus 0).queues.get? 0 = none ∧
      during appended 0 16 = [first] ++ [second, answer, letter] := by
  intro run appended
  have hf : shaky.Fresh := by
    refine ⟨fun b t => ?_, fun s hs => ?_, by decide, fun s hs => ?_⟩
    · cases b <;> rfl
    · rw [List.mem_singleton.mp hs]
      exact ⟨⟨_, rfl⟩, rfl⟩
    · rw [List.mem_singleton.mp hs]
      decide
  have hs : (run 0).strands[0]? = some ⟨0, .run (.post 0 (event ping) (.finish .done)), []⟩ := rfl
  have hputs : shaky.Puts panicking (fun _ => .work 0) 0 0 0 (event ping) :=
    .inl (List.cons_ne_nil first [second])
  have hend : (run 16).strands[0]? = some ⟨0, .unwinding (.text "sink"), []⟩ := rfl
  obtain ⟨r, x, hnr, hrm, hx, -, hgone, -, -, ⟨hbooks, -, -⟩, -⟩ :=
    (Crew.queue_entries_live hf panicking (fun _ => .work 0) rfl).2.2 0 16 0 0 _ _ _ _ rfl hs
      List.not_mem_nil (.inl hputs) (by decide) hend (Nat.le_refl _)
  have hhigh : ∀ l < 16, ((run l).strands[0]?.map (·.stack.length)).getD 0 = 0 → l = 0 := by
    decide +kernel
  have hr16 : r = 16 := by
    by_contra hne
    have hzero := hhigh r (Nat.lt_of_le_of_ne hrm hne) (by rw [hx]; rfl)
    exact absurd hnr (Nat.not_lt_of_le (Nat.le_of_eq hzero))
  subst hr16
  exact ⟨⟨hf, rfl, hs, hputs, hend⟩, hgone, hbooks⟩

end Ripple
end EventBus
