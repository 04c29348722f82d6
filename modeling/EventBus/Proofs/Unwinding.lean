import EventBus.Proofs.DispatchOrder
import EventBus.Proofs.Journals
import EventBus.Proofs.Threads

/-!
# Sinks that panic

A panic of a sink in the drain of a queue goes through the drain to the post that started it. The
drain drops what is pending in its queue, says so, and leaves everything else as it is.
-/

namespace EventBus

variable {σ ε α : Type}

/-- From `w` to `w'` the queue of `t` on `b` goes away with the deliveries `lost`, which is told if
there are some, and nothing else changes. -/
structure World.Drops (w w' : World σ ε α) (b : BusId) (t : ThreadId) (lost : List (Delivery α)) :
    Prop where
  gone : w'.entry b t = none
  queues : ∀ c u, ¬(c = b ∧ u = t) → w'.entry c u = w.entry c u
  registry : ∀ c, (w'.bus c).registry = (w.bus c).registry
  cache : ∀ c, (w'.bus c).cache = (w.bus c).cache
  config : ∀ c, (w'.bus c).config = (w.bus c).config
  sink : ∀ c, (w'.bus c).sink = (w.bus c).sink
  discovery : ∀ c, (w'.bus c).discovery = (w.bus c).discovery
  graph : w'.graph = w.graph
  subscribers : w'.subscribers = w.subscribers
  store : w'.store = w.store
  nextThread : w'.nextThread = w.nextThread
  journal : w'.journal =
    w.journal ++ if lost = [] then [] else [.notice (.discarded lost.length)]

theorem World.drops_abandon {w : World σ ε α} {b : BusId} {t : ThreadId} (hb : w.mode b = .queued)
    {lost : List (Delivery α)} {draining : Bool} (hq : w.entry b t = some ⟨lost, draining⟩) :
    Drops w (w.abandon b t) b t lost := by
  let v := w.setQueues b ((w.bus b).queues.release t).2
  have hlost : ((w.bus b).queues.release t).1 = lost.length := by
    show (w.bus b).queues.pending t = _
    rw [Queues.pending, show (w.bus b).queues.get? t = _ from hq]
  have hv : ∃ j, w.abandon b t = { v with journal := j } ∧
      j = w.journal ++ if lost = [] then [] else [.notice (.discarded lost.length)] := by
    simp only [abandon, hlost]
    by_cases hl : lost = []
    · subst hl
      exact ⟨_, rfl, by rw [if_pos rfl, List.append_nil]⟩
    · rw [if_neg (mt List.eq_nil_of_length_eq_zero hl)]
      exact ⟨_, rfl, by rw [if_neg hl]; rfl⟩
  obtain ⟨j, ha, hj⟩ := hv
  have hother : ∀ u, u ≠ t → ((w.bus b).queues.release t).2.get? u = w.entry b u :=
    fun u hu => Queues.get?_release_ne _ hu
  rw [ha]
  exact {
    gone := by
      show v.entry b t = none
      rw [entry_setQueues hb, if_pos rfl, Queues.get?_release_self]
    queues := fun c u h => entry_setQueues_ne hb hother fun h' => h ⟨h'.1.symm, h'.2.symm⟩
    registry := fun c => view_modifyBus (·.registry) _ b c rfl
    cache := fun c => view_modifyBus (·.cache) _ b c rfl
    config := fun c => view_modifyBus (·.config) _ b c rfl
    sink := fun c => view_modifyBus (·.sink) _ b c rfl
    discovery := fun c => view_modifyBus (·.discovery) _ b c rfl
    graph := rfl
    subscribers := rfl
    store := rfl
    nextThread := rfl
    journal := hj }

namespace Crew

section

variable {c : Crew σ ε α} {i : Nat} {b : BusId} {t : ThreadId} {p : Panic}
  {k : List (Frame σ ε α)} (code : Behaviour σ ε α)

theorem step_report_unwinding {x : Delivery α} {e : HandlerError}
    (hs : c.strands[i]? = some ⟨t, .unwinding p, .report b x e :: k⟩) :
    (c.step code (.work i)).strands[i]? = some ⟨t, .unwinding p, k⟩ ∧
      (∀ b u, (c.step code (.work i)).world.entry b u = c.world.entry b u) ∧
      c.seen (.work i) (·.appends b t) = [] ∧ c.seen (.work i) (·.takes b t) = [] := by
  have hi : i < c.strands.length := (List.getElem?_eq_some_iff.mp hs).1
  simp only [Crew.step, seen, picked?, hs]
  exact ⟨List.getElem?_set_self hi, fun _ _ => rfl, rfl, rfl⟩

theorem step_draining_unwinding (hb : c.world.mode b = .queued) {lost : List (Delivery α)}
    {draining : Bool} (hq : c.world.entry b t = some ⟨lost, draining⟩)
    (hs : c.strands[i]? = some ⟨t, .unwinding p, .draining b t :: k⟩) :
    (c.step code (.work i)).strands = c.strands.set i ⟨t, .unwinding p, k⟩ ∧
      World.Drops c.world (c.step code (.work i)).world b t lost ∧
      c.seen (.work i) (·.appends b t) = [] ∧ c.seen (.work i) (·.takes b t) = [] := by
  simp only [Crew.step, seen, picked?, hs]
  refine ⟨?_, ?_, rfl, rfl⟩
  · show c.strands.set i ⟨(World.abandon _ b t).thread, .unwinding p, k⟩ = _
    rw [World.thread_abandon]
    rfl
  · exact { World.drops_abandon (w := { c.world with thread := t }) hb hq with }

end

section

variable {c : Crew σ ε α} (h : c.Fresh) (code : Behaviour σ ε α) (picks : Nat → Pick σ ε α)
  {b : BusId} (hb : c.world.mode b = .queued) {n i : Nat} {t : ThreadId} {p : Panic} {x : Delivery α}
  {e : HandlerError} {k : List (Frame σ ε α)}
  (hs : (c.after code picks n).strands[i]? = some ⟨t, .unwinding p, .report b x e :: k⟩)
include h hb hs

theorem report_on_drain : ∃ next rest, k = .draining b t :: .resume next :: rest := by
  obtain ⟨-, -, hseat, -, hk⟩ :=
    (h.seated.after code picks n).strands _ (List.mem_of_getElem? hs)
  exact hseat.on_drain hb hk

theorem lane_of_report : ∃ rest, (c.after code picks n).lane b t = .busy rest (some x) :=
  lane_of_working h code picks t hb hs
    (by simp [Strand.working, Control.task?, Frame.task?, workOn, EventBus.working])

end

/-- The strand `i` is on its way out of a report on a drain with `lost` pending, or out of the
drain. -/
structure Leaving (c : Crew σ ε α) (b : BusId) (t : ThreadId) (p : Panic) (i : Nat)
    (k : List (Frame σ ε α)) (lost : List (Delivery α)) : Prop where
  strand : (∃ x e, c.strands[i]? = some ⟨t, .unwinding p, .report b x e :: .draining b t :: k⟩) ∨
    c.strands[i]? = some ⟨t, .unwinding p, .draining b t :: k⟩
  entry : c.world.entry b t = some ⟨lost, true⟩

section

variable {c : Crew σ ε α} {mode : BusId → DispatchMode} (h : c.Seated mode)
  (code : Behaviour σ ε α) {b : BusId} (hb : mode b = .queued) {t : ThreadId} {p : Panic} {i : Nat}
  {k : List (Frame σ ε α)} {lost : List (Delivery α)}
include h hb

theorem Leaving.other (ha : c.Apart) (hl : c.Leaving b t p i k lost) {pick : Pick σ ε α}
    (hp : pick ≠ .work i) :
    (c.step code pick).Leaving b t p i k lost ∧
      (c.step code pick).strands[i]? = c.strands[i]? ∧
      c.seen pick (·.appends b t) = [] ∧ c.seen pick (·.takes b t) = [] := by
  obtain ⟨s, hs, ht⟩ : ∃ s, c.strands[i]? = some s ∧ s.thread = t := by
    rcases hl.strand with ⟨x, e, hs⟩ | hs
    · exact ⟨_, hs, rfl⟩
    · exact ⟨_, hs, rfl⟩
  obtain ⟨hstrand, hentry, happ, htake⟩ :=
    others_still code h ha hb hs (show t ∈ s.threads from ht ▸ List.mem_cons_self ..) hp
  have hsame := hstrand.trans hs.symm
  exact ⟨⟨hsame ▸ hl.strand, hentry.trans hl.entry⟩, hsame, happ, htake⟩

theorem Leaving.turn (hl : c.Leaving b t p i k lost) :
    c.seen (.work i) (·.appends b t) = [] ∧ c.seen (.work i) (·.takes b t) = [] ∧
      ((∃ x e, c.strands[i]? = some ⟨t, .unwinding p, .report b x e :: .draining b t :: k⟩ ∧
          (c.step code (.work i)).Leaving b t p i k lost ∧
          (c.step code (.work i)).strands[i]? = some ⟨t, .unwinding p, .draining b t :: k⟩) ∨
        c.strands[i]? = some ⟨t, .unwinding p, .draining b t :: k⟩ ∧
          (c.step code (.work i)).strands = c.strands.set i ⟨t, .unwinding p, k⟩ ∧
          World.Drops c.world (c.step code (.work i)).world b t lost) := by
  rcases hl.strand with ⟨x, e, hs⟩ | hs
  · obtain ⟨hstrand, hentry, happ, htake⟩ := step_report_unwinding code hs
    exact ⟨happ, htake, .inl ⟨x, e, hs, ⟨.inr hstrand, (hentry b t).trans hl.entry⟩, hstrand⟩⟩
  · obtain ⟨hstrands, hdrops, happ, htake⟩ :=
      step_draining_unwinding code (h.modes ▸ hb) hl.entry hs
    exact ⟨happ, htake, .inr ⟨hs, hstrands, hdrops⟩⟩

end

section

variable {c : Crew σ ε α} (h : c.Fresh) (code : Behaviour σ ε α) (picks : Nat → Pick σ ε α)
  {b : BusId} (hb : c.world.mode b = .queued) {t : ThreadId} {p : Panic} {i : Nat}
  {k : List (Frame σ ε α)} {lost : List (Delivery α)}
include h hb

theorem Leaving.wait {n m : Nat} (hnm : n ≤ m)
    (hl : (c.after code picks n).Leaving b t p i k lost)
    (hp : ∀ j, n ≤ j → j < m → picks j ≠ .work i) :
    (c.after code picks m).Leaving b t p i k lost ∧
      (c.after code picks m).strands[i]? = (c.after code picks n).strands[i]? ∧
      during (fun n => (c.after code picks n).seen (picks n) (·.appends b t)) n m = [] ∧
      during (fun n => (c.after code picks n).seen (picks n) (·.takes b t)) n m = [] := by
  induction m, hnm using Nat.le_induction with
  | base => exact ⟨hl, rfl, during_self _ _, during_self _ _⟩
  | succ m hnm ih =>
    obtain ⟨hm, hstrand, happ, htake⟩ := ih fun j hj hjm => hp j hj (Nat.lt_succ_of_lt hjm)
    obtain ⟨hm', hstrand', happ', htake'⟩ := hm.other (h.seated.after code picks m) code hb
      (h.apart.after code picks m) (hp m hnm (Nat.lt_succ_self m))
    refine ⟨hm', hstrand'.trans hstrand, ?_, ?_⟩
    · rw [during_succ _ hnm, happ, happ', List.append_nil]
    · rw [during_succ _ hnm, htake, htake', List.append_nil]

theorem Leaving.until_empty {n m : Nat} (hnm : n ≤ m)
    (hl : (c.after code picks n).Leaving b t p i k lost) :
    ((c.after code picks m).Leaving b t p i k lost ∧
        during (fun n => (c.after code picks n).seen (picks n) (·.takes b t)) n m = []) ∨
      ∃ l, n ≤ l ∧ l ≤ m ∧ (c.after code picks l).lane b t = .empty ∧
        during (fun n => (c.after code picks n).seen (picks n) (·.takes b t)) n l = [] := by
  induction m, hnm using Nat.le_induction with
  | base => exact .inl ⟨hl, during_self _ _⟩
  | succ m hnm ih =>
    rcases ih with ⟨hm, htake⟩ | ⟨l, hnl, hlm, hl⟩
    · have hseated := h.seated.after code picks m
      by_cases hp : picks m = .work i
      · obtain ⟨-, htake', hturn⟩ := hm.turn hseated code hb
        rw [← hp] at htake' hturn
        have htaken : during (fun n => (c.after code picks n).seen (picks n) (·.takes b t)) n (m + 1) =
            [] := by
          rw [during_succ _ hnm, htake, htake', List.append_nil]
        rcases hturn with ⟨-, -, -, hm', -⟩ | ⟨-, -, hdrops⟩
        · exact .inl ⟨hm', htaken⟩
        · exact .inr ⟨m + 1, Nat.le_succ_of_le hnm, Nat.le_refl _,
            (lane_eq_empty_iff h code picks t hb (m + 1)).mpr hdrops.gone, htaken⟩
      · obtain ⟨hm', -, -, htake'⟩ := hm.other hseated code hb (h.apart.after code picks m) hp
        exact .inl ⟨hm', by rw [during_succ _ hnm, htake, htake', List.append_nil]⟩
    · exact .inr ⟨l, hnl, Nat.le_succ_of_le hlm, hl⟩

/-- What is pending when the strand leaves is never taken. -/
theorem Leaving.taken_later {n m : Nat} (hnm : n ≤ m)
    (hl : (c.after code picks n).Leaving b t p i k lost) :
    (during (fun n => (c.after code picks n).seen (picks n) (·.takes b t)) n m).Sublist
      (during (fun n => (c.after code picks n).seen (picks n) (·.appends b t)) n m) := by
  rcases hl.until_empty h code picks hb hnm with ⟨-, htake⟩ | ⟨l, hnl, hlm, hempty, htake⟩
  · rw [htake]
    exact List.nil_sublist _
  · have hsub := Lane.taken_sublist (turn_lane h code picks t hb) hempty hlm
    rw [during_append _ hnl hlm, htake, List.nil_append, during_append _ hnl hlm]
    exact ((List.sublist_append_left _ _).trans hsub).trans (List.sublist_append_right _ _)

/-- The turns of a strand that leaves a report, at `j` and `l`, take it out of the drain. -/
theorem Leaving.two_turns {n j l : Nat} {x : Delivery α} {e : HandlerError}
    (hl : (c.after code picks n).Leaving b t p i k lost)
    (hs : (c.after code picks n).strands[i]? =
      some ⟨t, .unwinding p, .report b x e :: .draining b t :: k⟩)
    (hnj : n ≤ j) (hjl : j < l) (hpj : picks j = .work i) (hpl : picks l = .work i)
    (hothers : ∀ m, n ≤ m → m < l → m ≠ j → picks m ≠ .work i) :
    during (fun n => (c.after code picks n).seen (picks n) (·.appends b t)) n (l + 1) = [] ∧
      during (fun n => (c.after code picks n).seen (picks n) (·.takes b t)) n (l + 1) = [] ∧
      (c.after code picks (l + 1)).strands =
        (c.after code picks l).strands.set i ⟨t, .unwinding p, k⟩ ∧
      World.Drops (c.after code picks l).world (c.after code picks (l + 1)).world b t lost := by
  -- Out of the report at `j`.
  obtain ⟨hlj, hsj, happj, htakej⟩ := hl.wait h code picks hb hnj
    fun m hm hmj => hothers m hm (Nat.lt_trans hmj hjl) (Nat.ne_of_lt hmj)
  obtain ⟨happj', htakej', hturnj⟩ := hlj.turn (h.seated.after code picks j) code hb
  obtain ⟨-, -, -, hlj', hsj'⟩ | ⟨hbad, -, -⟩ := hturnj
  swap
  · rw [hsj] at hbad
    cases hs.symm.trans hbad
  rw [← hpj] at happj' htakej' hlj' hsj'
  -- Out of the drain at `l`.
  obtain ⟨hll, hsl, happl, htakel⟩ := Leaving.wait h code picks hb (n := j + 1) hjl hlj'
    fun m hm hml => hothers m (Nat.le_of_succ_le (Nat.le_trans (Nat.succ_le_succ hnj) hm)) hml
      (Nat.ne_of_gt hm)
  obtain ⟨happl', htakel', hturnl⟩ := hll.turn (h.seated.after code picks l) code hb
  obtain ⟨_, _, hbad, -, -⟩ | ⟨-, hstrands, hdrops⟩ := hturnl
  · rw [hsl] at hbad
    cases hsj'.symm.trans hbad
  rw [← hpl] at happl' htakel' hstrands hdrops
  have hnl : n ≤ l := Nat.le_of_lt (Nat.lt_of_le_of_lt hnj hjl)
  have hquiet : ∀ f : Nat → List (Delivery α), during f n j = [] → f j = [] →
      during f (j + 1) l = [] → f l = [] → during f n (l + 1) = [] := by
    intro f h₁ h₂ h₃ h₄
    rw [during_succ f hnl, during_append f (Nat.le_succ_of_le hnj) hjl, during_succ f hnj, h₁, h₂,
      h₃, h₄]
    rfl
  exact ⟨hquiet _ happj happj' happl happl', hquiet _ htakej htakej' htakel htakel', hstrands,
    hdrops⟩

end

/-- When the report of `x` panics in the drain of the queue of `t` on `b`, the deliveries appended to
it are `front`, which were taken before, `x`, and `lost`, of which none is ever taken. In its next two
turns the strand leaves the report and the drain for the post that started the drain. The queue is
dropped with `lost`, and all else stays as it is; for code that does not read the journal it is as if
nothing had been told. -/
theorem sink_panic_drops_rest {c : Crew σ ε α} (h : c.Fresh) (code : Behaviour σ ε α)
    (picks : Nat → Pick σ ε α) {b : BusId} (hb : c.world.mode b = .queued) {n i : Nat} {t : ThreadId}
    {p : Panic} {x : Delivery α} {e : HandlerError} {k : List (Frame σ ε α)}
    (hs : (c.after code picks n).strands[i]? = some ⟨t, .unwinding p, .report b x e :: k⟩) :
    let crew := c.after code picks
    let entry := fun n => (crew n).world.entry b t
    let appended := fun n => (crew n).seen (picks n) (·.appends b t)
    let taken := fun n => (crew n).seen (picks n) (·.takes b t)
    ∃ next rest made front lost, k = .draining b t :: .resume next :: rest ∧
      made < n ∧ entry made = none ∧ (∀ m, made < m → m ≤ n → entry m ≠ none) ∧
      entry n = some ⟨lost, true⟩ ∧ during taken made n = front ++ [x] ∧
      during appended made n = front ++ [x] ++ lost ∧
      (∀ m, n ≤ m → (during taken n m).Sublist (during appended n m)) ∧
      ∀ j l, n ≤ j → j < l → picks j = .work i → picks l = .work i →
        (∀ m, n ≤ m → m < l → m ≠ j → picks m ≠ .work i) →
          during appended n (l + 1) = [] ∧ during taken n (l + 1) = [] ∧
          (crew (l + 1)).strands = (crew l).strands.set i ⟨t, .unwinding p, .resume next :: rest⟩ ∧
          (∀ s ∈ (crew (l + 1)).strands, s.drains b t = 0) ∧
          World.Drops (crew l).world (crew (l + 1)).world b t lost ∧
          (code.Blind → c.Blind → (∀ m, (picks m).Blind) →
            ∀ picks' : Nat → Pick σ ε α, (∀ m, (picks' m).Blind) → ∀ m, ∃ js,
              ((crew (l + 1)).after code picks' m).world.journal = (crew (l + 1)).world.journal ++ js ∧
              ((crew (l + 1)).rewritten (crew l).world.journal).after code picks' m =
                ((crew (l + 1)).after code picks' m).rewritten ((crew l).world.journal ++ js)) := by
  intro crew entry appended taken
  obtain ⟨next, rest, rfl⟩ := report_on_drain h code picks hb hs
  obtain ⟨lost, hbusy⟩ := lane_of_report h code picks hb hs
  have hempty : ∀ m, (crew m).lane b t = .empty ↔ entry m = none :=
    lane_eq_empty_iff h code picks t hb
  have hentry : entry n = some ⟨lost, true⟩ := by
    show ((crew n).share b t).entry = _
    rw [← share_lane h code picks t hb, hbusy]
    rfl
  have hleave : (crew n).Leaving b t p i (.resume next :: rest) lost := ⟨.inl ⟨x, e, hs⟩, hentry⟩
  obtain ⟨made, front, hmade, hfront, hfifo⟩ :=
    Lane.busy_since (turn_lane h code picks t hb) (lane_zero h code picks b t) hbusy
  refine ⟨next, rest, made, front, lost, rfl, hmade.lt, (hempty made).mp hmade.empty,
    fun m hm hmn hnone => hmade.filled m hm hmn ((hempty m).mpr hnone), hentry, hfront, hfifo,
    fun m hnm => hleave.taken_later h code picks hb hnm, fun j l hnj hjl hj hl hothers => ?_⟩
  obtain ⟨happended, htaken, hstrands, hdrops⟩ :=
    hleave.two_turns h code picks hb hs hnj hjl hj hl hothers
  refine ⟨happended, htaken, hstrands, ?_, hdrops, fun hcode hc hpicks picks' hpicks' m => ?_⟩
  · exact drains_of_gone h code picks t hb hdrops.gone
  · exact after_rewritten hcode hpicks' (hc.after hcode hpicks (l + 1)) _ m

end Crew

namespace Ripple

def shaky : Crew Unit Unit Unit :=
  ⟨(world.dispatchedBy 0 .queued).modifyBus 0 fun bus => { bus with sink := .custom 0 },
    [⟨0, .run (.post 0 (event ping) (.finish .done)), []⟩]⟩

def panicking : Behaviour Unit Unit Unit := { code with sink := fun _ _ _ => .panic (.text "sink") }

theorem sink_panic_drops_second :
    shaky.Fresh ∧ shaky.world.mode 0 = .queued ∧
      (shaky.after panicking (fun _ => .work 0) 13).strands[0]? =
        some ⟨0, .unwinding (.text "sink"), [.report 0 first (.panicked "boom"), .draining 0 0,
          .resume (.finish .done)]⟩ ∧
      World.Drops (shaky.after panicking (fun _ => .work 0) 14).world
        (shaky.after panicking (fun _ => .work 0) 15).world 0 0 [second, answer, letter] := by
  have hf : shaky.Fresh := by
    refine ⟨fun b t => ?_, fun s hs => ?_, by decide, fun s hs => ?_⟩
    · cases b <;> rfl
    · rw [List.mem_singleton.mp hs]
      exact ⟨⟨_, rfl⟩, rfl⟩
    · rw [List.mem_singleton.mp hs]
      decide
  have hm : shaky.world.mode 0 = .queued := rfl
  have hs : (shaky.after panicking (fun _ => .work 0) 13).strands[0]? =
      some ⟨0, .unwinding (.text "sink"), [.report 0 first (.panicked "boom"), .draining 0 0,
        .resume (.finish .done)]⟩ := rfl
  obtain ⟨_, _, _, _, lost, -, -, -, -, hq, -, -, -, hout⟩ :=
    Crew.sink_panic_drops_rest hf panicking (fun _ => .work 0) hm hs
  obtain ⟨-, -, -, -, hdrops, -⟩ := hout 13 14 (Nat.le_refl 13) (by decide) rfl rfl
    fun m hm hml hne => absurd (Nat.le_antisymm (Nat.le_of_lt_succ hml) hm) hne
  obtain rfl : [second, answer, letter] = lost :=
    congrArg (fun q => (q.map (·.pending)).getD []) hq
  exact ⟨hf, hm, hs, hdrops⟩

end Ripple
end EventBus
