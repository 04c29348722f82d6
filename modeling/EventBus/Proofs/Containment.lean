import EventBus.Proofs.Interleaving
import EventBus.Proofs.Drains

/-!
# Panics of sinks are contained

A panic that leaves a report of a nested post ends the call of the handler that made the post, and
nothing below: the loop that made the call lies untouched, and if the report of the call returns, it
makes the rest of its deliveries.
-/

namespace EventBus

variable {σ ε α : Type}

/-! ## A drain on the stack -/

namespace Machine

/-- The drain that a post of `t` on `k` started lies on the stack, or is done and the queue gone. -/
def Clears (b : BusId) (t : ThreadId) (next : Program σ ε α) (k : List (Frame σ ε α))
    (m : Machine σ ε α) : Prop :=
  (∃ fs, m.stack = fs ++ .draining b t :: .resume next :: k) ∨
    (m.world.entry b t = none ∧
      ((m.control = .returned .done ∧ m.stack = .resume next :: k) ∨ m.stack = k))

variable {mode : BusId → DispatchMode} {m : Machine σ ε α} {b : BusId} {t : ThreadId}
  {next : Program σ ε α} {k : List (Frame σ ε α)}

theorem Clears.step (h : m.Clears b t next k) (code : Behaviour σ ε α) (hm : m.world.mode b = .queued)
    (hk : k.length < m.stack.length)
    (hb : m.stack.length = k.length + 2 → m.strand.breaks = false) :
    (m.step code).Clears b t next k := by
  obtain ⟨w, c, stack⟩ := m
  rcases h with ⟨fs, rfl⟩ | ⟨hgone, ⟨rfl, rfl⟩ | rfl⟩
  · by_cases habove : fs ≠ [] ∨ ¬c.Rests
    · obtain ⟨fs', hk', -⟩ := (strand_step code ⟨w, c, _⟩).above rfl habove
      exact .inl ⟨fs', hk'⟩
    · -- The drain is on top: it takes a delivery or drops the queue.
      obtain ⟨hfs, hrests⟩ := not_or.mp habove
      obtain rfl := not_not.mp hfs
      obtain ⟨x, rfl⟩ | ⟨p, rfl⟩ := (not_not.mp hrests).cases
      · simp only [List.nil_append, step, resume]
        split
        · exact .inl ⟨[], rfl⟩
        · rename_i q hq
          refine .inr ⟨?_, .inl ⟨rfl, rfl⟩⟩
          show (w.setQueues b q).entry b t = none
          rw [World.entry_setQueues hm, if_pos rfl]
          exact (Queues.of_next_none hq).2.1
      · cases hb rfl
  · exact .inr ⟨hgone, .inr rfl⟩
  · exact absurd hk (Nat.lt_irrefl _)

theorem Clears.on_stack (h : m.Clears b t next k) (hk : k.length + 2 ≤ m.stack.length) :
    ∃ fs, m.stack = fs ++ .draining b t :: .resume next :: k := by
  rcases h with hstack | ⟨-, ⟨-, hstack⟩ | hstack⟩
  · exact hstack
  · rw [hstack, List.length_cons] at hk
    omega
  · rw [hstack] at hk
    omega

theorem Clears.gone (h : m.Clears b t next k) (hk : m.stack.length < k.length + 2) :
    m.world.entry b t = none := by
  rcases h with ⟨fs, hstack⟩ | ⟨hgone, -⟩
  · rw [hstack, List.length_append, List.length_cons, List.length_cons] at hk
    omega
  · exact hgone

end Machine

namespace Crew

section

variable {c : Crew σ ε α} (h : c.Fresh) (code : Behaviour σ ε α) (picks : Nat → Pick σ ε α)
  {b : BusId} (hb : c.world.mode b = .queued) {i j n : Nat} {t : ThreadId}
include h hb

/-- While a drain of a strand is on the stack, it lies there or is done. -/
theorem clears_after (hm : Mans c code picks i t) (hjn : j ≤ n) {next : Program σ ε α}
    {k : List (Frame σ ε α)} {s : Strand σ ε α}
    (hs : (c.after code picks j).strands[i]? = some s)
    (hc : ((c.after code picks j).machine s).Clears b t next k)
    (hserved : ∀ m s, j ≤ m → m < n → (c.after code picks m).strands[i]? = some s →
      k.length < s.stack.length ∧ (s.stack.length = k.length + 2 → s.breaks = false)) :
    ∃ s, (c.after code picks n).strands[i]? = some s ∧
      ((c.after code picks n).machine s).Clears b t next k := by
  induction n, hjn using Nat.le_induction with
  | base => exact ⟨s, hs, hc⟩
  | succ n hjn ih =>
    obtain ⟨s', hs', hclears⟩ := ih fun m s hjm hmn => hserved m s hjm (Nat.lt_succ_of_lt hmn)
    obtain ⟨hlen, hbroken⟩ := hserved n s' hjn (Nat.lt_succ_self n) hs'
    rcases own_cases code hs' (picks n) with ⟨hpn, hstep, -⟩ | ⟨hpn, hstep, -⟩
    · refine ⟨_, hstep, ?_⟩
      rw [after, hpn]
      simp only [Crew.step, hs']
      exact hclears.step code ((congrFun (h.seated.after code picks n).modes b).trans hb) hlen hbroken
    · refine ⟨s', hstep, hclears.imp id fun hgone => ⟨?_, hgone.2⟩⟩
      have hothers := entry_step_of_others h.seated code picks b n fun s hs =>
        hm.not_at_work h.apart hpn hs
      exact hothers.trans hgone.1

end

/-! ## Loops that go on -/

section

variable (c : Crew σ ε α) (code : Behaviour σ ε α) (picks : Nat → Pick σ ε α) (i : Nat)

/-- From `j` on, before `n`, the loop on top of a stack with `h` frames stays on the stack, and no
panic leaves a report that lies on it. -/
def Kept (h j n : Nat) : Prop :=
  ∀ m s, j ≤ m → m < n → (c.after code picks m).strands[i]? = some s →
    h ≤ s.stack.length ∧ (s.stack.length = h + 1 → s.escapes = false)

variable {c code picks i} {j n : Nat} {s : Strand σ ε α}

/-- No panic comes to a loop that is kept. -/
theorem Kept.unbroken {h : Nat} (hk : c.Kept code picks i h j n) (hd : c.Docked)
    (hs : (c.after code picks j).strands[i]? = some s) (hb : s.breaks = false) {m : Nat}
    (hjm : j ≤ m) (hmn : m ≤ n) {s' : Strand σ ε α}
    (hs' : (c.after code picks m).strands[i]? = some s') (hlen : s'.stack.length = h) :
    s'.breaks = false := by
  induction m, hjm using Nat.le_induction generalizing s' with
  | base =>
    cases hs.symm.trans hs'
    exact hb
  | succ m hjm ih =>
    obtain ⟨s₁, hs₁⟩ := strand_after c code picks hjm hs
    rcases own_cases code hs₁ (picks m) with ⟨-, hnext, -⟩ | ⟨-, hnext, -⟩
    · rw [after, hnext] at hs'
      cases hs'
      refine Bool.eq_false_iff.mpr fun hbreaks => ?_
      have hdocked := hd.after code picks m s₁ (List.mem_of_getElem? hs₁)
      obtain ⟨hescapes, hheight⟩ := hdocked.breaks_from (strand_step code _ s₁) hbreaks
      have hstays := (hk m s₁ hjm hmn hs₁).2 (by omega)
      rw [hescapes] at hstays
      cases hstays
    · rw [after, hnext] at hs'
      cases hs'
      exact ih (Nat.le_of_succ_le hmn) hs₁ hlen

variable {t : ThreadId} {b : BusId} {next : Program σ ε α} {k : List (Frame σ ε α)}

theorem Kept.served (hk : c.Kept code picks i (k.length + 2) j n) (hd : c.Docked)
    (hs : (c.after code picks j).strands[i]? = some s) (hb : s.breaks = false) (m : Nat)
    (s' : Strand σ ε α) (hjm : j ≤ m) (hmn : m < n)
    (hs' : (c.after code picks m).strands[i]? = some s') :
    k.length < s'.stack.length ∧ (s'.stack.length = k.length + 2 → s'.breaks = false) := by
  have hlen := (hk m s' hjm hmn hs').1
  exact ⟨by omega, hk.unbroken hd hs hb hjm (Nat.le_of_lt hmn) hs'⟩

/-- The loop of an immediate post makes the rest of its deliveries. -/
theorem Kept.handed (hd : c.Docked) {e : Event α} {rest : List Binding}
    (hs : (c.after code picks j).strands[i]? =
      some ⟨t, .returned .done, .handing b e rest :: .resume next :: k⟩)
    (hk : c.Kept code picks i (k.length + 2) j n) (hjn : j ≤ n) :
    ∃ left, rest.map (⟨e, ·⟩) = during (fun m => (c.after code picks m).own i (picks m)
        fun m => m.strand.hands b (k.length + 1)) j n ++ left ∧
      ∀ s, (c.after code picks n).strands[i]? = some s → s.stack.length < k.length + 2 →
        left = [] := by
  obtain ⟨s, left, hs', howing, hmade⟩ :=
    owing_after hjn hs (.inl ⟨[], e, rest, rfl, rfl⟩) (hk.served hd hs rfl)
  refine ⟨left, hmade, fun s₁ hs₁ hlen => ?_⟩
  cases hs'.symm.trans hs₁
  exact howing.returned hlen

section

variable (h : c.Fresh) (hb : c.world.mode b = .queued) (hm : Mans c code picks i t)
  (hs : (c.after code picks j).strands[i]? =
    some ⟨t, .returned .done, .draining b t :: .resume next :: k⟩)
  (hk : c.Kept code picks i (k.length + 2) j n)
include h hb hm hs hk

theorem Kept.clears {m : Nat} (hjm : j ≤ m) (hmn : m ≤ n) :
    ∃ s, (c.after code picks m).strands[i]? = some s ∧
      ((c.after code picks m).machine s).Clears b t next k :=
  clears_after h code picks hb hm hjm hs (.inl ⟨[], rfl⟩) fun l s hjl hlm =>
    hk.served h.docked hs rfl l s hjl (Nat.lt_of_lt_of_le hlm hmn)

/-- A drain that is kept drops nothing. -/
theorem Kept.drops {m : Nat} (hjm : j ≤ m) (hmn : m < n) :
    (c.after code picks m).seen (picks m) (·.drops b t) = [] := by
  obtain ⟨s, hs', hclears⟩ := hk.clears h hb hm hs hjm (Nat.le_of_lt hmn)
  obtain ⟨hlen, hunbroken⟩ := hk.served h.docked hs rfl m s hjm hmn hs'
  cases hbreaks : s.breaks with
  | false =>
    rw [hm.seen_eq_own h.apart h.seated (fun _ => Machine.drops_of_not_mem) m]
    refine own_eq_nil fun s₁ hs₁ => ?_
    cases hs'.symm.trans hs₁
    exact Machine.drops_of_unbroken _ hbreaks
  | true =>
    -- The panic is that of a loop above, so the drain is still there after the step.
    obtain ⟨fs, hstack⟩ := hclears.on_stack (hk m s hjm hmn hs').1
    replace hstack : s.stack = fs ++ .draining b t :: .resume next :: k := hstack
    have hfs : fs ≠ [] := by
      rintro rfl
      rw [hunbroken (by rw [hstack]; rfl)] at hbreaks
      cases hbreaks
    have hdraining : ∃ s', (c.after code picks (m + 1)).strands[i]? = some s' ∧
        .draining b t ∈ s'.stack := by
      rcases own_cases code hs' (picks m) with ⟨-, hnext, -⟩ | ⟨-, hnext, -⟩
      · obtain ⟨fs', hstack', -⟩ :=
          (strand_step code (c.after code picks m) s).above hstack (.inl hfs)
        exact ⟨_, hnext, hstack' ▸ List.mem_append_right _ (List.mem_cons_self ..)⟩
      · exact ⟨s, hnext, hstack ▸ List.mem_append_right _ (List.mem_cons_self ..)⟩
    obtain ⟨s', hs₁, hmem⟩ := hdraining
    exact (turn_lane h code picks t hb m).dropped_of_filled (lane_of_draining h code picks t hb hs₁ hmem)

/-- What waits at first and what comes is taken or waits in the end, and a drain that is over leaves
nothing. -/
theorem Kept.drained (hjn : j ≤ n) :
    (c.after code picks j).world.waiting b t ++
        during (fun m => (c.after code picks m).seen (picks m) (·.appends b t)) j n =
      during (fun m => (c.after code picks m).seen (picks m) (·.takes b t)) j n ++
        (c.after code picks n).world.waiting b t ∧
      ∀ s, (c.after code picks n).strands[i]? = some s → s.stack.length < k.length + 2 →
        (c.after code picks n).world.entry b t = none := by
  constructor
  · rw [← lane_pending h code picks hb t, ← lane_pending h code picks hb t]
    exact Lane.conserved (turn_lane h code picks t hb) hjn fun m => hk.drops h hb hm hs
  · intro s hs' hlen
    obtain ⟨s₁, hs₁, hclears⟩ := hk.clears h hb hm hs hjn (Nat.le_refl n)
    cases hs'.symm.trans hs₁
    exact hclears.gone hlen

end

end

/-! ## Calls that catch a panic -/

section

variable {c : Crew σ ε α} {code : Behaviour σ ε α} {picks : Nat → Pick σ ε α} {i n r : Nat}
  {t : ThreadId} {p : Panic} {fs k : List (Frame σ ε α)} {a : BusId} {d : Delivery α}

theorem follows_falls (hfs : ∀ f ∈ fs, f.Passes)
    (hs : (c.after code picks n).strands[i]? = some ⟨t, .unwinding p, fs ++ k⟩)
    {ss : List (Strand σ ε α)}
    (hss : ((⟨t, .unwinding p, k⟩ : Strand σ ε α) :: ss).IsChain (Strand.Then code)) :
    c.Follows code picks i n (Strand.falls t p fs k ++ ss) := by
  have hchain := Strand.chain_falls hfs hss
  obtain ⟨ss', hcons⟩ := Strand.falls_eq_cons t p fs k
  rw [hcons, List.cons_append] at hchain ⊢
  exact follows_of_chain hs hchain

theorem follows_top (hfs : ∀ f ∈ fs, f.Passes)
    (hs : (c.after code picks n).strands[i]? = some ⟨t, .unwinding p, fs⟩) :
    c.Follows code picks i n (Strand.falls t p fs []) := by
  have hfollows := follows_falls (k := []) hfs (by rwa [List.append_nil])
    (List.IsChain.singleton _)
  rwa [List.append_nil] at hfollows

theorem follows_caught (hfs : ∀ f ∈ fs, f.Passes)
    (hs : (c.after code picks n).strands[i]? =
      some ⟨t, .unwinding p, fs ++ .call ⟨d, .delivery a⟩ :: k⟩) :
    c.Follows code picks i n (Strand.caught t p fs a d k) := by
  refine follows_falls hfs hs ?_
  refine List.isChain_cons_cons.mpr ⟨fun _ => rfl, ?_⟩
  exact List.isChain_cons_cons.mpr ⟨fun _ => rfl, List.IsChain.singleton _⟩

section

variable (hf : c.Follows code picks i n (Strand.caught t p fs a d k)) (hnr : n ≤ r)
  (hturn : turns picks i n r = fs.length + 2)
include hf hnr hturn

theorem caught_reports :
    (c.after code picks r).strands[i]? = some ⟨t, .report a d (.panicked p.message), k⟩ := by
  refine hf r hnr _ ?_
  rw [hturn, Strand.caught, List.getElem?_append_right (by rw [Strand.length_falls]; omega),
    Strand.length_falls, Nat.add_sub_add_left]
  rfl

/-- What the states give, the panic on its way apart, is what the strand gives. -/
theorem caught_gives (hp : picks r = .work i) {β : Type} (g : Control σ ε α → List β)
    (hg : ∀ p, g (.unwinding p) = []) :
    during (fun m => (c.after code picks m).own i (picks m) fun m => g m.control) n (r + 1) =
      g (.settle ⟨d, .delivery a⟩ (.error (.panicked p.message))) ++
        g (.report a d (.panicked p.message)) := by
  have hturns : turns picks i n (r + 1) = (Strand.caught t p fs a d k).length := by
    rw [turns_succ picks i hnr, hturn, if_pos (Pick.isOf_iff.mpr hp), Strand.length_caught]
  have hown := hf.own_eq (fun s => g s.control) (Nat.le_succ_of_le hnr) (Nat.le_of_eq hturns)
  refine hown.trans ?_
  have hfalls : (Strand.falls t p fs (.call ⟨d, .delivery a⟩ :: k)).flatMap
      (fun s => g s.control) = [] := by
    refine List.flatMap_eq_nil_iff.mpr fun s hs => ?_
    obtain ⟨gs, -, rfl⟩ := Strand.mem_falls hs
    exact hg p
  rw [hturns, List.take_length, Strand.caught, List.flatMap_append, hfalls, List.nil_append,
    List.flatMap_cons, List.flatMap_singleton]

end

/-- A panic that comes to the top goes through all there is. -/
theorem passes_of_top (hs : (c.after code picks n).strands[i]? = some ⟨t, .unwinding p, fs⟩)
    {m : Nat} (hnm : n ≤ m)
    (hall : ∀ l, n ≤ l → l < m → ∃ k, (c.after code picks l).strands[i]? = some ⟨t, .unwinding p, k⟩)
    (hm : (c.after code picks m).strands[i]? = some ⟨t, .unwinding p, []⟩) : ∀ f ∈ fs, f.Passes := by
  rcases passes_or_stops fs with hpass | ⟨gs, f, k, rfl, hgs, hf⟩
  · exact hpass
  · obtain ⟨s, hthen, hs'⟩ : ∃ s, Strand.Then code ⟨t, .unwinding p, f :: k⟩ s ∧
        ∀ q, s.control ≠ .unwinding q := Strand.then_stopped hf
    have hfollows := follows_falls hgs hs
      (List.isChain_cons_cons.mpr ⟨hthen, List.IsChain.singleton s⟩)
    by_cases hturns : turns picks i n m ≤ gs.length
    · -- The panic is still on its way to `f`.
      have hlt : turns picks i n m < (Strand.falls t p gs (f :: k)).length := by
        rw [Strand.length_falls]
        omega
      have hget := hfollows m hnm _
        ((List.getElem?_append_left hlt).trans (List.getElem?_eq_getElem hlt))
      obtain ⟨gs', -, hstate⟩ := Strand.mem_falls (List.getElem_mem hlt)
      rw [hstate, hm] at hget
      simp at hget
    · -- It has been stopped.
      obtain ⟨l, hnl, hlm, hpl, hl⟩ := exists_turn picks i hnm (Nat.lt_of_not_le hturns)
      have hstopped : (c.after code picks (l + 1)).strands[i]? = some s := by
        refine hfollows (l + 1) (Nat.le_succ_of_le hnl) s ?_
        rw [turns_succ picks i hnl, if_pos (Pick.isOf_iff.mpr hpl), hl,
          List.getElem?_append_right (by rw [Strand.length_falls]), Strand.length_falls,
          Nat.sub_self]
        rfl
      obtain ⟨k', hk'⟩ : ∃ k', (c.after code picks (l + 1)).strands[i]? =
          some ⟨t, .unwinding p, k'⟩ := by
        rcases Nat.eq_or_lt_of_le hlm with rfl | hlm
        · exact ⟨[], hm⟩
        · exact hall (l + 1) (Nat.le_succ_of_le hnl) hlm
      cases hstopped.symm.trans hk'
      exact absurd rfl (hs' p)

end

/-! ## The law -/

/-- From `q` to `m` the loop of `a` in `k` makes what it had still to make: the rest of an immediate
post, or what waited in the queue of `t` at `n` and what came there since. All of it is made when the
loop is over. -/
structure MakesRest (c : Crew σ ε α) (code : Behaviour σ ε α) (picks : Nat → Pick σ ε α) (i : Nat)
    (t : ThreadId) (a : BusId) (k : List (Frame σ ε α)) (n q m : Nat) : Prop where
  handed : ∀ e rest next k', k = .handing a e rest :: .resume next :: k' →
    let made := fun l => (c.after code picks l).own i (picks l) (·.strand.hands a (k'.length + 1))
    (∀ l d, q ≤ l → made l = [d] → ∃ s, (c.after code picks (l + 1)).strands[i]? = some s ∧
      s.control = .call ⟨d, .delivery a⟩) ∧
    ∃ left, rest.map (⟨e, ·⟩) = during made q m ++ left ∧
      ∀ s, (c.after code picks m).strands[i]? = some s → s.stack.length < k.length → left = []
  drained : c.world.mode a = .queued →
    let appended := fun l => (c.after code picks l).seen (picks l) (·.appends a t)
    let taken := fun l => (c.after code picks l).seen (picks l) (·.takes a t)
    (∃ next k', k = .draining a t :: .resume next :: k') ∧
    (∀ l d, n ≤ l → taken l = [d] → ∃ s, (c.after code picks (l + 1)).strands[i]? = some s ∧
      s.control = .call ⟨d, .delivery a⟩) ∧
    (c.after code picks n).world.waiting a t ++ during appended n m =
      during taken n m ++ (c.after code picks m).world.waiting a t ∧
    ∀ s, (c.after code picks m).strands[i]? = some s → s.stack.length < k.length →
      (c.after code picks m).world.entry a t = none

section

variable {c : Crew σ ε α} (h : c.Fresh) (code : Behaviour σ ε α) (picks : Nat → Pick σ ε α)
  {i n r q m : Nat} {t : ThreadId} {p : Panic} {fs k : List (Frame σ ε α)} {a : BusId}
  {d : Delivery α}

omit h in
theorem at_work_of_caught (hfs : ∀ f ∈ fs, f.Passes)
    (hf : c.Follows code picks i n (Strand.caught t p fs a d k))
    (hturn : turns picks i n r = fs.length + 2) (hnm : n ≤ m) (hmr : m ≤ r) :
    ∃ s, (c.after code picks m).strands[i]? = some s ∧ d ∈ s.working a t ∧
      ∀ q, s.control ≠ .run q := by
  have hle := turns_mono picks i hnm hmr
  obtain ⟨s, hmem, hs⟩ := hf.exists_mem hnm (by rw [Strand.length_caught]; omega)
  exact ⟨s, hs, Strand.of_mem_caught hfs hmem⟩

include h

/-- The queue that a caught panic finds is left as it is. -/
theorem caught_untouched (ha : c.world.mode a = .queued) (hm : Mans c code picks i t) (hnr : n ≤ r)
    (hwork : ∀ m, n ≤ m → m ≤ r → ∃ s, (c.after code picks m).strands[i]? = some s ∧
      d ∈ s.working a t ∧ ∀ q, s.control ≠ .run q) :
    (∃ made front, made < n ∧ (c.after code picks made).world.entry a t = none ∧
      during (fun m => (c.after code picks m).seen (picks m) (·.takes a t)) made n = front ++ [d] ∧
      during (fun m => (c.after code picks m).seen (picks m) (·.appends a t)) made n =
        front ++ [d] ++ (c.after code picks n).world.waiting a t) ∧
    ∀ m, n ≤ m → m ≤ r → (c.after code picks m).world.entry a t =
      some ⟨(c.after code picks n).world.waiting a t, true⟩ := by
  obtain ⟨s, hs, hd, -⟩ := hwork n (Nat.le_refl n) hnr
  obtain ⟨rest, hlane⟩ := lane_of_working h code picks t ha hs hd
  have hrest := lane_pending h code picks ha t n
  rw [hlane] at hrest
  rw [← hrest]
  refine ⟨?_, fun m hnm hmr => ?_⟩
  · obtain ⟨made, front, hmade, htaken, happended⟩ :=
      Lane.busy_since (turn_lane h code picks t ha) (lane_zero h code picks a t) hlane
    have hempty := (lane_eq_empty_iff h code picks t ha made).mp hmade.empty
    exact ⟨made, front, hmade.lt, hempty, htaken, happended⟩
  · have hstill := lane_still h code picks ha hm hnm fun l hnl hlm =>
      hwork l hnl (Nat.le_trans hlm hmr)
    have hshare := share_lane h code picks t ha m
    rw [hstill, hlane] at hshare
    exact (congrArg Share.entry hshare).symm

theorem makes_rest (hm : Mans c code picks i t) (hnq : n ≤ q) (hqm : q ≤ m)
    (hseat : c.world.mode a = .queued → ∃ next k', k = .draining a t :: .resume next :: k')
    (hwork : ∀ l, n ≤ l → l < q → ∃ s, (c.after code picks l).strands[i]? = some s ∧
      d ∈ s.working a t)
    (hs : (c.after code picks q).strands[i]? = some ⟨t, .returned .done, k⟩)
    (hk : c.Kept code picks i k.length q m) : c.MakesRest code picks i t a k n q m where
  handed e rest next k' hloop := by
    subst hloop
    refine ⟨fun l d hql hd => ?_, hk.handed h.docked hs hqm⟩
    obtain ⟨s, hs'⟩ := strand_after c code picks hql hs
    exact calls_handed hs' hd
  drained ha := by
    obtain ⟨next, k', hloop⟩ := hseat ha
    subst hloop
    obtain ⟨hlater, hover⟩ := hk.drained h ha hm hs hqm
    -- Up to `q` the delivery was at work, and nothing was taken or dropped.
    have hbefore := Lane.conserved (turn_lane h code picks t ha) hnq fun l hnl hlq => by
      obtain ⟨s, hs, hd⟩ := hwork l hnl hlq
      exact (quiet_at_work h code picks ha hs hd).2
    rw [lane_pending h code picks ha t, lane_pending h code picks ha t] at hbefore
    refine ⟨⟨next, k', rfl⟩, fun l d hnl hd => ?_, ?_, hover⟩
    · obtain ⟨s, hs'⟩ : ∃ s, (c.after code picks l).strands[i]? = some s := by
        by_cases hlq : l < q
        · obtain ⟨s, hs', -⟩ := hwork l hnl hlq
          exact ⟨s, hs'⟩
        · exact strand_after c code picks (Nat.le_of_not_lt hlq) hs
      exact calls_taken h code picks ha hm hs' hd
    · rw [during_append _ hnq hqm, during_append _ hnq hqm, ← List.append_assoc, hbefore,
        List.append_assoc, hlater, List.append_assoc]

end

/-- Let a panic leave a report, and let the call of `d` for the bus `a` be the next frame below that
stops it. Then turn by turn the strand goes through the frames above the call, settles the call as
panicked with the message of the panic, and reports it to `a`, once. If `a` is queued, its queue is
meanwhile left as it is, with all that was appended before. The report stays on the stack until a
panic leaves it, of which the same holds again, or until it returns. Then the loop that made the call
makes the rest of its deliveries, while no panic leaves a later report on it. If no frame stops the
panic it goes through the whole stack, and only then it comes to the top. -/
theorem sink_panic_contained {c : Crew σ ε α} (h : c.Fresh) (code : Behaviour σ ε α)
    (picks : Nat → Pick σ ε α) {n i : Nat} {t : ThreadId} {p : Panic} {b : BusId} {x : Delivery α}
    {e : HandlerError} {K : List (Frame σ ε α)}
    (hs : (c.after code picks n).strands[i]? = some ⟨t, .unwinding p, .report b x e :: K⟩) :
    let crew := c.after code picks
    (∀ fs a d k, K = fs ++ .call ⟨d, .delivery a⟩ :: k → (∀ f ∈ fs, f.Passes) →
      let error := .panicked p.message
      c.Follows code picks i n (Strand.caught t p (.report b x e :: fs) a d k) ∧
      ∀ r, n ≤ r → picks r = .work i → turns picks i n r = fs.length + 3 →
        (∀ b, during (fun m => (crew m).own i (picks m) (·.settles b)) n (r + 1) =
          if a = b then [(d, .error error)] else []) ∧
        (∀ b, during (fun m => (crew m).own i (picks m) (·.reports b)) n (r + 1) =
          if a = b then [(d, error)] else []) ∧
        (c.world.mode a = .queued →
          (∃ made front, made < n ∧ (crew made).world.entry a t = none ∧
            during (fun m => (crew m).seen (picks m) (·.takes a t)) made n = front ++ [d] ∧
            during (fun m => (crew m).seen (picks m) (·.appends a t)) made n =
              front ++ [d] ++ (crew n).world.waiting a t) ∧
          ∀ m, n ≤ m → m ≤ r → (crew m).world.entry a t = some ⟨(crew n).world.waiting a t, true⟩) ∧
        ∀ q s, r < q → (crew q).strands[i]? = some s → s.stack.length ≤ k.length →
          (∀ m s, r < m → m < q → (crew m).strands[i]? = some s → k.length < s.stack.length) →
          (∀ m, r < m → m < q → ∃ s, (crew m).strands[i]? = some s ∧
            s.Holds t (.report a d error :: k)) ∧
          ((∃ p' j, r < j ∧ j < q ∧ picks j = .work i ∧
              (crew j).strands[i]? = some ⟨t, .unwinding p', .report a d error :: k⟩ ∧
              s = ⟨t, .unwinding p', k⟩) ∨
            s = ⟨t, .returned .done, k⟩ ∧ ∀ m, q ≤ m → c.Kept code picks i k.length q m →
              c.MakesRest code picks i t a k n q m)) ∧
    ((∀ f ∈ K, f.Passes) →
      c.Follows code picks i n (Strand.falls t p (.report b x e :: K) [])) ∧
    ∀ m, n ≤ m →
      (∀ l, n ≤ l → l < m → ∃ k, (crew l).strands[i]? = some ⟨t, .unwinding p, k⟩) →
      (crew m).strands[i]? = some ⟨t, .unwinding p, []⟩ → ∀ f ∈ K, f.Passes := by
  intro crew
  have hreport : ∀ fs : List (Frame σ ε α), (∀ f ∈ fs, f.Passes) →
      ∀ f ∈ Frame.report b x e :: fs, f.Passes :=
    fun fs hfs => List.forall_mem_cons.mpr ⟨show (Frame.report b x e).Passes from trivial, hfs⟩
  refine ⟨fun fs a d k hK hfs => ?_, fun hpass => ?_, fun m hnm hall hm f hf => ?_⟩
  · intro error
    subst hK
    have hmans : Mans c code picks i t := ⟨n, _, hs, List.mem_cons_self ..⟩
    have hfollows : c.Follows code picks i n (Strand.caught t p (.report b x e :: fs) a d k) :=
      follows_caught (hreport fs hfs) hs
    refine ⟨hfollows, fun r hnr hp hturn => ?_⟩
    have hr := caught_reports hfollows hnr hturn
    have hwork := fun m => at_work_of_caught code picks (m := m) (hreport fs hfs) hfollows hturn
    have hseated := (h.seated.after code picks r).strands _ (List.mem_of_getElem? hr)
    refine ⟨fun b' => ?_, fun b' => ?_, fun ha => caught_untouched h code picks ha hmans hnr hwork,
      fun q s hrq hq hlen hfirst => ?_⟩
    · have hgives := caught_gives hfollows hnr hturn hp (Control.settles b') fun _ => rfl
      exact hgives.trans (List.append_nil _)
    · exact caught_gives hfollows hnr hturn hp (Control.reports b') fun _ => rfl
    · obtain ⟨hholds, hend⟩ := report_over hp hr hrq hq hlen hfirst
      refine ⟨hholds, hend.imp_right fun hdone => ⟨hdone, fun m hqm hk => ?_⟩⟩
      have hseat := fun ha => hseated.task.on_drain ha hseated.stack
      refine makes_rest h code picks (d := d) hmans (Nat.le_trans hnr (Nat.le_of_lt hrq)) hqm hseat
        (fun l hnl hlq => ?_) (hdone ▸ hq) hk
      by_cases hlr : l ≤ r
      · obtain ⟨s, hs, hd, -⟩ := hwork l hnl hlr
        exact ⟨s, hs, hd⟩
      · obtain ⟨s, hs, hh⟩ := hholds l (Nat.lt_of_not_le hlr) hlq
        exact ⟨s, hs, hh.working rfl⟩
  · exact follows_top (hreport K hpass) hs
  · exact passes_of_top hs hnm hall hm f (List.mem_cons_of_mem _ hf)

end Crew

/-! A handler that posts to its own bus, and then to another, whose sink panics. Two deliveries of its
bus wait behind it, and one of them fails as well. -/

namespace Ripple

def leap : Binding := ⟨0, .erased "Ripple" "leap" ping 0, ping⟩

def slip : Binding := ⟨0, .erased "Ripple" "slip" ping 1, ping⟩

def land : Binding := ⟨0, .erased "Ripple" "land" ping 2, ping⟩

def pond : Bus Unit :=
  { (default : Bus Unit) with
    registry := ⟨⟨[(ping, [leap, slip, land]), (pong, [handler pong 2])]⟩⟩
    cache := ⟨⟨[(ping, [ping, .root]), (pong, [pong, .root])]⟩⟩
    config := { (default : Bus Unit).config with mode := .queued }
    sink := .custom 0 }

def shore : Bus Unit :=
  { (default : Bus Unit) with
    registry := ⟨⟨[(pong, [handler pong 1])]⟩⟩
    cache := ⟨⟨[(pong, [pong, .root])]⟩⟩
    sink := .custom 1 }

/-- The sink of the first bus panics too, if it is `touchy`, when it is told of `slip`. -/
def leaping (touchy : Bool) : Behaviour Unit Unit Unit where
  body
    | 0, _, _ => .post 0 (event pong) (.post 1 (event pong) (.finish .done))
    | 1, _, _ => .panic (.text "boom")
    | _, _, _ => .finish .done
  sink id d _ := if id = 1 ∨ touchy = true ∧ d.binding = slip then .panic (.text "sink")
    else .finish .done

def frogs : Crew Unit Unit Unit :=
  ⟨⟨⟨.empty⟩, [⟨0, "Ripple", []⟩], [pond, shore], 0, 1, (), []⟩,
    [⟨0, .run (.post 0 (event ping) (.finish .done)), []⟩]⟩

theorem frogs_fresh : frogs.Fresh :=
  Crew.fresh_alone (fun b t => by rcases b with _ | _ | b <;> rfl) (by decide) _

def drain : List (Frame Unit Unit Unit) := [.draining 0 0, .resume (.finish .done)]

def wake : List (Frame Unit Unit Unit) := [.handing 1 (event pong) [], .resume (.finish .done)]

theorem leap_contained :
    let run := frogs.after (leaping false) (fun _ => .work 0)
    (frogs.Fresh ∧ (run 12).strands[0]? = some ⟨0, .unwinding (.text "sink"),
      .report 1 answer (.panicked "boom") ::
        (wake ++ .call ⟨⟨event ping, leap⟩, .delivery 0⟩ :: drain)⟩) ∧
    during (fun m => (run m).own 0 (.work 0) (·.reports 0)) 12 18 =
      [(⟨event ping, leap⟩, .panicked "sink")] ∧
    during (fun m => (run m).seen (.work 0) (·.takes 0 0)) 12 39 =
      [⟨event ping, slip⟩, ⟨event ping, land⟩, ⟨event pong, handler pong 2⟩] := by
  intro run
  have hs : (run 12).strands[0]? = some ⟨0, .unwinding (.text "sink"),
      .report 1 answer (.panicked "boom") ::
        (wake ++ .call ⟨⟨event ping, leap⟩, .delivery 0⟩ :: drain)⟩ := rfl
  have hpass : ∀ f ∈ wake, f.Passes := by
    intro f hf
    obtain rfl | rfl : f = _ ∨ f = _ := by simpa [wake] using hf
    · trivial
    · trivial
  have hreturned : (run 20).strands[0]? = some ⟨0, .returned .done, drain⟩ := rfl
  have hstacks : ∀ m < 20, 17 < m → ∀ s ∈ (run m).strands, 2 < s.stack.length := by decide +kernel
  have hsteps : ∀ m < 39, 20 ≤ m → ∀ s ∈ (run m).strands,
      2 ≤ s.stack.length ∧ (s.stack.length = 3 → s.escapes = false) := by decide +kernel
  have hkept : frogs.Kept (leaping false) (fun _ => .work 0) 0 drain.length 20 39 :=
    fun m s hjm hmn hm => hsteps m hmn hjm s (List.mem_of_getElem? hm)
  obtain ⟨-, hlaw⟩ := (Crew.sink_panic_contained frogs_fresh (leaping false) (fun _ => .work 0)
    hs).1 wake 0 _ _ rfl hpass
  obtain ⟨-, hreports, -, hend⟩ := hlaw 17 (by decide) rfl (by decide)
  obtain ⟨-, ⟨p', j, -, -, -, -, hleft⟩ | ⟨-, hrest⟩⟩ := hend 20 _ (by decide) hreturned
    (Nat.le_refl _) fun m s hrm hmq hm => hstacks m hmq hrm s (List.mem_of_getElem? hm)
  · cases hleft
  · obtain ⟨-, -, htaken, -⟩ := (hrest 39 (by decide) hkept).drained rfl
    have hsilent : during (fun m => (run m).seen (.work 0) (·.appends 0 0)) 12 39 = [] :=
      List.eq_nil_of_length_eq_zero (by decide +kernel)
    have hover : (run 39).world.waiting 0 0 = [] := rfl
    refine ⟨⟨frogs_fresh, hs⟩, hreports 0, ?_⟩
    rw [hsilent, hover, List.append_nil, List.append_nil] at htaken
    exact htaken.symm

/-- The sink returns when it is told of `leap`, and a later panic of it takes the rest of the queue. -/
theorem land_never_called :
    let run := frogs.after (leaping true) (fun _ => .work 0)
    frogs.Fresh ∧
      (run 12).strands[0]? = some ⟨0, .unwinding (.text "sink"),
        .report 1 answer (.panicked "boom") ::
          (wake ++ .call ⟨⟨event ping, leap⟩, .delivery 0⟩ :: drain)⟩ ∧
      (run 17).strands[0]? = some ⟨0, .report 0 ⟨event ping, leap⟩ (.panicked "sink"), drain⟩ ∧
      (run 20).strands[0]? = some ⟨0, .returned .done, drain⟩ ∧
      (run 20).world.waiting 0 0 =
        [⟨event ping, slip⟩, ⟨event ping, land⟩, ⟨event pong, handler pong 2⟩] ∧
      ∀ m, ∀ d ∈ (run m).own 0 (.work 0) (·.starts 0), d.binding ≠ land := by
  intro run
  refine ⟨frogs_fresh, rfl, rfl, rfl, rfl, fun m => ?_⟩
  let start : Machine Unit Unit Unit :=
    ⟨frogs.world, .run (.post 0 (event ping) (.finish .done)), []⟩
  have hover : (start.run (leaping true) 30).result?.isSome := by decide +kernel
  have hhalted : ∀ l, run (30 + l) = run 30 := by
    intro l
    show start.crew.after _ _ (30 + l) = start.crew.after _ _ 30
    rw [Machine.after_crew, Machine.after_crew, Machine.run_add, Machine.run_of_halted hover]
  have hstarts : ∀ m < 31, ∀ d ∈ (run m).own 0 (.work 0) (·.starts 0), d.binding ≠ land := by
    decide +kernel
  by_cases hm : m < 31
  · exact hstarts m hm
  · obtain ⟨l, rfl⟩ := Nat.exists_eq_add_of_le (show 30 ≤ m by omega)
    rw [hhalted l]
    exact hstarts 30 (by decide)

end Ripple
end EventBus
