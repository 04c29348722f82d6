import EventBus.Proofs.Calls
import EventBus.Proofs.QueueOrder

/-!
# Failures are isolated

Whatever handlers do, a post returns, provided that its sinks do: each delivery that it or a nested
post reaches is made once, and each that fails is reported once.
-/

namespace EventBus

variable {σ ε α : Type}

theorem drains_of_none {b : BusId} {k : List (Frame σ ε α)} (h : ∀ o, .draining b o ∉ k)
    (t : ThreadId) : ∀ u, drains b t u k = 0 := by
  induction k with
  | nil => exact fun _ => rfl
  | cons f k ih =>
    intro u
    have hf : f.drains b = 0 := by
      cases f with
      | draining c o =>
        refine if_neg fun hc => h o ?_
        rw [hc]
        exact List.mem_cons_self ..
      | _ => rfl
    rw [drains, hf, ite_self, ih fun o ho => h o (List.mem_cons_of_mem f ho)]

namespace World

variable {w : World σ ε α} {b : BusId}

theorem sink_keep_of_record {fs : List Failure} (h : (w.bus b).sink = .record fs)
    (d : Delivery α) (e : HandlerError) : ((w.keep b d e).bus b).sink =
      .record (fs ++ [⟨d.event.type, d.binding.display, e.message⟩]) := by
  have hb : b < w.buses.length := by
    by_contra hb
    rw [bus, List.getElem?_eq_none (Nat.le_of_not_lt hb)] at h
    cases h
  simp only [keep, h]
  rw [bus_modifyBus_self hb]

theorem journal_keep_of_log {name : String} (h : (w.bus b).sink = .log name) (d : Delivery α)
    (e : HandlerError) : (w.keep b d e).journal = w.journal ++ [.notice
      (.failed name d.event.type.name d.binding.display (w.showEvent d.event) e.message)] := by
  simp only [keep, h]
  rfl

end World

theorem Machine.report_kept (code : Behaviour σ ε α) {w : World σ ε α} (k : List (Frame σ ε α))
    {b : BusId} (d : Delivery α) (e : HandlerError) (h : (w.bus b).sink.custom? = none) :
    report code w k b d e = ⟨w.keep b d e, .returned .done, k⟩ := by
  unfold report
  split
  · rename_i id hid
    rw [hid] at h
    cases h
  · rfl

namespace Crew

section

variable {c : Crew σ ε α} {code : Behaviour σ ε α} {picks : Nat → Pick σ ε α} {i j n : Nat}

/-- A strand that comes back to its stack, and is at no delivery there, has settled what it started. -/
theorem starts_perm_settles_of_task {t u : ThreadId} {p : Program σ ε α} {x : Control σ ε α}
    {k : List (Frame σ ε α)} (hjn : j ≤ n)
    (hs : (c.after code picks j).strands[i]? = some ⟨t, .run p, k⟩)
    (hs' : (c.after code picks n).strands[i]? = some ⟨u, x, k⟩) (hx : x.task? = none) (b : BusId) :
    (during (fun m => (c.after code picks m).own i (picks m) (·.starts b)) j n).Perm
      ((during (fun m => (c.after code picks m).own i (picks m) (·.settles b)) j n).map Prod.fst) := by
  have hbooks := own_balance c code picks (·.opens b) (·.starts b)
    (fun m => (m.settles b).map Prod.fst) hjn
    (fun m s _ _ _ _ => (strand_step code (c.after code picks m) s).settles) hs hs'
  have hopen : Strand.opens b ⟨u, x, k⟩ = Strand.opens b ⟨t, .run p, k⟩ := by
    simp only [Strand.opens, Control.settles_of_task hx]
    rfl
  rw [hopen] at hbooks
  rw [during_map]
  simpa only [own_comp List.map_nil] using (List.perm_append_right_iff _).mp hbooks

section

variable {t : ThreadId} {p p' : Program σ ε α} {k : List (Frame σ ε α)} (hjn : j ≤ n)
  (hs : (c.after code picks j).strands[i]? = some ⟨t, .run p, k⟩)
  (hs' : (c.after code picks n).strands[i]? = some ⟨t, .run p', k⟩)
include hjn hs hs'

/-- A strand that comes back to its stack has settled what it has started. -/
theorem starts_perm_settles (b : BusId) :
    (during (fun m => (c.after code picks m).own i (picks m) (·.starts b)) j n).Perm
      ((during (fun m => (c.after code picks m).own i (picks m) (·.settles b)) j n).map Prod.fst) :=
  starts_perm_settles_of_task hjn hs hs' rfl b

/-- It has reported what has failed, in the same order. -/
theorem reports_eq_failures (b : BusId) :
    (during (fun m => (c.after code picks m).own i (picks m) (·.settles b)) j n).filterMap failure? =
      during (fun m => (c.after code picks m).own i (picks m) (·.reports b)) j n := by
  have hbooks := own_fifo c code picks (·.control.reports b)
    (fun m => (m.settles b).filterMap failure?) (·.reports b) hjn
    (fun m s _ _ _ _ => congrArg (s.control.reports b ++ ·)
      (strand_step code (c.after code picks m) s).reports.symm) hs hs'
  rw [during_filterMap]
  simpa only [own_comp List.filterMap_nil, Control.reports, List.append_nil, List.nil_append]
    using hbooks

section

variable (h : c.Fresh) {b : BusId}
  (hunb : ∀ m s, j ≤ m → m < n → (c.after code picks m).strands[i]? = some s → s.breaks = false)
  (hposts : ∀ m, m < n → (c.after code picks m).seen (picks m) (·.enqueues b) = [])
include h hunb hposts

theorem reached_perm_starts_of_immediate (hb : c.world.mode b = .immediate) :
    (during (fun m => (c.after code picks m).own i (picks m) (·.reached b)) j n).Perm
      (during (fun m => (c.after code picks m).own i (picks m) (·.starts b)) j n) := by
  have hbooks := own_balance c code picks (·.owes b) (·.reached b) (·.starts b) hjn
    (fun m s hjm hmn hp hs => by
      have hseated := (h.seated.after code picks m).strands s (List.mem_of_getElem? hs)
      have he := hposts m hmn
      rw [hp] at he
      simp only [seen, picked?, hs] at he
      exact (strand_step code (c.after code picks m) s).owes (hseated.modes ▸ hseated.stack)
        ((congrFun hseated.modes b).trans hb) (hunb m s hjm hmn hs) he) hs hs'
  exact (List.perm_append_right_iff _).mp hbooks

theorem reached_perm_starts_of_queued (hb : c.world.mode b = .queued)
    (hk : ∀ o, .draining b o ∉ k) :
    (during (fun m => (c.after code picks m).own i (picks m) (·.reached b)) j n).Perm
      (during (fun m => (c.after code picks m).own i (picks m) (·.starts b)) j n) := by
  have hbooks := own_fifo c code picks (·.control.calls b) (·.taken b) (·.starts b) hjn
    (fun m s _ _ _ hs => congrArg (s.control.calls b ++ ·) (h.calls_step c code picks hb hs).symm)
    hs hs'
  have htaken := h.reached_perm_taken code picks hb hjn hposts hs hs'
    (fun u => drains_of_none hk u t) (fun u => drains_of_none hk u t) hunb
  simp only [Control.calls, List.append_nil, List.nil_append] at hbooks
  rwa [hbooks] at htaken

end

end

/-! ## What becomes of a delivery -/

section

variable (c code picks i)

/-- The call that the strand makes at `m` lets its code in on `v`. The code runs on top of the call
until it ends at `l`, and the call settles with what that gives. -/
structure RunsTo (m l : Nat) (t : ThreadId) (call : Call σ ε α) (k : List (Frame σ ε α)) (v : Event α)
    (o : Except HandlerError Unit) : Prop where
  starts : (c.after code picks (m + 1)).strands[i]? = some ⟨t,
    .run (code.body call.delivery.binding.method.body call.delivery.binding.target v), .call call :: k⟩
  lasts : ∀ h, m < h → h ≤ l → ∃ s, (c.after code picks h).strands[i]? = some s ∧
    s.Holds t (.call call :: k)
  ends : ∃ x, picks l = .work i ∧ call.delivery.binding.method.shape.Gives x o ∧
    (c.after code picks l).strands[i]? = some ⟨t, x, .call call :: k⟩ ∧
    (c.after code picks (l + 1)).strands[i]? = some ⟨t, .settle call o, k⟩

/-- The delivery that the strand starts at `m` is made before the step `n`, and settles with `o`. If
its method does not admit it, it settles at once with the reason. If it does, the code of the method
runs on what was let in, and it settles with what the end of the code gives. -/
def Makes (m n : Nat) (b : BusId) (d : Delivery α) : Prop :=
  ∃ t k o q, m < q ∧ q < n ∧
    (c.after code picks m).strands[i]? = some ⟨t, .call ⟨d, .delivery b⟩, k⟩ ∧
    (c.after code picks q).own i (picks q) (·.settles b) = [(d, o)] ∧
    (∀ e, d.admitted (c.after code picks m).world.subscriberType = .error e → o = .error e ∧
      (c.after code picks (m + 1)).strands[i]? = some ⟨t, .settle ⟨d, .delivery b⟩ o, k⟩) ∧
    ∀ v, d.admitted (c.after code picks m).world.subscriberType = .ok v →
      ∃ l, m < l ∧ l < q ∧ RunsTo c code picks i m l t ⟨d, .delivery b⟩ k v o

/-- The failure that the strand reports at `m` comes to the sink of the bus: to its code, its record
or the journal, as the sink has it. -/
structure Tells (m : Nat) (b : BusId) (d : Delivery α) (e : HandlerError) : Prop where
  custom : ∀ id, ((c.after code picks m).world.bus b).sink = .custom id → ∃ u k,
    (c.after code picks (m + 1)).strands[i]? = some ⟨u, .run (code.sink id d e), .report b d e :: k⟩
  record : ∀ fs, ((c.after code picks m).world.bus b).sink = .record fs →
    ((c.after code picks (m + 1)).world.bus b).sink =
      .record (fs ++ [⟨d.event.type, d.binding.display, e.message⟩])
  log : ∀ name, ((c.after code picks m).world.bus b).sink = .log name →
    (c.after code picks (m + 1)).world.journal = (c.after code picks m).world.journal ++
      [.notice (.failed name d.event.type.name d.binding.display
        ((c.after code picks m).world.showEvent d.event) e.message)]

end

/-- A strand that gives something is at work. -/
theorem exists_of_own {β : Type} {f : Machine σ ε α → List β} {m : Nat} {x : β}
    (h : (c.after code picks m).own i (picks m) f = [x]) : picks m = .work i ∧
      ∃ s, (c.after code picks m).strands[i]? = some s ∧ f ((c.after code picks m).machine s) = [x] := by
  unfold own at h
  split at h
  · split at h
    · rename_i hp hj
      subst hj
      unfold seen at h
      split at h
      · rename_i s hs
        exact ⟨hp, s, hs, h⟩
      · cases h
    · cases h
  · cases h

section

variable {t : ThreadId} {next : Program σ ε α} {k : List (Frame σ ε α)} {r m : Nat} {b : BusId}
  {d : Delivery α}

/-- A strand settles what it is to settle before it runs on. -/
theorem exists_settles {u : ThreadId} {k' : List (Frame σ ε α)} {o : Except HandlerError Unit}
    (hmr : m ≤ r)
    (hs : (c.after code picks m).strands[i]? = some ⟨u, .settle ⟨d, .delivery b⟩ o, k'⟩)
    (hr : (c.after code picks r).strands[i]? = some ⟨t, .run next, k⟩) :
    ∃ q, m ≤ q ∧ q < r ∧ (c.after code picks q).own i (picks q) (·.settles b) = [(d, o)] := by
  obtain ⟨q, hmq, hqr, hp, -, hs'⟩ := exists_first_turn c code picks hmr hs fun h => by
    cases h.symm.trans hr
  refine ⟨q, hmq, hqr, ?_⟩
  rcases own_cases code hs' (picks q) with ⟨-, -, hown⟩ | ⟨hne, -, -⟩
  · rw [hown]
    exact if_pos rfl
  · exact absurd hp hne

/-- What starts above the stack of a strand is made before the strand comes back to it. -/
theorem makes_of_starts (hr : (c.after code picks r).strands[i]? = some ⟨t, .run next, k⟩)
    (hmr : m < r) (hhigh : ∃ s, (c.after code picks m).strands[i]? = some s ∧
      k.length < s.stack.length)
    (hd : (c.after code picks m).own i (picks m) (·.starts b) = [d]) :
    Makes c code picks i m r b d := by
  obtain ⟨hp, ⟨u, x, k'⟩, hs, hx⟩ := exists_of_own hd
  obtain rfl : x = .call ⟨d, .delivery b⟩ := Control.calls_eq hx
  obtain ⟨s, hs', hlen⟩ := hhigh
  cases hs.symm.trans hs'
  have hstart := next_of_call hp hs
  cases hv : d.admitted (c.after code picks m).world.subscriberType with
  | error e =>
    rw [hv] at hstart
    obtain ⟨q, hmq, hqr, hq⟩ := exists_settles hmr hstart hr
    refine ⟨u, k', .error e, q, hmq, hqr, hs, hq, fun e' he => ?_, fun v hv' => ?_⟩
    · cases hv.symm.trans he
      exact ⟨rfl, hstart⟩
    · cases hv.symm.trans hv'
  | ok v =>
    rw [hv] at hstart
    rcases run_settles hp hs hv hmr with ⟨_, -, hqr', ⟨l, x, o, rfl, hml, hpl, ho, hl, hsettle⟩,
      hholds⟩ | hholds
    · obtain ⟨q, hlq, hqr, hq⟩ := exists_settles hqr' hsettle hr
      refine ⟨u, k', o, q, Nat.lt_of_lt_of_le (Nat.lt_succ_of_lt hml) hlq, hqr, hs, hq,
        fun e he => ?_, fun v' hv' => ?_⟩
      · cases hv.symm.trans he
      · cases hv.symm.trans hv'
        exact ⟨l, hml, hlq, hstart, fun h hmh hhl => hholds h hmh (Nat.lt_succ_of_le hhl),
          x, hpl, ho, hl, hsettle⟩
    · -- The call cannot lie on the stack that the strand has come back to.
      obtain ⟨s, hs, h⟩ := hholds r hmr (Nat.le_refl r)
      cases hr.symm.trans hs
      have hle : k'.length + 1 ≤ k.length := h.length
      exact absurd hlen (Nat.not_lt_of_le (Nat.le_of_succ_le hle))

theorem tells_of_reports {e : HandlerError}
    (he : (c.after code picks m).own i (picks m) (·.reports b) = [(d, e)]) :
    Tells c code picks i m b d e := by
  obtain ⟨hp, ⟨u, x, k'⟩, hs, hx⟩ := exists_of_own he
  have hcontrol : x = .report b d e := by
    unfold Machine.reports Control.reports at hx
    split at hx
    · split at hx
      · rename_i hc hb
        cases hx
        rw [hb] at hc
        exact hc
      · cases hx
    · cases hx
  subst hcontrol
  obtain ⟨hstrand, hworld, -⟩ := own_turn hs hp
  let w : World σ ε α := { (c.after code picks m).world with thread := u }
  have hstep : ((c.after code picks m).machine ⟨u, .report b d e, k'⟩).step code =
      Machine.report code w k' b d e := rfl
  have hsink : (w.bus b).sink = ((c.after code picks m).world.bus b).sink := rfl
  rw [hstep] at hstrand hworld
  refine ⟨fun id hid => ⟨u, k', ?_⟩, fun fs hfs => ?_, fun name hname => ?_⟩
  · rw [hstrand]
    simp only [Machine.report, hsink, hid]
    rfl
  · rw [hworld, Machine.report_kept code k' d e (by rw [hsink, hfs]; rfl)]
    exact World.sink_keep_of_record (hsink.trans hfs) d e
  · rw [hworld, Machine.report_kept code k' d e (by rw [hsink, hname]; rfl)]
    exact World.journal_keep_of_log (hsink.trans hname) d e

end

variable (code picks)

/-- Let `n` be a time when the post of `e` at `j` is off the stack, with no panic that left a report
meanwhile. Then the post has returned normally. All deliveries that were started meanwhile were made:
the code of each ran that its method let in, whatever it did, and each settled with its outcome. Those
that failed, and no others, were reported, each with its error, and each report came to the sink. On a
bus that is reached by posts alone, and that the post does not find at work below it, all deliveries
that this post and those nested in it reach were started, each one once. -/
theorem failures_isolated (h : c.Fresh) (hp : picks j = .work i) {t : ThreadId} {b₀ : BusId}
    {e : Event α} {next : Program σ ε α} {k : List (Frame σ ε α)}
    (hs : (c.after code picks j).strands[i]? = some ⟨t, .run (.post b₀ e next), k⟩)
    (hq : Contained c code picks i j n) (hjn : j < n) {s : Strand σ ε α}
    (hn : (c.after code picks n).strands[i]? = some s) (hlen : s.stack.length ≤ k.length) :
    let crew := c.after code picks
    ∃ r, j < r ∧ r ≤ n ∧ (crew r).strands[i]? = some ⟨t, .run next, k⟩ ∧
      (∀ m, j < m → m < r → ∃ s, (crew m).strands[i]? = some s ∧ k.length < s.stack.length) ∧
      ∀ b,
        let reached := during (fun m => (crew m).own i (picks m) (·.reached b)) j r
        let starts := fun m => (crew m).own i (picks m) (·.starts b)
        let settled := during (fun m => (crew m).own i (picks m) (·.settles b)) j r
        let reports := fun m => (crew m).own i (picks m) (·.reports b)
        (∀ m d, j ≤ m → m < r → starts m = [d] → Makes c code picks i m r b d) ∧
          (during starts j r).Perm (settled.map Prod.fst) ∧
          settled.filterMap failure? = during reports j r ∧
          (∀ m d e, j ≤ m → m < r → reports m = [(d, e)] → Tells c code picks i m b d e) ∧
          ((∀ m, m < r → (crew m).seen (picks m) (·.enqueues b) = []) →
            (∀ o, .draining b o ∉ k) → reached.Perm (during starts j r)) := by
  intro crew
  obtain ⟨r, hjr, hrn, hr, hserved⟩ := hq.returns h.docked hp hs hjn hn hlen
  have hjr' := Nat.le_of_lt hjr
  have hhigh : ∀ m, j < m → m < r → ∃ s, (crew m).strands[i]? = some s ∧
      k.length < s.stack.length := by
    intro m hjm hmr
    obtain ⟨s, hs, hserves⟩ := hserved m hjm hmr
    exact ⟨s, hs, hserves.length⟩
  refine ⟨r, hjr, hrn, hr, hhigh, fun b => ⟨fun m d hjm hmr hd => ?_, ?_, ?_,
    fun m d e _ _ he => tells_of_reports he, fun hposts hk => ?_⟩⟩
  · rcases Nat.eq_or_lt_of_le hjm with rfl | hjm
    · -- The post itself starts nothing.
      obtain ⟨-, s, hs', hx⟩ := exists_of_own hd
      cases hs.symm.trans hs'
      cases hx
    · exact makes_of_starts hr hmr (hhigh m hjm hmr) hd
  · exact starts_perm_settles hjr' hs hr b
  · exact reports_eq_failures hjr' hs hr b
  · have hunb : ∀ m s, j ≤ m → m < r → (crew m).strands[i]? = some s → s.breaks = false :=
      fun m _ hjm hmr => hq.unbroken h.docked hs hjm (Nat.le_of_lt (Nat.lt_of_lt_of_le hmr hrn))
    cases hb : c.world.mode b with
    | immediate => exact reached_perm_starts_of_immediate hjr' hs hr h hunb hposts hb
    | queued => exact reached_perm_starts_of_queued hjr' hs hr h hunb hposts hb hk

end

end Crew

namespace Ripple

/-- The queued bus with a record of failures for a sink. -/
def noted : Crew Unit Unit Unit :=
  ⟨(world.dispatchedBy 0 .queued).modifyBus 0 fun bus => { bus with sink := .record [] },
    [⟨0, .run (.post 0 (event ping) (.finish .done)), []⟩]⟩

/-- One handler panics and another fails. All four deliveries are made, the post returns, and the
record holds the two failures. -/
theorem post_returns_after_boom :
    let run := noted.after code (fun _ => .work 0)
    let reported := during (fun m => (run m).own 0 (.work 0) (·.reports 0)) 0 30
    (noted.Fresh ∧
      (run 0).strands[0]? = some ⟨0, .run (.post 0 (event ping) (.finish .done)), []⟩ ∧
      Crew.Contained noted code (fun _ => .work 0) 0 0 30 ∧
      (run 30).strands[0]? = some ⟨0, .run (.finish .done), []⟩ ∧
      ∀ m < 30, (run m).seen (.work 0) (·.enqueues 0) = []) ∧
    Crew.Makes noted code (fun _ => .work 0) 0 2 30 0 first ∧
    reported = [(first, .panicked "boom"), (answer, .failed ⟨"refused", []⟩)] ∧
    (during (fun m => (run m).own 0 (.work 0) (·.settles 0)) 0 30).filterMap failure? = reported ∧
    Crew.Tells noted code (fun _ => .work 0) 0 11 0 first (.panicked "boom") ∧
    (during (fun m => (run m).own 0 (.work 0) (·.reached 0)) 0 30).Perm
      (during (fun m => (run m).own 0 (.work 0) (·.starts 0)) 0 30) := by
  intro run reported
  have hf : noted.Fresh := Crew.fresh_alone (fun b t => by cases b <;> rfl) (by decide) _
  have hs : (run 0).strands[0]? = some ⟨0, .run (.post 0 (event ping) (.finish .done)), []⟩ := rfl
  have hq : Crew.Contained noted code (fun _ => .work 0) 0 0 30 := .of_escapes (by decide +kernel)
  have hn : (run 30).strands[0]? = some ⟨0, .run (.finish .done), []⟩ := rfl
  have hlength : ∀ m < 30, ((run m).seen (.work 0) (·.enqueues 0)).length = 0 := by decide +kernel
  have hposts : ∀ m < 30, (run m).seen (.work 0) (·.enqueues 0) = [] :=
    fun m hm => List.eq_nil_of_length_eq_zero (hlength m hm)
  have hstacks : ∀ m < 30, ((run m).strands[0]?.map (·.stack.length)).getD 1 ≠ 0 ∨ m = 0 := by
    decide +kernel
  obtain ⟨r, hjr, hrn, hr, -, hbooks⟩ := Crew.failures_isolated code (fun _ => .work 0) hf rfl hs hq
    (by decide) hn (Nat.le_refl 0)
  obtain rfl : r = 30 := by
    rcases Nat.eq_or_lt_of_le hrn with hr30 | hr30
    · exact hr30
    · rcases hstacks r hr30 with hstack | rfl
      · rw [show (run r).strands[0]? = _ from hr] at hstack
        exact absurd rfl hstack
      · exact absurd hjr (Nat.lt_irrefl 0)
  obtain ⟨hmakes, -, hreports, htells, hperm⟩ := hbooks 0
  exact ⟨⟨hf, hs, hq, hn, hposts⟩, hmakes 2 first (by decide) (by decide) rfl, rfl, hreports,
    htells 11 first _ (by decide) (by decide) rfl, hperm hposts fun _ => List.not_mem_nil⟩

end Ripple
end EventBus
