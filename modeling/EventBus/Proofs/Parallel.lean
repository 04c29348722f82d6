import EventBus.Proofs.Drains
import EventBus.Proofs.Interleaving

/-!
# Posts beside a drain

A post of a thread that drains nothing starts a drain of its own, whatever drains of other threads are
under way. When it returns, all that was put on its thread's queue has been delivered, and no queue of
another thread was touched by it.
-/

namespace EventBus

variable {σ ε α : Type}

namespace Crew

section

variable {c : Crew σ ε α} {code : Behaviour σ ε α} {picks : Nat → Pick σ ε α} {i j r n : Nat}
  {t : ThreadId}

/-- A thread that waits on the stack of a strand is at work nowhere. -/
theorem Fresh.waits (h : c.Fresh) {s s' : Strand σ ε α} (hs : (c.after code picks n).strands[i]? = some s)
    {f : Option Panic → Program σ ε α} (hf : .joined t f ∈ s.stack)
    (hs' : (c.after code picks n).picked? (picks n) = some s') : s'.thread ≠ t := by
  have hapart := h.apart.after code picks n
  have ht : t ∈ s.stack.filterMap Frame.parent? := List.mem_filterMap.mpr ⟨_, hf, rfl⟩
  cases hp : picks n with
  | start p =>
    rw [hp] at hs'
    cases hs'
  | work l =>
    rw [hp] at hs'
    change (c.after code picks n).strands[l]? = some s' at hs'
    by_cases hl : i = l
    · subst hl
      rw [hs] at hs'
      cases hs'
      have hnodup : s.threads.Nodup :=
        (List.nodup_flatMap.mp hapart.distinct).1 s (List.mem_of_getElem? hs)
      exact fun hst => (List.nodup_cons.mp hnodup).1 (hst ▸ ht)
    · intro hst
      exact hapart.not_mem hs hs' hl (List.mem_cons_of_mem _ ht) (hst ▸ List.mem_cons_self ..)

variable {b : BusId} {e : Event α} {next : Program σ ε α} {k : List (Frame σ ε α)}
  (hs : (c.after code picks j).strands[i]? = some ⟨t, .run (.post b e next), k⟩)
include hs

/-- A thread that waits below a post does nothing until the post returns. -/
theorem Fresh.waits_below (h : c.Fresh) {u : ThreadId} {f : Option Panic → Program σ ε α}
    (hf : .joined u f ∈ k) (hserved : ∀ m, j < m → m < r → ∃ s, (c.after code picks m).strands[i]? =
      some s ∧ s.Serves t next k) {m : Nat} (hjm : j ≤ m) (hmr : m < r) {s' : Strand σ ε α}
    (hs' : (c.after code picks m).picked? (picks m) = some s') : s'.thread ≠ u := by
  rcases Nat.eq_or_lt_of_le hjm with rfl | hjm
  · exact h.waits hs hf hs'
  · obtain ⟨s, hs, hserves⟩ := hserved m hjm hmr
    refine h.waits hs (?_ : .joined u f ∈ s.stack) hs'
    obtain ⟨fs, hstack⟩ := hserves.above
    rw [hstack]
    exact List.mem_append_right _ (List.mem_cons_of_mem _ hf)

/-- A post appends what its event finds. -/
theorem appends_post (hp : picks j = .work i) :
    c.appended code picks b t j = (c.after code picks j).world.finds b e := by
  obtain ⟨-, -, hown⟩ := own_turn hs hp
  exact (hown _).trans (if_pos ⟨rfl, rfl⟩)

end

/-- Threads do not interfere in the queues of a bus. Whatever the others do in between, the operations
of a thread make of its entry, and are answered, what they would be alone.

So a post of `t` to a queued bus that `t` does not drain, with no panic that leaves a report meanwhile,
returns. What its event finds is put on the queue of `t`, and what the dead event finds that the strand
posts in its next turn if nobody is found. If that is something, then what waited for `t` and all that
this post and those nested in it put there was taken, and was started by `t`, when it returns, and
nothing of it is left; if it is nothing, nothing was put there and nothing taken. Meanwhile the entry of
any other thread is what its own operations make of it; no step of another changes it, and if the thread
waits on the stack below, it stays as it is. -/
theorem threads_do_not_interfere :
    (∀ (q : Queues α) (os : List (Queues.Operation α)) (t : ThreadId),
      (q.performAll os).get? t = (q.performAll (os.filter (·.thread = t))).get? t ∧
        q.answers t os = q.answers t (os.filter (·.thread = t))) ∧
    ∀ {c : Crew σ ε α} (code : Behaviour σ ε α) (picks : Nat → Pick σ ε α) {b : BusId} {i j n : Nat}
      {t : ThreadId} {e : Event α} {next : Program σ ε α} {k : List (Frame σ ε α)} {s : Strand σ ε α},
      c.Fresh → c.world.mode b = .queued →
      let crew := c.after code picks
      picks j = .work i → (crew j).strands[i]? = some ⟨t, .run (.post b e next), k⟩ →
      ((crew j).world.bus b).queues.isDraining t = false →
      Contained c code picks i j n → j < n →
      (crew n).strands[i]? = some s → s.stack.length ≤ k.length →
        let found := (crew j).world.finds b e
        let appended := fun m => (crew m).seen (picks m) (·.appends b t)
        let taken := fun m => (crew m).seen (picks m) (·.takes b t)
        let started := fun m => (crew m).seen (picks m) (·.startsOn b t)
        let operations := fun m => (crew m).seen (picks m) (·.operations b)
        ∃ r, j < r ∧ r ≤ n ∧ (crew r).strands[i]? = some ⟨t, .run next, k⟩ ∧
          appended j = found ∧ during taken j r = during started j r ∧
          (found = [] → e.type = .dead → r = j + 1) ∧
          (found = [] → e.type ≠ .dead → ∃ l, NextTurn picks i j l ∧ l < r ∧
            appended l = (crew l).world.finds b (.dead b e)) ∧
          (¬c.Puts code picks b i j e → during appended j r = [] ∧ during taken j r = []) ∧
          (c.Puts code picks b i j e →
            (crew j).world.waiting b t ++ during appended j r = during taken j r ∧
              (crew r).world.entry b t = none ∧ (crew r).working b t = []) ∧
          (during (fun m => (crew m).own i (picks m) (·.starts b)) j r).Perm
            ((during (fun m => (crew m).own i (picks m) (·.settles b)) j r).map Prod.fst) ∧
          ∀ u m, j ≤ m → m ≤ r →
            (crew m).world.entry b u = (((crew j).world.bus b).queues.performAll
              ((during operations j m).filter (·.thread = u))).get? u ∧
            ((∀ s, (crew m).picked? (picks m) = some s → s.thread ≠ u) →
              (crew (m + 1)).world.entry b u = (crew m).world.entry b u) ∧
            ((∃ f, .joined u f ∈ k) → (crew m).world.entry b u = (crew j).world.entry b u) := by
  refine ⟨fun q os t => Queues.performAll_own os rfl, ?_⟩
  intro c code picks b i j n t e next k s h hb crew hp hs hidle hq hjn hn hlen found appended taken
    started operations
  obtain ⟨r, hjr, hrn, hr, hserved⟩ := hq.returns h.docked hp hs hjn hn hlen
  have hhigh : ∀ m, j < m → m < r → ∃ s, (crew m).strands[i]? = some s ∧ k.length < s.stack.length := by
    intro m hjm hmr
    obtain ⟨s, hs, hserves⟩ := hserved m hjm hmr
    exact ⟨s, hs, hserves.length⟩
  have hk : .draining b t ∉ k := fun hmem => by
    have hdraining := isDraining_of_mem h code picks hb t hs hmem
    rw [hidle] at hdraining
    cases hdraining
  have hend : c.Puts code picks b i j e ∧ c.Drained code picks b i j t next k r (.run next) k ∨
      ¬c.Puts code picks b i j e ∧ c.Idles code picks b i j t (.run next) k r := by
    -- The post comes to its end where it returns.
    obtain ⟨r', y, hjr', hrr', -, hend, -⟩ :=
      post_ends h code picks hb hr (Nat.le_refl _) hp hs hk hjr
    have hstrand : (crew r').strands[i]? = some ⟨t, y, k⟩ := by
      rcases hend with ⟨-, hdrained⟩ | ⟨-, hidles⟩
      · exact hdrained.strand
      · exact hidles.strand
    rcases Nat.eq_or_lt_of_le hrr' with rfl | hlt
    · cases hr.symm.trans hstrand
      exact hend
    · obtain ⟨s, hs, hlong⟩ := hhigh r' hjr' hlt
      cases hstrand.symm.trans hs
      exact absurd hlong (Nat.lt_irrefl _)
  refine ⟨r, hjr, hrn, hr, appends_post hs hp,
    taken_eq_started_of_task h code picks hb (Nat.le_of_lt hjr) hs hr rfl, fun hnone hd => ?dead,
    fun hnone hd => ?bury, fun hputs => ?idle, fun hputs => ?puts,
    starts_perm_settles (Nat.le_of_lt hjr) hs hr b,
    fun u m hjm hmr => ⟨entry_after h.seated code picks b hjm u,
      entry_step_of_others h.seated code picks b m, ?waiting⟩⟩
  case dead =>
    have hstrand := (goesOn_dropped code hp hs (World.finds_eq_nil.mp hnone) hd).strand
    rcases Nat.eq_or_lt_of_le hjr with hr | hlt
    · exact hr.symm
    · obtain ⟨s, hs, hlong⟩ := hhigh (j + 1) (Nat.lt_succ_self j) hlt
      cases hstrand.symm.trans hs
      exact absurd hlong (Nat.lt_irrefl _)
  case bury =>
    obtain ⟨l, hnext, hlr, hl⟩ :=
      exists_bury code hp hs (World.finds_eq_nil.mp hnone) hd hjr hr (Nat.le_refl _)
    exact ⟨l, hnext, hlr, appends_post hl hnext.turn⟩
  case idle =>
    obtain ⟨hputs', -⟩ | ⟨-, hidles⟩ := hend
    · exact absurd hputs' hputs
    · exact ⟨hidles.appended, hidles.taken⟩
  case puts =>
    obtain ⟨-, hdrained⟩ | ⟨hputs', -⟩ := hend
    · have hnone : during (c.dropped code picks b t) j r = [] := by
        rcases hdrained.lost with ⟨-, hnone⟩ | ⟨p, _, _, _, _, hpanic, -⟩
        · exact hnone
        · cases hpanic
      have hbooks := hdrained.books
      rw [hnone] at hbooks
      have hshare := share_lane h code picks t hb r
      rw [(lane_eq_empty_iff h code picks t hb r).mpr hdrained.gone] at hshare
      exact ⟨hbooks.trans (List.append_nil _), hdrained.gone, (congrArg Share.working hshare).symm⟩
    · exact absurd hputs hputs'
  case waiting =>
    rintro ⟨f, hf⟩
    exact entry_of_others h.seated code picks b hjm fun l hjl hlm s' hs' =>
      h.waits_below hs hf hserved hjl (Nat.lt_of_lt_of_le hlm hmr) hs'

end Crew

/-! A handler that, while a second delivery waits behind it, starts a thread that posts to the same
bus, and waits for it. -/

namespace Ripple

def errand : Program Unit Unit Unit := .post 0 (event pong) (.finish .done)

def sending : Behaviour Unit Unit Unit where
  body id _ _ := if id = 0 then .spawn errand fun _ => .finish .done else .finish .done
  sink _ _ _ := .finish .done

def below : List (Frame Unit Unit Unit) :=
  [.joined 0 fun _ => .finish .done, .call ⟨first, .delivery 0⟩, .draining 0 0,
    .resume (.finish .done)]

theorem errand_done_beside_drain :
    let run := crew.after sending (fun _ => .work 0)
    (crew.Fresh ∧ crew.world.mode 0 = .queued ∧ (run 4).strands[0]? = some ⟨1, .run errand, below⟩ ∧
      ((run 4).world.bus 0).queues.isDraining 1 = false ∧
      Crew.Contained crew sending (fun _ => .work 0) 0 4 12 ∧
      ∃ s, (run 12).strands[0]? = some s ∧ s.stack.length ≤ below.length) ∧
    (run 4).world.entry 0 0 = some ⟨[second], true⟩ ∧
    ∃ r, 4 < r ∧ r ≤ 12 ∧ (run r).strands[0]? = some ⟨1, .run (.finish .done), below⟩ ∧
      (∃ rest, during (fun m => (run m).seen (.work 0) (·.startsOn 0 1)) 4 r = answer :: rest) ∧
      (run r).world.entry 0 0 = some ⟨[second], true⟩ ∧ (run r).world.entry 0 1 = none := by
  intro run
  have hf : crew.Fresh := Crew.fresh_alone (fun b t => by cases b <;> rfl) (by decide) _
  have hs : (run 4).strands[0]? = some ⟨1, .run errand, below⟩ := rfl
  have hidle : ((run 4).world.bus 0).queues.isDraining 1 = false := by decide +kernel
  have hq : Crew.Contained crew sending (fun _ => .work 0) 0 4 12 := .of_escapes (by decide +kernel)
  have hdraining : (run 4).world.entry 0 0 = some ⟨[second], true⟩ := rfl
  obtain ⟨s, hn⟩ := Crew.strand_after crew sending (fun _ => .work 0) (show 4 ≤ 12 by decide) hs
  have hlen : s.stack.length ≤ below.length := by
    have hstack : ((run 12).strands[0]?.map (·.stack.length)).getD 5 = 4 := by decide +kernel
    rw [show (run 12).strands[0]? = some s from hn] at hstack
    exact Nat.le_of_eq hstack
  obtain ⟨r, hjr, hrn, hr, happended, hstarted, -, -, -, hputs, -, hothers⟩ :=
    Crew.threads_do_not_interfere.2 sending (fun _ => .work 0) hf rfl rfl hs hidle hq (by decide) hn
      hlen
  have hpong : (run 4).world.finds 0 (event pong) = [answer] := rfl
  obtain ⟨htaken, hgone, -⟩ := hputs (.inl (List.cons_ne_nil answer []))
  have happended : (run 4).seen (.work 0) (·.appends 0 1) = [answer] := happended.trans hpong
  rw [hstarted, during_append _ (Nat.le_succ 4) hjr, during_succ _ (Nat.le_refl 4), during_self,
    happended] at htaken
  refine ⟨⟨hf, rfl, hs, hidle, hq, s, hn, hlen⟩, hdraining, r, hjr, hrn, hr, ⟨_, htaken.symm⟩, ?_, hgone⟩
  rw [← hdraining]
  exact (hothers 0 r (Nat.le_of_lt hjr) (Nat.le_refl r)).2.2 ⟨_, List.mem_cons_self ..⟩

end Ripple
end EventBus
