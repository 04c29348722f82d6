import EventBus.Proofs.Crews

/-!
# Code that does not read the journal

The journal is for an observer outside. Code that does not look at it runs alike whatever was
written before.
-/

namespace EventBus

variable {σ ε α : Type}

def Program.Blind : Program σ ε α → Prop
  | .finish _ | .panic _ => True
  | .look next => (∀ w j, next { w with journal := j } = next w) ∧ ∀ w, (next w).Blind
  | .store _ next | .note _ next | .post _ _ next | .enqueue _ _ next | .drain _ next
  | .declare _ _ next | .activate _ _ next | .forget _ next => next.Blind
  | .register _ _ next | .unregister _ _ next => ∀ r, (next r).Blind
  | .invoke _ _ next => ∀ r, (next r).Blind
  | .attempt body next | .spawn body next => body.Blind ∧ ∀ r, (next r).Blind

structure Behaviour.Blind (code : Behaviour σ ε α) : Prop where
  body : ∀ id s e, (code.body id s e).Blind
  sink : ∀ id d e, (code.sink id d e).Blind

def Use.Blind : Use σ ε α → Prop
  | .direct next => ∀ r, (next r).Blind
  | .delivery _ => True

def Frame.Blind : Frame σ ε α → Prop
  | .resume next => next.Blind
  | .call c => c.use.Blind
  | .guarded next | .joined _ next => ∀ r, (next r).Blind
  | .report .. | .handing .. | .draining .. => True

def Control.Blind : Control σ ε α → Prop
  | .run p => p.Blind
  | .call c | .settle c _ => c.use.Blind
  | .report .. | .returned _ | .unwinding _ => True

namespace World

def told (j : List (Happening ε)) (w : World σ ε α) : World σ ε α :=
  { w with journal := j ++ w.journal }

variable (j : List (Happening ε)) (w : World σ ε α)

theorem tell_told (n : Notice) : (w.told j).tell n = (w.tell n).told j := by
  simp only [told, tell, List.append_assoc]

theorem note_told (e : ε) : (w.told j).note e = (w.note e).told j := by
  simp only [told, note, List.append_assoc]

theorem post_told (b : BusId) (e : Event α) :
    (w.told j).post b e = ((w.post b e).1.told j, (w.post b e).2) := by
  have hannounce : ∀ (v : World σ ε α) bs, (v.told j).announce b e bs = (v.announce b e bs).told j :=
    fun v _ => tell_told j v _
  have hbury : ∀ v : World σ ε α, (v.told j).bury b e = (v.bury b e).told j :=
    fun v => tell_told j v _
  have hdrop : ∀ v : World σ ε α, (v.told j).drop b = (v.drop b).told j := fun v => tell_told j v _
  unfold post
  rw [show (w.told j).resolve b e = w.resolve b e from rfl,
    show (w.told j).remember b e = (w.remember b e).told j from rfl]
  cases w.resolve b e with
  | cons c cs => simp only [hannounce]
  | nil =>
    by_cases hd : e.type = .dead
    · simp only [if_pos hd, hdrop]
    · simp only [if_neg hd, hbury]

theorem register_told (b : BusId) (s : Subscriber) :
    (w.told j).register b s = (w.register b s).map (told j) := by
  simp only [register, bind, Except.bind, pure, Except.pure]
  rw [show (w.told j).bus b = w.bus b from rfl]
  cases (w.bus b).register s with
  | error e => rfl
  | ok r => exact congrArg Except.ok (tell_told j (w.modifyBus b fun _ => r.1) r.2)

theorem unregister_told (b : BusId) (s : Subscriber) :
    (w.told j).unregister b s = (w.unregister b s).map (told j) := by
  simp only [unregister, bind, Except.bind, pure, Except.pure]
  rw [show (w.told j).bus b = w.bus b from rfl]
  cases (w.bus b).unregister s with
  | error e => rfl
  | ok r => exact congrArg Except.ok (tell_told j (w.modifyBus b fun _ => r.1) r.2)

theorem keep_told (b : BusId) (d : Delivery α) (e : HandlerError) :
    (w.told j).keep b d e = (w.keep b d e).told j := by
  unfold keep
  rw [show (w.told j).bus b = w.bus b from rfl]
  cases (w.bus b).sink with
  | log name => exact tell_told j w _
  | _ => rfl

theorem abandon_told (b : BusId) (t : ThreadId) :
    (w.told j).abandon b t = (w.abandon b t).told j := by
  simp only [abandon]
  rw [show (w.told j).bus b = w.bus b from rfl]
  split
  · rfl
  · exact tell_told j (w.modifyBus b _) _

end World

namespace Machine

def told (j : List (Happening ε)) (m : Machine σ ε α) : Machine σ ε α :=
  { m with world := m.world.told j }

structure Blind (m : Machine σ ε α) : Prop where
  control : m.control.Blind
  stack : ∀ f ∈ m.stack, f.Blind

section

variable (j : List (Happening ε)) (w : World σ ε α) (k : List (Frame σ ε α))

theorem drain_told (b : BusId) (next : Program σ ε α) :
    drain (w.told j) b next k = (drain w b next k).told j := by
  unfold drain
  rw [show (w.told j).bus b = w.bus b from rfl, show (w.told j).thread = w.thread from rfl]
  cases (w.bus b).queues.claim? w.thread <;> rfl

theorem request_told {p : Program σ ε α} (hp : p.Blind) :
    request (w.told j) k p = (request w k p).told j := by
  cases p with
  | look next => exact congrArg (fun p => (⟨w.told j, .run p, k⟩ : Machine σ ε α)) (hp.1 w _)
  | note e next => exact congrArg (fun w => (⟨w, .run next, k⟩ : Machine σ ε α)) (w.note_told j e)
  | post b e next =>
    simp only [request, World.post_told]
    obtain ⟨w₁, fate⟩ := w.post b e
    cases fate with
    | dropped => rfl
    | buried dead => rfl
    | delivered bs =>
      simp only [show (w₁.told j).bus b = w₁.bus b from rfl]
      cases (w₁.bus b).config.mode with
      | immediate => rfl
      | queued => exact drain_told j (w₁.enqueueAll b _) k b next
  | register b s next =>
    simp only [request, World.register_told]
    rw [show (w.told j).subscriber? s = w.subscriber? s from rfl]
    cases w.subscriber? s with
    | none => rfl
    | some sub =>
      simp only
      cases w.register b sub <;> rfl
  | unregister b s next =>
    simp only [request, World.unregister_told]
    rw [show (w.told j).subscriber? s = w.subscriber? s from rfl]
    cases w.subscriber? s with
    | none => rfl
    | some sub =>
      simp only
      cases w.unregister b sub <;> rfl
  | enqueue b d next =>
    simp only [request, show (w.told j).bus b = w.bus b from rfl]
    cases (w.bus b).config.mode <;> rfl
  | drain b next =>
    simp only [request, show (w.told j).bus b = w.bus b from rfl]
    cases (w.bus b).config.mode with
    | immediate => rfl
    | queued => exact drain_told j w k b next
  | _ => rfl

theorem resume_told (x : Ending) (f : Frame σ ε α) :
    resume (w.told j) x k f = (resume w x k f).told j := by
  cases f with
  | handing b e bs => cases bs <;> rfl
  | draining b owner =>
    simp only [resume, show (w.told j).bus b = w.bus b from rfl]
    obtain ⟨d?, queues⟩ := (w.bus b).queues.next owner
    cases d? <;> rfl
  | _ => rfl

theorem unwind_told (p : Panic) (f : Frame σ ε α) :
    unwind (w.told j) p k f = (unwind w p k f).told j := by
  cases f with
  | draining b owner =>
    exact congrArg (fun w => (⟨w, .unwinding p, k⟩ : Machine σ ε α)) (w.abandon_told j b owner)
  | _ => rfl

end

theorem step_told (j : List (Happening ε)) (code : Behaviour σ ε α) {m : Machine σ ε α} (h : m.Blind) :
    (m.told j).step code = (m.step code).told j := by
  obtain ⟨w, c, k⟩ := m
  cases c with
  | run p => exact request_told j w k h.control
  | call c =>
    simp only [step, told, enter]
    rw [show (w.told j).subscriberType c.delivery.binding.target =
      w.subscriberType c.delivery.binding.target from rfl]
    cases c.delivery.binding.accept (w.subscriberType c.delivery.binding.target) c.delivery.event <;> rfl
  | settle c o =>
    obtain ⟨d, use⟩ := c
    cases use with
    | direct next => rfl
    | delivery b => cases o <;> rfl
  | report b d e =>
    simp only [step, told, report, World.keep_told]
    rw [show (w.told j).bus b = w.bus b from rfl]
    cases (w.bus b).sink <;> rfl
  | returned x =>
    cases k with
    | nil => rfl
    | cons f k => exact resume_told j w k x f
  | unwinding p =>
    cases k with
    | nil => rfl
    | cons f k => exact unwind_told j w k p f

/-! Blind code stays blind. -/

section

variable {w : World σ ε α} {k : List (Frame σ ε α)} (hk : ∀ f ∈ k, f.Blind)
include hk

theorem blind_push {f : Frame σ ε α} (hf : f.Blind) : ∀ f' ∈ f :: k, f'.Blind := by
  intro f' hf'
  rcases List.mem_cons.mp hf' with rfl | hf'
  · exact hf
  · exact hk f' hf'

theorem blind_drain (w : World σ ε α) (b : BusId) {next : Program σ ε α} (hn : next.Blind) :
    (drain w b next k).Blind := by
  unfold drain
  split
  · exact ⟨trivial, blind_push (blind_push hk (f := .resume next) hn) trivial⟩
  · exact ⟨hn, hk⟩

theorem blind_request {p : Program σ ε α} (hp : p.Blind) : (request w k p).Blind := by
  cases p with
  | finish _ => exact ⟨trivial, hk⟩
  | panic _ => exact ⟨trivial, hk⟩
  | look next => exact ⟨hp.2 w, hk⟩
  | post b e next =>
    simp only [request]
    split
    · exact ⟨hp, hk⟩
    · exact ⟨trivial, blind_push hk (f := .resume next) hp⟩
    · split
      · exact ⟨trivial, blind_push (blind_push hk (f := .resume next) hp) trivial⟩
      · exact blind_drain hk _ b hp
  | register b s next =>
    simp only [request]
    split
    · exact ⟨hp _, hk⟩
    · split <;> exact ⟨hp _, hk⟩
  | unregister b s next =>
    simp only [request]
    split
    · exact ⟨hp _, hk⟩
    · split <;> exact ⟨hp _, hk⟩
  | enqueue b d next =>
    simp only [request]
    split
    · exact ⟨trivial, blind_push hk hp⟩
    · exact ⟨hp, hk⟩
  | drain b next =>
    simp only [request]
    split
    · exact ⟨hp, hk⟩
    · exact blind_drain hk w b hp
  | invoke binding e next => exact ⟨hp, hk⟩
  | attempt body next => exact ⟨hp.1, blind_push hk hp.2⟩
  | spawn body next => exact ⟨hp.1, blind_push hk hp.2⟩
  | _ => exact ⟨hp, hk⟩

theorem blind_resume (x : Ending) {f : Frame σ ε α} (hf : f.Blind) : (resume w x k f).Blind := by
  cases f with
  | resume next => exact ⟨hf, hk⟩
  | call c => exact ⟨hf, hk⟩
  | handing b e bs =>
    cases bs with
    | nil => exact ⟨trivial, hk⟩
    | cons g gs => exact ⟨trivial, blind_push hk trivial⟩
  | draining b owner =>
    simp only [resume]
    split
    · exact ⟨trivial, blind_push hk trivial⟩
    · exact ⟨trivial, hk⟩
  | report _ _ _ => exact ⟨trivial, hk⟩
  | guarded next => exact ⟨hf none, hk⟩
  | joined parent next => exact ⟨hf none, hk⟩

theorem blind_unwind (p : Panic) {f : Frame σ ε α} (hf : f.Blind) : (unwind w p k f).Blind := by
  cases f with
  | call c => exact ⟨hf, hk⟩
  | guarded next => exact ⟨hf (some p), hk⟩
  | joined parent next => exact ⟨hf (some p), hk⟩
  | _ => exact ⟨trivial, hk⟩

end

theorem Blind.step {code : Behaviour σ ε α} (hcode : code.Blind) {m : Machine σ ε α} (h : m.Blind) :
    (m.step code).Blind := by
  obtain ⟨w, c, k⟩ := m
  obtain ⟨hc, hk⟩ := h
  cases c with
  | run p => exact blind_request hk hc
  | call c =>
    simp only [Machine.step, enter]
    split
    · exact ⟨hcode.body _ _ _, blind_push hk hc⟩
    · exact ⟨hc, hk⟩
  | settle c o =>
    obtain ⟨d, use⟩ := c
    cases use with
    | direct next => exact ⟨hc o, hk⟩
    | delivery b => cases o <;> exact ⟨trivial, hk⟩
  | report b d e =>
    simp only [Machine.step, report]
    split
    · exact ⟨hcode.sink _ _ _, blind_push hk trivial⟩
    · exact ⟨trivial, hk⟩
  | returned x =>
    cases k with
    | nil => exact ⟨trivial, hk⟩
    | cons f k =>
      exact blind_resume (fun f' hf' => hk f' (List.mem_cons_of_mem f hf')) x
        (hk f (List.mem_cons_self ..))
  | unwinding p =>
    cases k with
    | nil => exact ⟨trivial, hk⟩
    | cons f k =>
      exact blind_unwind (fun f' hf' => hk f' (List.mem_cons_of_mem f hf')) p
        (hk f (List.mem_cons_self ..))

end Machine

/-! ## Crews -/

def Pick.Blind : Pick σ ε α → Prop
  | .work _ => True
  | .start p => p.Blind

namespace Crew

def Blind (c : Crew σ ε α) : Prop := ∀ s ∈ c.strands, (c.machine s).Blind

def rewritten (j : List (Happening ε)) (c : Crew σ ε α) : Crew σ ε α :=
  { c with world := { c.world with journal := j } }

def told (j : List (Happening ε)) (c : Crew σ ε α) : Crew σ ε α := { c with world := c.world.told j }

theorem step_told (j : List (Happening ε)) (code : Behaviour σ ε α) {c : Crew σ ε α} (h : c.Blind)
    (pick : Pick σ ε α) : (c.told j).step code pick = (c.step code pick).told j := by
  cases pick with
  | start p => rfl
  | work i =>
    simp only [Crew.step]
    rw [show (c.told j).strands[i]? = c.strands[i]? from rfl]
    cases hs : c.strands[i]? with
    | none => rfl
    | some s =>
      have hm := Machine.step_told j code (h s (List.mem_of_getElem? hs))
      rw [show (c.machine s).told j = (c.told j).machine s from rfl] at hm
      simp only [hm]
      rfl

theorem Blind.step {code : Behaviour σ ε α} (hcode : code.Blind) {c : Crew σ ε α} (h : c.Blind)
    {pick : Pick σ ε α} (hp : pick.Blind) : (c.step code pick).Blind := by
  intro s' hs'
  cases pick with
  | start p =>
    rcases List.mem_append.mp hs' with hs' | hs'
    · exact ⟨(h s' hs').control, (h s' hs').stack⟩
    · rw [List.mem_singleton.mp hs']
      exact ⟨hp, fun f hf => by cases hf⟩
  | work i =>
    simp only [Crew.step] at hs' ⊢
    cases hs : c.strands[i]? with
    | none =>
      rw [hs] at hs'
      exact h s' hs'
    | some s =>
      rw [hs] at hs'
      rcases List.mem_or_eq_of_mem_set hs' with hs' | rfl
      · exact ⟨(h s' hs').control, (h s' hs').stack⟩
      · have hm := (h s (List.mem_of_getElem? hs)).step hcode
        exact ⟨hm.control, hm.stack⟩

section

variable {code : Behaviour σ ε α} (hcode : code.Blind) {picks : Nat → Pick σ ε α}
  (hpicks : ∀ n, (picks n).Blind)
include hcode hpicks

theorem Blind.after {c : Crew σ ε α} (h : c.Blind) : ∀ n, (c.after code picks n).Blind
  | 0 => h
  | n + 1 => (Blind.after h n).step hcode (hpicks n)

theorem after_told (j : List (Happening ε)) {c : Crew σ ε α} (h : c.Blind) :
    ∀ n, (c.told j).after code picks n = (c.after code picks n).told j
  | 0 => rfl
  | n + 1 => by
    rw [Crew.after, after_told j h n, step_told j code (h.after hcode hpicks n)]
    rfl

/-- Whatever was written before, a run does the same and writes the same. -/
theorem after_rewritten {c : Crew σ ε α} (h : c.Blind) (j : List (Happening ε)) (n : Nat) :
    ∃ js, (c.after code picks n).world.journal = c.world.journal ++ js ∧
      (c.rewritten j).after code picks n = (c.after code picks n).rewritten (j ++ js) := by
  have hblank : (c.rewritten []).Blind := fun s hs => ⟨(h s hs).control, (h s hs).stack⟩
  have hc : c = (c.rewritten []).told c.world.journal := by
    simp only [told, World.told, rewritten, List.append_nil]
  have hj : c.rewritten j = (c.rewritten []).told j := by
    simp only [told, World.told, rewritten, List.append_nil]
  refine ⟨((c.rewritten []).after code picks n).world.journal, ?_, ?_⟩
  · conv => lhs; rw [hc, after_told hcode hpicks _ hblank]
    rfl
  · rw [hj, after_told hcode hpicks j hblank]
    conv => rhs; rw [hc, after_told hcode hpicks _ hblank]
    rfl

end

end Crew
end EventBus
