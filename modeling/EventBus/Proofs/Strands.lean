import EventBus.Proofs.Crews

/-!
# What a step does with a strand

A step starts something on the stack, goes on with it or ends it. Whatever lies directly on the loop
of a dispatch is a delivery of that loop, so a panic comes to a loop only out of a report.
-/

namespace EventBus

variable {σ ε α : Type}

def Machine.strand (m : Machine σ ε α) : Strand σ ε α := ⟨m.world.thread, m.control, m.stack⟩

/-- The code at work has come to an end, and what waits for it goes on. -/
def Control.Rests : Control σ ε α → Prop
  | .returned _ | .unwinding _ => True
  | _ => False

/-- The bus whose deliveries are made in the frame. -/
def Frame.loop? : Frame σ ε α → Option BusId
  | .handing b _ _ => some b
  | .draining b _ => some b
  | _ => none

/-- A panic goes through the frame. -/
def Frame.Passes : Frame σ ε α → Prop
  | .resume _ | .report .. | .handing .. | .draining .. => True
  | _ => False

namespace Strand

/-- The steps of a strand in the world `w`. -/
inductive Step (w : World σ ε α) : Strand σ ε α → Strand σ ε α → Prop
  | halted {u : ThreadId} {c : Control σ ε α} : c.Rests → Step w ⟨u, c, []⟩ ⟨u, c, []⟩
  -- Requests of a program.
  | finished {u : ThreadId} {x : Ending} {k : List (Frame σ ε α)} :
      Step w ⟨u, .run (.finish x), k⟩ ⟨u, .returned x, k⟩
  | asked {u : ThreadId} {p : Program σ ε α} {c : Control σ ε α} {k : List (Frame σ ε α)} :
      (∀ b e next, p ≠ .post b e next) → (∀ x, p ≠ .finish x) → c.task? = none →
      Step w ⟨u, .run p, k⟩ ⟨u, c, k⟩
  | dropped {u : ThreadId} {b : BusId} {e : Event α} {next : Program σ ε α}
      {k : List (Frame σ ε α)} : w.finds b e = [] → e.type = .dead →
      Step w ⟨u, .run (.post b e next), k⟩ ⟨u, .run next, k⟩
  | buried {u : ThreadId} {b : BusId} {e : Event α} {next : Program σ ε α}
      {k : List (Frame σ ε α)} : w.finds b e = [] → e.type ≠ .dead →
      Step w ⟨u, .run (.post b e next), k⟩ ⟨u, .run (.bury b e), .resume next :: k⟩
  | passed {u : ThreadId} {b : BusId} {e : Event α} {next : Program σ ε α}
      {k : List (Frame σ ε α)} : w.mode b = .queued → w.finds b e ≠ [] →
      Step w ⟨u, .run (.post b e next), k⟩ ⟨u, .run next, k⟩
  | handing {u : ThreadId} {b : BusId} {e : Event α} {bs : List Binding}
      {next : Program σ ε α} {k : List (Frame σ ε α)} :
      w.mode b = .immediate → w.finds b e ≠ [] → w.finds b e = bs.map (⟨e, ·⟩) →
      Step w ⟨u, .run (.post b e next), k⟩
        ⟨u, .returned .done, .handing b e bs :: .resume next :: k⟩
  | draining {u : ThreadId} {b : BusId} {p next : Program σ ε α} {k : List (Frame σ ε α)} :
      w.mode b = .queued → ((∃ e, p = .post b e next ∧ w.finds b e ≠ []) ∨ p = .drain b next) →
      Step w ⟨u, .run p, k⟩ ⟨u, .returned .done, .draining b u :: .resume next :: k⟩
  | enqueued {u : ThreadId} {b : BusId} {d : Delivery α} {next : Program σ ε α}
      {k : List (Frame σ ε α)} : w.mode b = .immediate →
      Step w ⟨u, .run (.enqueue b d next), k⟩ ⟨u, .call ⟨d, .delivery b⟩, .resume next :: k⟩
  | guarded {u : ThreadId} {body : Program σ ε α} {next : Option Panic → Program σ ε α}
      {k : List (Frame σ ε α)} :
      Step w ⟨u, .run (.attempt body next), k⟩ ⟨u, .run body, .guarded next :: k⟩
  | spawned {u u' : ThreadId} {body : Program σ ε α} {next : Option Panic → Program σ ε α}
      {k : List (Frame σ ε α)} :
      Step w ⟨u, .run (.spawn body next), k⟩ ⟨u', .run body, .joined u next :: k⟩
  -- Calls and reports.
  | entered {u : ThreadId} {c : Call σ ε α} {p : Program σ ε α} {k : List (Frame σ ε α)} :
      Step w ⟨u, .call c, k⟩ ⟨u, .run p, .call c :: k⟩
  | refused {u : ThreadId} {c : Call σ ε α} {e : HandlerError} {k : List (Frame σ ε α)} :
      Step w ⟨u, .call c, k⟩ ⟨u, .settle c (.error e), k⟩
  | answered {u : ThreadId} {d : Delivery α} {next : Except HandlerError Unit → Program σ ε α}
      {o : Except HandlerError Unit} {k : List (Frame σ ε α)} :
      Step w ⟨u, .settle ⟨d, .direct next⟩ o, k⟩ ⟨u, .run (next o), k⟩
  | succeeded {u : ThreadId} {d : Delivery α} {b : BusId} {k : List (Frame σ ε α)} :
      Step w ⟨u, .settle ⟨d, .delivery b⟩ (.ok ()), k⟩ ⟨u, .returned .done, k⟩
  | failed {u : ThreadId} {d : Delivery α} {b : BusId} {e : HandlerError}
      {k : List (Frame σ ε α)} :
      Step w ⟨u, .settle ⟨d, .delivery b⟩ (.error e), k⟩ ⟨u, .report b d e, k⟩
  | consulted {u : ThreadId} {b : BusId} {d : Delivery α} {e : HandlerError} {p : Program σ ε α}
      {k : List (Frame σ ε α)} :
      Step w ⟨u, .report b d e, k⟩ ⟨u, .run p, .report b d e :: k⟩
  | kept {u : ThreadId} {b : BusId} {d : Delivery α} {e : HandlerError} {k : List (Frame σ ε α)} :
      Step w ⟨u, .report b d e, k⟩ ⟨u, .returned .done, k⟩
  -- What waited on the stack goes on.
  | resumed {u : ThreadId} {x : Ending} {next : Program σ ε α} {k : List (Frame σ ε α)} :
      Step w ⟨u, .returned x, .resume next :: k⟩ ⟨u, .run next, k⟩
  | settled {u : ThreadId} {c : Control σ ε α} {call : Call σ ε α}
      {o : Except HandlerError Unit} {k : List (Frame σ ε α)} :
      c.Rests → Step w ⟨u, c, .call call :: k⟩ ⟨u, .settle call o, k⟩
  | reported {u : ThreadId} {x : Ending} {b : BusId} {d : Delivery α} {e : HandlerError}
      {k : List (Frame σ ε α)} :
      Step w ⟨u, .returned x, .report b d e :: k⟩ ⟨u, .returned .done, k⟩
  | handed {u : ThreadId} {x : Ending} {b : BusId} {e : Event α} {k : List (Frame σ ε α)} :
      Step w ⟨u, .returned x, .handing b e [] :: k⟩ ⟨u, .returned .done, k⟩
  | hands {u : ThreadId} {x : Ending} {b : BusId} {e : Event α} {g : Binding} {gs : List Binding}
      {k : List (Frame σ ε α)} :
      Step w ⟨u, .returned x, .handing b e (g :: gs) :: k⟩
        ⟨u, .call ⟨⟨e, g⟩, .delivery b⟩, .handing b e gs :: k⟩
  | drained {u : ThreadId} {x : Ending} {b : BusId} {owner : ThreadId} {k : List (Frame σ ε α)} :
      ((w.bus b).queues.next owner).1 = none →
      Step w ⟨u, .returned x, .draining b owner :: k⟩ ⟨u, .returned .done, k⟩
  | takes {u : ThreadId} {x : Ending} {b : BusId} {owner : ThreadId} {d : Delivery α}
      {k : List (Frame σ ε α)} : ((w.bus b).queues.next owner).1 = some d →
      Step w ⟨u, .returned x, .draining b owner :: k⟩
        ⟨u, .call ⟨d, .delivery b⟩, .draining b owner :: k⟩
  | caught {u : ThreadId} {c : Control σ ε α} {next : Option Panic → Program σ ε α} {p : Option Panic}
      {k : List (Frame σ ε α)} :
      c.Rests → Step w ⟨u, c, .guarded next :: k⟩ ⟨u, .run (next p), k⟩
  | joined {u parent : ThreadId} {c : Control σ ε α} {next : Option Panic → Program σ ε α}
      {p : Option Panic} {k : List (Frame σ ε α)} :
      c.Rests → Step w ⟨u, c, .joined parent next :: k⟩ ⟨parent, .run (next p), k⟩
  | unwound {u : ThreadId} {p : Panic} {f : Frame σ ε α} {k : List (Frame σ ε α)} :
      f.Passes → Step w ⟨u, .unwinding p, f :: k⟩ ⟨u, .unwinding p, k⟩

end Strand

/-! ## Steps of machines are steps of strands -/

namespace Machine

open Strand (Step)

section

variable {w : World σ ε α} {k : List (Frame σ ε α)}

theorem strand_drain {w' : World σ ε α} (ht : w'.thread = w.thread) (hb : w.mode b = .queued)
    {p next : Program σ ε α}
    (hp : (∃ e, p = .post b e next ∧ w.finds b e ≠ []) ∨ p = .drain b next) :
    Step w ⟨w.thread, .run p, k⟩ (drain w' b next k).strand := by
  unfold drain
  split
  · simp only [strand, World.modifyBus, ht]
    exact .draining hb hp
  · simp only [strand, ht]
    rcases hp with ⟨e, rfl, he⟩ | rfl
    · exact .passed hb he
    · exact .asked (fun _ _ _ h => by cases h) (fun _ h => by cases h) rfl

theorem strand_post (b : BusId) (e : Event α) (next : Program σ ε α) :
    Step w ⟨w.thread, .run (.post b e next), k⟩ (request w k (.post b e next)).strand := by
  obtain ⟨w₁, hc, -, h⟩ := request_post w k b e next
  rcases h with ⟨hr, hd, hq⟩ | ⟨hr, hd, hq⟩ | ⟨g, gs, hr, hp⟩
  · rw [hq]
    simp only [strand, hc.thread]
    exact .dropped (World.finds_eq_nil.mpr hr) hd
  · rw [hq]
    simp only [strand, hc.thread]
    exact .buried (World.finds_eq_nil.mpr hr) hd
  · have hne : w.finds b e ≠ [] := by simp [hr]
    cases hm : (w₁.bus b).config.mode with
    | immediate =>
      simp only [request, hp, hm, strand, hc.thread]
      exact .handing (show w.mode b = _ from hc.mode ▸ hm) hne (by rw [World.finds, hr])
    | queued =>
      simp only [request, hp, hm]
      exact strand_drain (show (w₁.enqueueAll b _).thread = _ from hc.thread)
        (show w.mode b = _ from hc.mode ▸ hm) (.inl ⟨e, rfl, hne⟩)

theorem strand_request (p : Program σ ε α) :
    Step w ⟨w.thread, .run p, k⟩ (request w k p).strand := by
  have asked : ∀ {p : Program σ ε α} {m : Machine σ ε α}, (∀ b e next, p ≠ .post b e next) →
      (∀ x, p ≠ .finish x) → m.world.thread = w.thread → m.control.task? = none → m.stack = k →
      Step w ⟨w.thread, .run p, k⟩ m.strand := by
    rintro p ⟨w', c, k'⟩ hp hf ht hc rfl
    show Step w _ ⟨w'.thread, c, k'⟩
    rw [show w'.thread = w.thread from ht]
    exact .asked hp hf hc
  cases p with
  | finish x => exact .finished
  | post b e next => exact strand_post b e next
  | register b s next =>
    obtain ⟨w', o, hr, hcalm, -⟩ := request_register w k b s next
    rw [hr]
    exact asked (fun _ _ _ h => by cases h) (fun _ h => by cases h) hcalm.thread rfl rfl
  | unregister b s next =>
    obtain ⟨w', o, hr, hcalm, -⟩ := request_unregister w k b s next
    rw [hr]
    exact asked (fun _ _ _ h => by cases h) (fun _ h => by cases h) hcalm.thread rfl rfl
  | enqueue b d next =>
    cases hm : (w.bus b).config.mode with
    | immediate =>
      simp only [request, hm]
      exact .enqueued hm
    | queued =>
      simp only [request, hm]
      exact asked (fun _ _ _ h => by cases h) (fun _ h => by cases h) rfl rfl rfl
  | drain b next =>
    cases hm : (w.bus b).config.mode with
    | immediate =>
      simp only [request, hm]
      exact asked (fun _ _ _ h => by cases h) (fun _ h => by cases h) rfl rfl rfl
    | queued =>
      simp only [request, hm]
      exact strand_drain rfl hm (.inr rfl)
  | attempt body next => exact .guarded
  | spawn body next => exact .spawned
  | _ => exact asked (fun _ _ _ h => by cases h) (fun _ h => by cases h) rfl rfl rfl

theorem strand_resume (x : Ending) (f : Frame σ ε α) :
    Step w ⟨w.thread, .returned x, f :: k⟩ (resume w x k f).strand := by
  cases f with
  | resume next => exact .resumed
  | call c => exact .settled trivial
  | report b d e => exact .reported
  | handing b e bs =>
    cases bs with
    | nil => exact .handed
    | cons g gs => exact .hands
  | draining b owner =>
    simp only [resume]
    split
    · rename_i d queues hn
      exact .takes (by rw [hn])
    · rename_i queues hn
      exact .drained (by rw [hn])
  | guarded next => exact .caught trivial
  | joined parent next => exact .joined trivial

theorem strand_unwind (p : Panic) (f : Frame σ ε α) :
    Step w ⟨w.thread, .unwinding p, f :: k⟩ (unwind w p k f).strand := by
  cases f with
  | call c => exact .settled trivial
  | draining b owner =>
    simp only [unwind, strand, World.thread_abandon]
    exact .unwound trivial
  | guarded next => exact .caught trivial
  | joined parent next => exact .joined trivial
  | _ => exact .unwound trivial

end

theorem strand_step (code : Behaviour σ ε α) (m : Machine σ ε α) :
    Step m.world m.strand (m.step code).strand := by
  obtain ⟨w, c, k⟩ := m
  cases c with
  | run p => exact strand_request p
  | call c =>
    simp only [step, enter]
    split
    · exact .entered
    · exact .refused
  | settle c o =>
    obtain ⟨d, use⟩ := c
    cases use with
    | direct next => exact .answered
    | delivery b =>
      cases o with
      | ok _ => exact .succeeded
      | error e => exact .failed
  | report b d e =>
    simp only [step, report]
    split
    · exact .consulted
    · simp only [strand, (World.Calm.keep w b d e).thread]
      exact .kept
  | returned x =>
    cases k with
    | nil => exact .halted trivial
    | cons f k => exact strand_resume x f
  | unwinding p =>
    cases k with
    | nil => exact .halted trivial
    | cons f k => exact strand_unwind p f

end Machine

/-! ## The stack and its threads -/

/-- The thread below the frames when `u` runs on them. -/
def ground (u : ThreadId) (fs : List (Frame σ ε α)) : ThreadId := fs.foldl Frame.below u

namespace Strand

variable {w : World σ ε α} {s s' : Strand σ ε α}

/-- Code at work leaves the stack under what it puts on it. Code that rests gives way to its frame,
in whose place at most one other comes. -/
theorem Step.turn (h : Step w s s') :
    (¬s.control.Rests ∧ ∃ fs, s'.stack = fs ++ s.stack ∧ ground s'.thread fs = s.thread) ∨
      (s.stack = [] ∧ s' = s) ∨
      (s.control.Rests ∧
        ∃ f k fs, s.stack = f :: k ∧ s'.stack = fs ++ k ∧ ground s'.thread fs = f.below s.thread) := by
  cases h with
  | halted _ => exact .inr (.inl ⟨rfl, rfl⟩)
  | finished => exact .inl ⟨id, [], rfl, rfl⟩
  | asked _ _ _ => exact .inl ⟨id, [], rfl, rfl⟩
  | dropped _ _ => exact .inl ⟨id, [], rfl, rfl⟩
  | buried _ _ => exact .inl ⟨id, [_], rfl, rfl⟩
  | passed _ _ => exact .inl ⟨id, [], rfl, rfl⟩
  | handing _ _ _ => exact .inl ⟨id, [_, _], rfl, rfl⟩
  | draining _ _ => exact .inl ⟨id, [_, _], rfl, rfl⟩
  | enqueued _ => exact .inl ⟨id, [_], rfl, rfl⟩
  | guarded => exact .inl ⟨id, [_], rfl, rfl⟩
  | spawned => exact .inl ⟨id, [_], rfl, rfl⟩
  | entered => exact .inl ⟨id, [_], rfl, rfl⟩
  | consulted => exact .inl ⟨id, [_], rfl, rfl⟩
  | refused | answered | succeeded | failed | kept => exact .inl ⟨id, [], rfl, rfl⟩
  | hands => exact .inr (.inr ⟨trivial, _, _, [_], rfl, rfl, rfl⟩)
  | takes _ => exact .inr (.inr ⟨trivial, _, _, [_], rfl, rfl, rfl⟩)
  | settled hc | caught hc | joined hc => exact .inr (.inr ⟨hc, _, _, [], rfl, rfl, rfl⟩)
  | @unwound _ _ f _ hf =>
    refine .inr (.inr ⟨trivial, _, _, [], rfl, rfl, ?_⟩)
    cases f <;> first | rfl | cases hf
  | _ => exact .inr (.inr ⟨trivial, _, _, [], rfl, rfl, rfl⟩)

/-- Frames with others on them, or under code at work, stay where they are. -/
theorem Step.above (h : Step w s s') {fs k : List (Frame σ ε α)} (hk : s.stack = fs ++ k)
    (hfs : fs ≠ [] ∨ ¬s.control.Rests) :
    ∃ fs', s'.stack = fs' ++ k ∧ ground s'.thread fs' = ground s.thread fs := by
  have hground : ∀ (u : ThreadId) (gs hs : List (Frame σ ε α)),
      ground u (gs ++ hs) = ground (ground u gs) hs := fun _ _ _ => List.foldl_append
  rcases h.turn with ⟨-, gs, hs', hu⟩ | ⟨-, rfl⟩ | ⟨hrests, f, k', gs, hs, hs', hu⟩
  · refine ⟨gs ++ fs, by rw [hs', hk, List.append_assoc], ?_⟩
    rw [hground, hu]
  · exact ⟨fs, hk, rfl⟩
  · cases fs with
    | nil => exact absurd hrests (hfs.resolve_left fun hne => hne rfl)
    | cons g fs =>
      rw [hs, List.cons_append, List.cons.injEq] at hk
      obtain ⟨rfl, rfl⟩ := hk
      refine ⟨gs ++ fs, by rw [hs', List.append_assoc], ?_⟩
      rw [hground, hu]
      rfl

end Strand

/-! ## Docks -/

/-- A loop on top of `k` is that of the task. -/
def Berth (k : List (Frame σ ε α)) (task? : Option (BusId × Delivery α)) : Prop :=
  ∀ b f k', k = f :: k' → f.loop? = some b → ∃ d, task? = some (b, d)

/-- What lies on a loop is a delivery of the loop. -/
def Docked : List (Frame σ ε α) → Prop
  | [] => True
  | f :: k => Berth k f.task? ∧ Docked k

namespace Berth

variable {k : List (Frame σ ε α)} {task? : Option (BusId × Delivery α)}

theorem of_not_loop {f : Frame σ ε α} (hf : f.loop? = none) : Berth (f :: k) task? := by
  intro b g k' hk hg
  cases hk
  rw [hf] at hg
  cases hg

theorem of_loop {b : BusId} {f : Frame σ ε α} (hf : f.loop? = some b) {d : Delivery α} :
    Berth (f :: k) (some (b, d)) := by
  intro c g k' hk hg
  cases hk
  rw [hf] at hg
  cases hg
  exact ⟨d, rfl⟩

end Berth

namespace Strand

/-- Whatever lies on a loop, or is at work there, is a delivery of the loop. -/
structure Docked (s : Strand σ ε α) : Prop where
  top : s.control.Rests ∨ Berth s.stack s.control.task?
  stack : EventBus.Docked s.stack

variable {w : World σ ε α} {s s' : Strand σ ε α}

theorem Docked.start (t : ThreadId) (p : Program σ ε α) : Docked ⟨t, .run p, []⟩ :=
  ⟨.inr (fun _ _ _ h => nomatch h), trivial⟩

theorem Docked.step (h : s.Docked) (hs : Step w s s') : s'.Docked := by
  obtain ⟨htop, hk⟩ := h
  cases hs with
  | halted hc => exact ⟨.inl hc, hk⟩
  | finished => exact ⟨.inl trivial, hk⟩
  | asked _ _ hc => exact ⟨.inr (hc ▸ htop.resolve_left id), hk⟩
  | dropped _ _ => exact ⟨htop, hk⟩
  | buried _ _ => exact ⟨.inr (.of_not_loop rfl), htop.resolve_left id, hk⟩
  | passed _ _ => exact ⟨htop, hk⟩
  | handing _ _ _ => exact ⟨.inl trivial, .of_not_loop rfl, htop.resolve_left id, hk⟩
  | draining _ _ => exact ⟨.inl trivial, .of_not_loop rfl, htop.resolve_left id, hk⟩
  | enqueued _ => exact ⟨.inr (.of_not_loop rfl), htop.resolve_left id, hk⟩
  | guarded => exact ⟨.inr (.of_not_loop rfl), htop.resolve_left id, hk⟩
  | spawned => exact ⟨.inr (.of_not_loop rfl), htop.resolve_left id, hk⟩
  | @entered _ c _ _ =>
    have hc : Frame.task? (.call c : Frame σ ε α) = (Control.call c : Control σ ε α).task? := by
      obtain ⟨d, use⟩ := c
      cases use <;> rfl
    exact ⟨.inr (.of_not_loop rfl), hc ▸ htop.resolve_left id, hk⟩
  | @refused _ c e _ =>
    have hc : (Control.settle c (.error e) : Control σ ε α).task? =
        (Control.call c : Control σ ε α).task? := by
      obtain ⟨d, use⟩ := c
      cases use <;> rfl
    exact ⟨.inr (hc ▸ htop.resolve_left id), hk⟩
  | answered => exact ⟨.inr (htop.resolve_left id), hk⟩
  | succeeded => exact ⟨.inl trivial, hk⟩
  | failed => exact ⟨.inr (htop.resolve_left id), hk⟩
  | consulted => exact ⟨.inr (.of_not_loop rfl), htop.resolve_left id, hk⟩
  | kept => exact ⟨.inl trivial, hk⟩
  | resumed => exact ⟨.inr hk.1, hk.2⟩
  | @settled _ _ c o _ _ =>
    have hc : (Control.settle c o : Control σ ε α).task? =
        Frame.task? (.call c : Frame σ ε α) := by
      obtain ⟨d, use⟩ := c
      cases use <;> rfl
    exact ⟨.inr (hc ▸ hk.1), hk.2⟩
  | reported => exact ⟨.inl trivial, hk.2⟩
  | handed => exact ⟨.inl trivial, hk.2⟩
  | hands => exact ⟨.inr (.of_loop rfl), hk⟩
  | drained _ => exact ⟨.inl trivial, hk.2⟩
  | takes _ => exact ⟨.inr (.of_loop rfl), hk⟩
  | caught _ => exact ⟨.inr hk.1, hk.2⟩
  | joined _ => exact ⟨.inr hk.1, hk.2⟩
  | unwound _ => exact ⟨.inl trivial, hk.2⟩

/-! ## Panics that leave reports -/

/-- A panic leaves a report. -/
def escapes : Strand σ ε α → Bool
  | ⟨_, .unwinding _, .report .. :: _⟩ => true
  | _ => false

/-- A panic goes through a loop. -/
def breaks : Strand σ ε α → Bool
  | ⟨_, .unwinding _, f :: _⟩ => f.loop?.isSome
  | _ => false

theorem breaks_of_berth {u : ThreadId} {c : Control σ ε α} {k : List (Frame σ ε α)}
    (h : Berth k none) : breaks ⟨u, c, k⟩ = false := by
  cases c with
  | unwinding p =>
    cases k with
    | nil => rfl
    | cons f k =>
      cases hf : f.loop? with
      | none => simp [breaks, hf]
      | some b =>
        obtain ⟨d, hd⟩ := h b f k rfl hf
        cases hd
  | _ => rfl

/-- A panic comes to a loop only out of a report on it. -/
theorem Docked.breaks_from (h : s.Docked) (hs : Step w s s') (hb : s'.breaks = true) :
    s.escapes = true ∧ s.stack.length = s'.stack.length + 1 := by
  obtain ⟨htop, hk⟩ := h
  have berthed : ∀ {u : ThreadId} {c : Control σ ε α} {k : List (Frame σ ε α)},
      (⟨u, c, k⟩ : Strand σ ε α).breaks = true → ¬Berth k none :=
    fun hb hk => Bool.false_ne_true ((breaks_of_berth hk).symm.trans hb)
  cases hs with
  | @halted _ c _ => cases c <;> cases hb
  | asked _ _ _ => exact absurd (htop.resolve_left id) (berthed hb)
  | @unwound _ _ f _ hf =>
    cases f with
    | report _ _ _ => exact ⟨rfl, rfl⟩
    | resume _ | handing _ _ _ | draining _ _ => exact absurd hk.1 (berthed hb)
    | _ => cases hf
  | _ => cases hb

end Strand

/-! ## Crews -/

namespace Crew

theorem strand_step (code : Behaviour σ ε α) (c : Crew σ ε α) (s : Strand σ ε α) :
    Strand.Step (c.machine s).world s ((c.machine s).step code).strand :=
  Machine.strand_step code (c.machine s)

def Docked (c : Crew σ ε α) : Prop := ∀ s ∈ c.strands, s.Docked

theorem Fresh.docked {c : Crew σ ε α} (h : c.Fresh) : c.Docked := by
  intro s hs
  obtain ⟨⟨p, hp⟩, hk⟩ := h.programs s hs
  obtain ⟨t, control, stack⟩ := s
  subst hp hk
  exact .start t p

theorem Docked.step {c : Crew σ ε α} (h : c.Docked) (code : Behaviour σ ε α) (pick : Pick σ ε α) :
    (c.step code pick).Docked := by
  intro s' hs'
  cases pick with
  | start p =>
    rcases List.mem_append.mp hs' with hs' | hs'
    · exact h s' hs'
    · rw [List.mem_singleton.mp hs']
      exact .start _ p
  | work i =>
    simp only [Crew.step] at hs'
    cases hs : c.strands[i]? with
    | none =>
      rw [hs] at hs'
      exact h s' hs'
    | some s =>
      rw [hs] at hs'
      rcases List.mem_or_eq_of_mem_set hs' with hs' | rfl
      · exact h s' hs'
      · exact (h s (List.mem_of_getElem? hs)).step (strand_step code c s)

theorem Docked.after {c : Crew σ ε α} (h : c.Docked) (code : Behaviour σ ε α)
    (picks : Nat → Pick σ ε α) : ∀ n, (c.after code picks n).Docked
  | 0 => h
  | n + 1 => (h.after code picks n).step code (picks n)

end Crew
end EventBus
