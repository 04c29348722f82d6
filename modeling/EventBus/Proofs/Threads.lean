import EventBus.Proofs.Crews
import Mathlib.Data.List.Nodup

/-!
# Different strands, different threads

The threads of a strand are the one it runs on and those that wait for it. No thread belongs to two
strands, so a strand changes no lane of another's thread.
-/

namespace EventBus

variable {σ ε α : Type}

def Frame.parent? : Frame σ ε α → Option ThreadId
  | .joined parent _ => some parent
  | _ => none

def threadsOf (u : ThreadId) (k : List (Frame σ ε α)) : List ThreadId := u :: k.filterMap Frame.parent?

theorem below_mem (u : ThreadId) (f : Frame σ ε α) (k : List (Frame σ ε α)) :
    List.Sublist (threadsOf (f.below u) k) (threadsOf u (f :: k)) := by
  cases f with
  | joined parent next =>
    simp only [threadsOf, Frame.below, List.filterMap_cons, Frame.parent?]
    exact List.sublist_cons_self _ _
  | _ => exact List.Sublist.refl _

theorem drains_of_not_mem {b : BusId} {t : ThreadId} : ∀ {k : List (Frame σ ε α)} {u : ThreadId},
    t ∉ threadsOf u k → drains b t u k = 0
  | [], _, _ => rfl
  | f :: k, u, h => by
    have hu : u ≠ t := fun hu => h (hu ▸ List.mem_cons_self ..)
    rw [drains, if_neg hu, drains_of_not_mem fun hm => h ((below_mem u f k).subset hm)]

theorem working_of_not_mem {b : BusId} {t : ThreadId} : ∀ {k : List (Frame σ ε α)} {u : ThreadId},
    t ∉ threadsOf u k → working b t u k = []
  | [], _, _ => rfl
  | f :: k, u, h => by
    have hu : u ≠ t := fun hu => h (hu ▸ List.mem_cons_self ..)
    rw [working, if_neg hu, working_of_not_mem fun hm => h ((below_mem u f k).subset hm)]
    rfl

namespace Machine

def threads (m : Machine σ ε α) : List ThreadId := threadsOf m.world.thread m.stack

/-- The threads of `m'` are some of those of `m`, and the next new one at most. -/
def Manned (m m' : Machine σ ε α) : Prop :=
  ∃ fresh, (fresh = [] ∧ m'.world.nextThread = m.world.nextThread ∨
      fresh = [m.world.nextThread] ∧ m'.world.nextThread = m.world.nextThread + 1) ∧
    m'.threads.Sublist (fresh ++ m.threads)

section

variable {w w' : World σ ε α} {c c' : Control σ ε α} {k k' : List (Frame σ ε α)}

theorem manned_of_same (ht : w'.thread = w.thread) (hn : w'.nextThread = w.nextThread)
    (hk : k'.filterMap Frame.parent? = k.filterMap Frame.parent?) :
    Manned ⟨w, c, k⟩ ⟨w', c', k'⟩ := by
  refine ⟨[], .inl ⟨rfl, hn⟩, ?_⟩
  simp only [threads, threadsOf, ht, hk, List.nil_append]
  exact List.Sublist.refl _

theorem manned_of_calm (h : World.Calm w w')
    (hk : k'.filterMap Frame.parent? = k.filterMap Frame.parent?) :
    Manned ⟨w, c, k⟩ ⟨w', c', k'⟩ :=
  manned_of_same h.thread h.nextThread hk

theorem manned_joined (parent : ThreadId) (next : Option Panic → Program σ ε α) :
    Manned ⟨w, c, .joined parent next :: k⟩ ⟨{ w with thread := parent }, c', k⟩ := by
  refine ⟨[], .inl ⟨rfl, rfl⟩, ?_⟩
  simp only [threads, threadsOf, List.filterMap_cons, Frame.parent?, List.nil_append]
  exact List.sublist_cons_self _ _

theorem manned_drain (ht : w'.thread = w.thread) (hn : w'.nextThread = w.nextThread) (b : BusId)
    (next : Program σ ε α) : Manned ⟨w, c, k⟩ (drain w' b next k) := by
  unfold drain
  split <;> exact manned_of_same ht hn rfl

theorem manned_request (p : Program σ ε α) : Manned ⟨w, .run p, k⟩ (request w k p) := by
  cases p with
  | note e _ => exact manned_of_calm (World.Calm.note w e) rfl
  | post b e next =>
    obtain ⟨w₁, hc, -, h⟩ := request_post w k b e next
    rcases h with ⟨-, -, hr⟩ | ⟨-, -, hr⟩ | ⟨g, gs, -, hp⟩
    · rw [hr]
      exact manned_of_calm hc rfl
    · rw [hr]
      exact manned_of_calm hc rfl
    · simp only [request, hp]
      split
      · exact manned_of_calm hc rfl
      · exact manned_drain (show (w₁.enqueueAll b _).thread = w.thread from hc.thread)
          hc.nextThread b next
  | register b s next =>
    obtain ⟨w', o, hr, hcalm, -⟩ := request_register w k b s next
    rw [hr]
    exact manned_of_calm hcalm rfl
  | unregister b s next =>
    obtain ⟨w', o, hr, hcalm, -⟩ := request_unregister w k b s next
    rw [hr]
    exact manned_of_calm hcalm rfl
  | enqueue b d next =>
    simp only [request]
    split <;> exact manned_of_same rfl rfl rfl
  | drain b next =>
    simp only [request]
    split
    · exact manned_of_same rfl rfl rfl
    · exact manned_drain rfl rfl b next
  | spawn body next => exact ⟨[w.nextThread], .inr ⟨rfl, rfl⟩, List.Sublist.refl _⟩
  | _ => exact manned_of_same rfl rfl rfl

theorem manned_resume (x : Ending) (f : Frame σ ε α) :
    Manned ⟨w, .returned x, f :: k⟩ (resume w x k f) := by
  cases f with
  | handing b e bs => cases bs <;> exact manned_of_same rfl rfl rfl
  | draining b owner =>
    simp only [resume]
    split <;> exact manned_of_same rfl rfl rfl
  | joined parent next => exact manned_joined parent next
  | _ => exact manned_of_same rfl rfl rfl

theorem manned_unwind (p : Panic) (f : Frame σ ε α) :
    Manned ⟨w, .unwinding p, f :: k⟩ (unwind w p k f) := by
  cases f with
  | draining b owner =>
    simp only [unwind, World.abandon]
    split <;> exact manned_of_same rfl rfl rfl
  | joined parent next => exact manned_joined parent next
  | _ => exact manned_of_same rfl rfl rfl

theorem manned_step (code : Behaviour σ ε α) (m : Machine σ ε α) : Manned m (m.step code) := by
  obtain ⟨w, c, k⟩ := m
  cases c with
  | run p => exact manned_request p
  | call c =>
    simp only [step, enter]
    split <;> exact manned_of_same rfl rfl rfl
  | settle c o =>
    obtain ⟨d, use⟩ := c
    cases use with
    | direct next => exact manned_of_same rfl rfl rfl
    | delivery b => cases o <;> exact manned_of_same rfl rfl rfl
  | report b d e =>
    simp only [step, report]
    split
    · exact manned_of_same rfl rfl rfl
    · exact manned_of_calm (World.Calm.keep w b d e) rfl
  | returned x =>
    cases k with
    | nil => exact manned_of_same rfl rfl rfl
    | cons f k => exact manned_resume x f
  | unwinding p =>
    cases k with
    | nil => exact manned_of_same rfl rfl rfl
    | cons f k => exact manned_unwind p f

end

theorem appends_of_not_mem {m : Machine σ ε α} {b : BusId} {t : ThreadId} (h : t ∉ m.threads) :
    m.appends b t = [] := by
  have ht : m.world.thread ≠ t := fun ht => h (ht ▸ List.mem_cons_self ..)
  unfold appends
  split
  · rw [if_neg fun h => ht h.2]
  · rw [if_neg fun h => ht h.2]
  · rfl

/-- A machine without the thread does nothing in its lanes. -/
theorem still (code : Behaviour σ ε α) {mode : BusId → DispatchMode} {m : Machine σ ε α}
    (hm : m.Seated mode) {b : BusId} (hb : mode b = .queued) {t : ThreadId} (h : t ∉ m.threads)
    (h' : t ∉ (m.step code).threads) :
    m.appends b t = [] ∧ m.takes b t = [] ∧ (m.step code).world.entry b t = m.world.entry b t := by
  have share_eq : ∀ m : Machine σ ε α, t ∉ m.threads → m.share b t = ⟨m.world.entry b t, 0, []⟩ := by
    intro m hm
    have ht : m.world.thread ≠ t := fun ht => hm (ht ▸ List.mem_cons_self ..)
    rw [share, drains_of_not_mem hm, working_of_not_mem hm, if_neg ht]
    rfl
  have happ : m.appends b t = [] := appends_of_not_mem h
  have hmove := move code hm hb t
  rw [share_eq m h, share_eq _ h', happ] at hmove
  generalize m.takes b t = ts at hmove ⊢
  generalize m.drops b t = xs at hmove
  generalize (m.step code).world.entry b t = e at hmove ⊢
  generalize m.world.entry b t = e₀ at hmove ⊢
  cases hmove with
  | stay _ => exact ⟨happ, rfl, rfl⟩
  | append _ _ _ hne => exact absurd rfl hne

end Machine

/-! ## Crews -/

namespace Strand

def threads (s : Strand σ ε α) : List ThreadId := threadsOf s.thread s.stack

end Strand

namespace Crew

/-- No two strands share a thread, and none runs on a thread to come. -/
structure Apart (c : Crew σ ε α) : Prop where
  distinct : (c.strands.flatMap (·.threads)).Nodup
  known : ∀ t ∈ c.strands.flatMap (·.threads), t < c.world.nextThread

variable {c : Crew σ ε α}

theorem Fresh.apart (h : c.Fresh) : c.Apart := by
  have hthreads : ∀ ss : List (Strand σ ε α), (∀ s ∈ ss, s.stack = []) →
      ss.flatMap (·.threads) = ss.map (·.thread) := by
    intro ss hss
    induction ss with
    | nil => rfl
    | cons s ss ih =>
      rw [List.flatMap_cons, List.map_cons, ih fun s' hs' => hss s' (List.mem_cons_of_mem s hs'),
        Strand.threads, hss s (List.mem_cons_self ..)]
      rfl
  have hall := hthreads c.strands fun s hs => (h.programs s hs).2
  refine ⟨hall ▸ h.distinct, fun t ht => ?_⟩
  rw [hall] at ht
  obtain ⟨s, hs, rfl⟩ := List.mem_map.mp ht
  exact h.known s hs

theorem Apart.step (h : c.Apart) (code : Behaviour σ ε α) (pick : Pick σ ε α) :
    (c.step code pick).Apart := by
  obtain ⟨hd, hk⟩ := h
  cases pick with
  | start p =>
    simp only [Crew.step]
    refine ⟨?_, fun t ht => ?_⟩
    · rw [List.flatMap_append, List.flatMap_singleton]
      refine List.nodup_append.mpr ⟨hd, by simp [Strand.threads, threadsOf], fun t ht u hu => ?_⟩
      rw [List.mem_singleton.mp hu]
      exact Nat.ne_of_lt (hk t ht)
    · rw [List.flatMap_append, List.flatMap_singleton, List.mem_append] at ht
      rcases ht with ht | ht
      · exact Nat.lt_succ_of_lt (hk t ht)
      · rw [List.mem_singleton.mp ht]
        exact Nat.lt_succ_self _
  | work i =>
    simp only [Crew.step]
    cases hs : c.strands[i]? with
    | none => exact ⟨hd, hk⟩
    | some s =>
      let m := (c.machine s).step code
      obtain ⟨fresh, hfresh, hsub⟩ := Machine.manned_step code (c.machine s)
      obtain ⟨front, back, hfront, hset⟩ := exists_set hs ⟨m.world.thread, m.control, m.stack⟩
      rw [hfront, List.flatMap_append, List.flatMap_cons] at hd hk
      have hold :
          (fresh ++ (front.flatMap (·.threads) ++ (s.threads ++ back.flatMap (·.threads)))).Nodup ∧
          ∀ t ∈ fresh ++ (front.flatMap (·.threads) ++ (s.threads ++ back.flatMap (·.threads))),
            t < m.world.nextThread := by
        rcases hfresh with ⟨rfl, hn⟩ | ⟨rfl, hn⟩
        · exact ⟨hd, fun t ht => hn.symm ▸ hk t ht⟩
        · refine ⟨List.nodup_cons.mpr ⟨fun ht => Nat.lt_irrefl _ (hk _ ht), hd⟩, fun t ht => ?_⟩
          rw [hn]
          rcases List.mem_cons.mp ht with rfl | ht
          · exact Nat.lt_succ_self _
          · exact Nat.lt_succ_of_lt (hk t ht)
      have hperm := List.perm_append_comm_assoc (front.flatMap (·.threads)) fresh
        (s.threads ++ back.flatMap (·.threads))
      have hnew : List.Sublist
          ((c.strands.set i ⟨m.world.thread, m.control, m.stack⟩).flatMap (·.threads))
          (front.flatMap (·.threads) ++ (fresh ++ (s.threads ++ back.flatMap (·.threads)))) := by
        rw [hset, List.flatMap_append, List.flatMap_cons, ← List.append_assoc fresh]
        exact (hsub.append (List.Sublist.refl _)).append_left _
      exact ⟨(hperm.nodup_iff.mpr hold.1).sublist hnew,
        fun t ht => hold.2 t (hperm.mem_iff.mp (hnew.subset ht))⟩

theorem Apart.after (h : c.Apart) (code : Behaviour σ ε α) (picks : Nat → Pick σ ε α) :
    ∀ n, (c.after code picks n).Apart
  | 0 => h
  | n + 1 => (h.after code picks n).step code (picks n)

theorem Apart.not_mem (h : c.Apart) {i j : Nat} {s s' : Strand σ ε α} (hs : c.strands[i]? = some s)
    (hs' : c.strands[j]? = some s') (hij : i ≠ j) {t : ThreadId} (ht : t ∈ s.threads) :
    t ∉ s'.threads := by
  obtain ⟨hi, rfl⟩ := List.getElem?_eq_some_iff.mp hs
  obtain ⟨hj, rfl⟩ := List.getElem?_eq_some_iff.mp hs'
  have hpair := List.pairwise_iff_getElem.mp (List.nodup_flatMap.mp h.distinct).2
  intro ht'
  rcases Nat.lt_or_gt_of_ne hij with hlt | hgt
  · exact hpair i j hi hj hlt ht ht'
  · exact hpair j i hj hi hgt ht' ht

/-- A step of another strand leaves a strand and the lanes of its threads. -/
theorem others_still (code : Behaviour σ ε α) {mode : BusId → DispatchMode} (h : c.Seated mode)
    (ha : c.Apart) {b : BusId} (hb : mode b = .queued) {i : Nat} {s : Strand σ ε α}
    (hs : c.strands[i]? = some s) {t : ThreadId} (ht : t ∈ s.threads) {pick : Pick σ ε α}
    (hp : pick ≠ .work i) :
    (c.step code pick).strands[i]? = some s ∧
      (c.step code pick).world.entry b t = c.world.entry b t ∧
      c.seen pick (·.appends b t) = [] ∧ c.seen pick (·.takes b t) = [] := by
  have hi : i < c.strands.length := (List.getElem?_eq_some_iff.mp hs).1
  have hafter := ha.step code pick
  cases pick with
  | start p =>
    refine ⟨?_, rfl, rfl, rfl⟩
    simp only [Crew.step]
    rw [List.getElem?_append_left hi, hs]
  | work j =>
    have hji : j ≠ i := fun h => hp (h ▸ rfl)
    simp only [Crew.step, seen, picked?] at hafter ⊢
    cases hs' : c.strands[j]? with
    | none => exact ⟨hs, rfl, rfl, rfl⟩
    | some s' =>
      simp only [hs'] at hafter
      have hset : ∀ s'' : Strand σ ε α, (c.strands.set j s'')[i]? = some s := fun s'' => by
        rw [List.getElem?_set_ne hji, hs]
      have hj : j < c.strands.length := (List.getElem?_eq_some_iff.mp hs').1
      have hnew := hafter.not_mem (hset _) (List.getElem?_set_self hj) hji.symm ht
      obtain ⟨happ, htake, hentry⟩ := Machine.still code (h.strands s' (List.mem_of_getElem? hs')) hb
        (ha.not_mem hs hs' hji.symm ht) hnew
      exact ⟨hset _, hentry, happ, htake⟩

end Crew
end EventBus
