import EventBus.Proofs.Crews
import EventBus.Proofs.DispatchOrder

/-!
# Queues in order

Each thread's queue on a queued bus is served first in, first out, one delivery at a time, whatever
its handlers and sinks do and whoever else works meanwhile.
-/

namespace EventBus

/-- Since its queue on `b` was made, what `t` appended to it is what was taken from it and then what
is pending; a queue that goes away leaves nothing but what its drain drops. A delivery is taken when
all that were appended before it are, and none is at work. -/
theorem Crew.queue_in_order {σ ε α : Type} {c : Crew σ ε α} (h : c.Fresh) (code : Behaviour σ ε α)
    (picks : Nat → Pick σ ε α) {b : BusId} (hb : c.world.mode b = .queued) (t : ThreadId) (n : Nat) :
    let entry := fun n => (c.after code picks n).world.entry b t
    let working := fun n => (c.after code picks n).working b t
    let appended := fun n => (c.after code picks n).seen (picks n) (·.appends b t)
    let taken := fun n => (c.after code picks n).seen (picks n) (·.takes b t)
    let dropped := fun n => (c.after code picks n).seen (picks n) (·.drops b t)
    (∀ q, entry n = some q → ∃ i, i < n ∧ entry i = none ∧
        (∀ j, i < j → j ≤ n → entry j ≠ none) ∧
        during appended i n = during taken i n ++ q.pending ∧
        (entry (n + 1) = none →
          during appended i (n + 1) = during taken i (n + 1) ++ dropped n) ∧
        ∀ j k us d vs e, i ≤ j → j < n → i ≤ k → k < n → appended j = us ++ d :: vs →
          taken k = [e] → (during taken i k).length = (during appended i j ++ us).length →
            e = d ∧ j < k ∧ working k = [] ∧ during taken i k = during appended i j ++ us) ∧
      (working n).length ≤ 1 ∧
      ((taken n = [] ∧ (working (n + 1) = working n ∨ working (n + 1) = [])) ∨
        ∃ d, taken n = [d] ∧ working n = [] ∧ working (n + 1) = [d]) := by
  intro entry working appended taken dropped
  let lane := fun n => (c.after code picks n).lane b t
  have hshare : ∀ n, (lane n).share = (c.after code picks n).share b t := share_lane h code picks t hb
  have hturn : ∀ n, Lane.Turn (appended n) (taken n) (dropped n) (lane n) (lane (n + 1)) :=
    turn_lane h code picks t hb
  have hentry : ∀ n, (lane n).share.entry = entry n := fun n => congrArg Share.entry (hshare n)
  have hworking : ∀ n, (lane n).share.working = working n :=
    fun n => congrArg Share.working (hshare n)
  have hempty : ∀ n, lane n = .empty ↔ entry n = none := lane_eq_empty_iff h code picks t hb
  refine ⟨fun q hq => ?_, ?_, ?_⟩
  · have hn : lane n ≠ .empty := fun hn => by
      rw [(hempty n).mp hn] at hq
      cases hq
    obtain ⟨i, hi⟩ := Lane.exists_since (lane_zero h code picks b t) hn
    refine ⟨i, hi.lt, (hempty i).mp hi.empty, fun j hij hjn => ?_, ?_, fun hclosed => ?_, ?_⟩
    · exact fun hj => hi.filled j hij hjn ((hempty j).mpr hj)
    · rw [← Lane.pending_eq ((hentry n).trans hq)]
      exact Lane.fifo hturn hi (Nat.le_of_lt hi.lt) (Nat.le_refl n)
    · exact Lane.closed hturn hi ((hempty (n + 1)).mpr hclosed)
    · intro j k us d vs e hij hjn hik hkn hj hk hlen
      rw [← hworking k]
      exact Lane.taken_in_turn hturn hi hij hjn hik hkn hj hk hlen
  · rw [← hworking n]
    exact (lane n).working_length_le
  · rw [← hworking n, ← hworking (n + 1)]
    exact (hturn n).working_cases

namespace Ripple

def crew : Crew Unit Unit Unit :=
  ⟨world.dispatchedBy 0 .queued, [⟨0, .run (.post 0 (event ping) (.finish .done)), []⟩]⟩

theorem queue_in_order_midway :
    crew.Fresh ∧ crew.world.mode 0 = .queued ∧
      (crew.after code (fun _ => .work 0) 6).world.entry 0 0 =
        some ⟨[second, answer, letter], true⟩ ∧
      ∃ i, i < 6 ∧ during (fun n => (crew.after code (fun _ => .work 0) n).seen (.work 0)
          (·.appends 0 0)) i 6 =
        during (fun n => (crew.after code (fun _ => .work 0) n).seen (.work 0) (·.takes 0 0)) i 6 ++
          [second, answer, letter] := by
  have hf : crew.Fresh := by
    refine ⟨fun b t => ?_, fun s hs => ?_, by decide, fun s hs => ?_⟩
    · cases b <;> rfl
    · rw [List.mem_singleton.mp hs]
      exact ⟨⟨_, rfl⟩, rfl⟩
    · rw [List.mem_singleton.mp hs]
      decide
  have hm : crew.world.mode 0 = .queued := rfl
  have hq : (crew.after code (fun _ => .work 0) 6).world.entry 0 0 =
      some ⟨[second, answer, letter], true⟩ := rfl
  obtain ⟨i, hi, -, -, h, -⟩ := (Crew.queue_in_order hf code (fun _ => .work 0) hm 0 6).1 _ hq
  exact ⟨hf, hm, hq, i, hi, h⟩

end Ripple
end EventBus
