import EventBus.Proofs.Contents
import EventBus.Proofs.Requests

/-!
# Withdrawn bindings

A binding that a subscriber withdraws is found by no later post until somebody registers it again,
whatever else is asked of the bus meanwhile.
-/

namespace EventBus

variable {σ ε α : Type}

theorem HandlerMap.contains_of_mem {m : HandlerMap} {t : EventType} {b g : Binding}
    (hb : b ∈ m.get t) (h : b.same g = true) : m.contains g = true := by
  rw [← m.contains_congr h, ← m.isIn_toList]
  exact Binding.isIn_of_mem (HandlerMap.mem_get_iff.mp hb).1

namespace Registry

/-- No binding of the registry is the same as `g`. -/
def Lacks (r : Registry) (g : Binding) : Prop := ∀ t, ∀ b ∈ r.get t, b.same g = false

section

variable {r r' : Registry} {g : Binding} {m : HandlerMap}

theorem Lacks.putAll (h : r.Lacks g) (hm : m.contains g = false) : (r.putAll m).Lacks g := by
  intro t b hb
  rw [get_putAll] at hb
  rcases List.mem_append.mp hb with hb | hb
  · exact h t b hb
  · rw [Bool.eq_false_iff]
    intro hbg
    rw [m.contains_of_mem (List.mem_filter.mp hb).1 hbg] at hm
    cases hm

theorem Lacks.removeAll (h : r.Lacks g) (hr : r.removeAll m = .ok r') : r'.Lacks g := by
  intro t b hb
  rw [get_removeAll hr] at hb
  exact h t b (List.mem_filter.mp hb).1

theorem lacks_of_removeAll (h : r.Orderly) (hr : r.removeAll m = .ok r') (hg : m.contains g = true) :
    r'.Lacks g := by
  intro t b hb
  rw [get_removeAll hr] at hb
  obtain ⟨hb, hout⟩ := List.mem_filter.mp hb
  rw [Bool.eq_false_iff]
  intro hbg
  have hin : b.isIn (m.get t) = true := by
    rw [← h.keyed t b hb]
    exact (m.contains_congr hbg).trans hg
  rw [hin] at hout
  cases hout

end

end Registry

namespace Bus

/-- The request registers a subscriber with the binding `g`, as `d` finds its bindings. -/
def Request.Brings (d : Discovery) (g : Binding) : Request → Prop
  | .register s => ∃ m, d s = .ok m ∧ m.contains g = true
  | _ => False

section

variable {b : Bus α} {g : Binding}

theorem lacks_serve (h : b.registry.Lacks g) {request : Request}
    (hr : ¬request.Brings b.discovery g) : (b.serve request).registry.Lacks g := by
  obtain hb | ⟨s, m, rfl, hm, hb⟩ | ⟨s, m, r, -, -, hremoved, hb⟩ | ⟨graph, t, -, hb⟩ | ⟨d, -, hb⟩ :=
    b.serve_cases request <;> rw [hb]
  · exact h
  · exact h.putAll (Bool.eq_false_iff.mpr fun hg => hr ⟨m, hm, hg⟩)
  · exact h.removeAll hremoved
  · exact h
  · exact h

theorem discovery_serve (b : Bus α) {request : Request} (h : ∀ d, request ≠ .adopt d) :
    (b.serve request).discovery = b.discovery := by
  obtain hb | ⟨_, _, -, -, hb⟩ | ⟨_, _, _, -, -, -, hb⟩ | ⟨_, _, -, hb⟩ | ⟨d, rfl, -⟩ :=
    b.serve_cases request
  case inr.inr.inr.inr => exact absurd rfl (h d)
  all_goals simp only [hb, remember]

theorem lacks_serveAll {requests : List Request} (hd : ∀ d, .adopt d ∉ requests)
    (hr : ∀ r ∈ requests, ¬r.Brings b.discovery g) (h : b.registry.Lacks g) :
    (b.serveAll requests).registry.Lacks g := by
  induction requests generalizing b with
  | nil => exact h
  | cons r rs ih =>
    have hdisc := discovery_serve b fun d (hrd : r = .adopt d) =>
      hd d (hrd ▸ List.mem_cons_self ..)
    refine ih (fun d hmem => hd d (List.mem_cons_of_mem r hmem)) (fun r' hr' => ?_)
      (lacks_serve h (hr r (List.mem_cons_self ..)))
    rw [hdisc]
    exact hr r' (List.mem_cons_of_mem r hr')

theorem Served.lacks {requests : List Request} {b' : Bus α} (hs : Served requests b b')
    (hd : ∀ d, .adopt d ∉ requests) (hr : ∀ r ∈ requests, ¬r.Brings b.discovery g)
    (h : b.registry.Lacks g) : b'.registry.Lacks g := by
  obtain ⟨served, hsub, halike⟩ := hs
  rw [halike.registry]
  exact lacks_serveAll (fun d hmem => hd d (hsub.subset hmem)) (fun r hmem => hr r (hsub.subset hmem)) h

end

end Bus

/-! ## Worlds -/

namespace World

variable {w : World σ ε α} {b : BusId} {g : Binding}

theorem resolve_lacks (h : (w.bus b).registry.Lacks g) (e : Event α) :
    ∀ found ∈ w.resolve b e, found.same g = false := by
  intro found hfound
  obtain ⟨t, -, ht⟩ := List.mem_flatMap.mp hfound
  exact h t found ht

/-- What has been withdrawn is not there. -/
theorem lacks_unregister {w' : World σ ε α} {s : Subscriber} (hb : (w.bus b).Orderly)
    (h : w.unregister b s = .ok w') {m : HandlerMap} (hm : (w.bus b).discovery s = .ok m)
    (hg : m.contains g = true) : (w'.bus b).registry.Lacks g := by
  obtain ⟨⟨bus, n⟩, hbus, rfl⟩ := unregister_eq_ok_iff.mp h
  obtain ⟨m', r, hm', hr, rfl, -⟩ := Bus.unregister_eq_ok_iff.mp hbus
  cases hm.symm.trans hm'
  show ((w.modifyBus b _).bus b).registry.Lacks g
  rw [bus_modifyBus]
  split
  · exact Registry.lacks_of_removeAll hb.registry hr hg
  · rename_i hlen
    -- There is no such bus, and what stands for it has no handlers.
    have hdefault : w.bus b = default := by
      rw [bus, List.getElem?_eq_none (Nat.le_of_not_lt fun hlt => hlen ⟨rfl, hlt⟩)]
      rfl
    rw [hdefault]
    intro t found hfound
    cases hfound

end World

/-! ## Runs -/

theorem Machine.adopt_not_mem (m : Machine σ ε α) (b : BusId) (d : Discovery) :
    .adopt d ∉ m.requests b := by
  unfold requests
  split <;> (try split) <;> simp

namespace Crew

variable {c : Crew σ ε α} {code : Behaviour σ ε α} {b : BusId} {g : Binding}

theorem lacks_step {pick : Pick σ ε α}
    (hr : ∀ r ∈ c.seen pick (·.requests b), ¬r.Brings (c.world.bus b).discovery g)
    (h : (c.world.bus b).registry.Lacks g) :
    ((c.step code pick).world.bus b).registry.Lacks g := by
  refine ((serves_step code c pick).buses b).lacks (fun d hd => ?_) hr h
  unfold seen at hd
  split at hd
  · exact Machine.adopt_not_mem _ b d hd
  · cases hd

/-- A binding that is not there does not come until somebody registers with it. -/
theorem lacks_after {picks : Nat → Pick σ ε α} {j n : Nat} (hjn : j ≤ n)
    (hr : ∀ m, j ≤ m → m < n → ∀ r ∈ (c.after code picks m).seen (picks m) (·.requests b),
      ¬r.Brings ((c.after code picks m).world.bus b).discovery g)
    (h : ((c.after code picks j).world.bus b).registry.Lacks g) :
    ((c.after code picks n).world.bus b).registry.Lacks g := by
  induction n, hjn using Nat.le_induction with
  | base => exact h
  | succ n hjn ih =>
    exact lacks_step (hr n hjn (Nat.lt_succ_self n))
      (ih fun m hjm hmn => hr m hjm (Nat.lt_succ_of_lt hmn))

theorem lacks_withdrawn (hb : (c.world.bus b).Orderly) {i : Nat} {t : ThreadId} {s : SubscriberId}
    {next : Except BusError Unit → Program σ ε α} {k : List (Frame σ ε α)}
    (hs : c.strands[i]? = some ⟨t, .run (.unregister b s next), k⟩) {sub : Subscriber}
    (hsub : c.world.subscriber? s = some sub) {w : World σ ε α}
    (hw : c.world.unregister b sub = .ok w) {m : HandlerMap}
    (hm : (c.world.bus b).discovery sub = .ok m) (hg : m.contains g = true) :
    ((c.step code (.work i)).world.bus b).registry.Lacks g := by
  have hthread : ({ c.world with thread := t } : World σ ε α).unregister b sub =
      .ok { w with thread := t } := by
    obtain ⟨r, hbus, rfl⟩ := World.unregister_eq_ok_iff.mp hw
    exact World.unregister_eq_ok_iff.mpr ⟨r, hbus, rfl⟩
  have hsub' : ({ c.world with thread := t } : World σ ε α).subscriber? s = some sub := hsub
  simp only [Crew.step, hs, machine, Machine.step, Machine.request, hsub', hthread]
  show (w.bus b).registry.Lacks g
  exact World.lacks_unregister hb hw hm hg

end Crew
end EventBus
