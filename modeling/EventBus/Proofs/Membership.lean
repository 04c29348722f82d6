import EventBus.Proofs.Departures

/-!
# Who counts as registered

A subscriber counts as registered if it has bindings and the registry has them all. That foretells
what a withdrawal says: it takes out a map of which the registry has all, and refuses any other. What
subscribers with other targets ask for leaves the answer as it is.
-/

namespace EventBus

variable {α : Type}

theorem HandlerMap.isEmpty_iff {m : HandlerMap} : m.isEmpty = true ↔ m.toList = [] := by
  have hgroups := m.grouping.inhabited
  unfold isEmpty Table.isEmpty toList Table.values
  cases hm : m.groups.entries with
  | nil => simp
  | cons g gs =>
    have hg : g.2 ≠ [] := hgroups g (hm ▸ List.mem_cons_self ..)
    simp [hg]

/-! ## Registries that have all of a map -/

namespace Registry

/-- Every binding of the map is registered. -/
def Includes (r : Registry) (m : HandlerMap) : Prop := ∀ x ∈ m.toList, x.isIn (r.get x.type) = true

variable {r r' : Registry} {m m' : HandlerMap}

theorem exists_removeAll_iff : (∃ r', r.removeAll m = .ok r') ↔ r.Includes m := by
  constructor
  · rintro ⟨r', h⟩
    exact (removeAll_eq_ok_iff.mp h).1
  · intro h
    exact ⟨_, removeAll_eq_ok_iff.mpr ⟨h, rfl⟩⟩

theorem includes_putAll (r : Registry) (m : HandlerMap) : (r.putAll m).Includes m := by
  intro x hx
  have hin : x.isIn (m.get x.type) = true :=
    Binding.isIn_of_mem (HandlerMap.mem_get_iff.mpr ⟨hx, rfl⟩)
  rw [get_putAll, Binding.isIn_append, Binding.isIn_filter_not, hin]
  simp

theorem Includes.putAll (h : r.Includes m) (m' : HandlerMap) : (r.putAll m').Includes m := by
  intro x hx
  rw [get_putAll, Binding.isIn_append, h x hx, Bool.true_or]

/-- Of what a removal takes out nothing is left. -/
theorem isIn_of_removeAll (h : r.removeAll m = .ok r') {x : Binding} (hx : x ∈ m.toList) :
    x.isIn (r'.get x.type) = false := by
  have hin : x.isIn (m.get x.type) = true :=
    Binding.isIn_of_mem (HandlerMap.mem_get_iff.mpr ⟨hx, rfl⟩)
  rw [get_removeAll h, Binding.isIn_filter_not, hin]
  rfl

theorem Includes.removeAll (h : r.Includes m) (hm : m.Apart m') (hr : r.removeAll m' = .ok r') :
    r'.Includes m := by
  intro x hx
  have hother : x.isIn (m'.get x.type) = false := hm.symm.contains hx
  rw [get_removeAll hr, Binding.isIn_filter_not, hother, h x hx]
  rfl

/-- A map without bindings is put and taken out without effect. -/
theorem of_empty_map (hm : m.toList = []) : r.putAll m = r ∧ r.removeAll m = .ok r := by
  have hentries : m.groups.entries = [] := List.isEmpty_iff.mp (HandlerMap.isEmpty_iff.mpr hm)
  unfold Registry.putAll Registry.removeAll missing?
  rw [hentries]
  exact ⟨rfl, rfl⟩

end Registry

/-! ## Buses -/

namespace Bus

variable {b b' : Bus α} {s : Subscriber} {m : HandlerMap} {n : Notice}

theorem isRegistered_of_error {e : BusError} (h : b.discovery s = .error e) :
    b.isRegistered s = false := by
  simp only [isRegistered, h]

theorem isRegistered_iff (hm : b.discovery s = .ok m) :
    b.isRegistered s = true ↔ m.toList ≠ [] ∧ b.registry.Includes m := by
  simp only [isRegistered, hm, Bool.and_eq_true, Bool.not_eq_true', Registry.containsAll_iff]
  rw [← Bool.not_eq_true, HandlerMap.isEmpty_iff]
  rfl

theorem exists_unregister_iff (hm : b.discovery s = .ok m) :
    (∃ b' n, b.unregister s = .ok (b', n)) ↔ b.registry.Includes m := by
  rw [← Registry.exists_removeAll_iff]
  constructor
  · rintro ⟨b', n, h⟩
    obtain ⟨m', r, hm', hr, -⟩ := unregister_eq_ok_iff.mp h
    cases hm.symm.trans hm'
    exact ⟨r, hr⟩
  · rintro ⟨r, hr⟩
    exact ⟨_, _, unregister_eq_ok_iff.mpr ⟨m, r, hm, hr, rfl, rfl⟩⟩

theorem isRegistered_register (hm : b.discovery s = .ok m) (hne : m.toList ≠ [])
    (h : b.register s = .ok (b', n)) : b'.isRegistered s = true := by
  obtain ⟨m', hm', rfl, -⟩ := register_eq_ok_iff.mp h
  cases hm.symm.trans hm'
  have hin := b.registry.includes_putAll m
  exact (isRegistered_iff (b := { b with registry := b.registry.putAll m }) hm).mpr ⟨hne, hin⟩

theorem isRegistered_unregister (hm : b.discovery s = .ok m)
    (h : b.unregister s = .ok (b', n)) : b'.isRegistered s = false := by
  obtain ⟨m', r, hm', hr, rfl, -⟩ := unregister_eq_ok_iff.mp h
  cases hm.symm.trans hm'
  rw [Bool.eq_false_iff]
  intro hb
  obtain ⟨hne, hin⟩ := (isRegistered_iff (b := { b with registry := r }) hm).mp hb
  obtain ⟨x, xs, hx⟩ := List.exists_cons_of_ne_nil hne
  have hxm : x ∈ m.toList := hx ▸ List.mem_cons_self ..
  have hgone : x.isIn (r.get x.type) = false := Registry.isIn_of_removeAll hr hxm
  rw [hin x hxm] at hgone
  cases hgone

/-- A request that is about other targets leaves the bindings of a map where they are. -/
theorem includes_serve {request : Request} (h : b.registry.Includes m)
    (hr : request.Apart b.discovery m) : (b.serve request).registry.Includes m := by
  obtain hb | ⟨s, m', rfl, hm', hb⟩ | ⟨s, m', r, rfl, hm', hremoved, hb⟩ | ⟨g, t, -, hb⟩ |
      ⟨d, -, hb⟩ := b.serve_cases request <;> rw [hb]
  · exact h
  · exact h.putAll m'
  · exact h.removeAll (hr m' hm') hremoved
  · exact h
  · exact h

/-- The induction is on the requests; the subscriber's bindings are all there before each of them,
and those of `m` again after the last, whatever strategies were adopted between. -/
theorem includes_serveAll {others : List Request} (h : b.registry.Includes m)
    (hothers : Script.Fair s m b.discovery (others.map some)) :
    (b.serveAll others).registry.Includes m ∧ (b.serveAll others).discovery s = .ok m := by
  induction others generalizing b with
  | nil => exact ⟨h, hothers⟩
  | cons request others ih =>
    obtain ⟨hapart, hrest⟩ := hothers
    apply ih (includes_serve h hapart)
    rw [serve_discovery]
    exact hrest

/-- Whatever was asked of a bus before: without a discovery, and without bindings, a subscriber does
not count as registered; without bindings it registers and withdraws to no effect. One with bindings
counts as registered just if a withdrawal would succeed, and so it does after each registration and
no more after a withdrawal. While others register and withdraw, however often, it goes on to. -/
theorem isRegistered_foretells_unregister (builder : Builder) (requests : List Request)
    (s : Subscriber) :
    let b : Bus α := builder.build.serveAll requests
    (∀ e, b.discovery s = .error e → b.isRegistered s = false) ∧
      (∀ m, b.discovery s = .ok m → m.toList = [] →
        b.isRegistered s = false ∧ (∃ n, b.register s = .ok (b, n)) ∧
          ∃ n, b.unregister s = .ok (b, n)) ∧
      ∀ m, b.discovery s = .ok m → m.toList ≠ [] →
        (b.isRegistered s = true ↔ ∃ b' n, b.unregister s = .ok (b', n)) ∧
          (∃ b' n, b.register s = .ok (b', n)) ∧
          (∀ b' n, b.register s = .ok (b', n) → b'.isRegistered s = true) ∧
          (∀ b' n, b.unregister s = .ok (b', n) → b'.isRegistered s = false) ∧
          ∀ others, Script.Fair s m b.discovery (others.map some) →
            b.isRegistered s = true → (b.serveAll others).isRegistered s = true := by
  intro b
  refine ⟨fun e => isRegistered_of_error, ?nothing, ?bindings⟩
  case nothing =>
    intro m hm hnone
    obtain ⟨hput, hremove⟩ := Registry.of_empty_map (r := b.registry) hnone
    refine ⟨?_, ⟨_, register_eq_ok_iff.mpr ⟨m, hm, ?_, rfl⟩⟩,
      ⟨_, unregister_eq_ok_iff.mpr ⟨m, _, hm, hremove, rfl, rfl⟩⟩⟩
    · rw [Bool.eq_false_iff]
      intro hb
      exact ((isRegistered_iff hm).mp hb).1 hnone
    · rw [hput]
  case bindings =>
    intro m hm hne
    refine ⟨?_, ⟨_, _, register_eq_ok_iff.mpr ⟨m, hm, rfl, rfl⟩⟩,
      fun b' n => isRegistered_register hm hne, fun b' n => isRegistered_unregister hm, ?_⟩
    · rw [isRegistered_iff hm, exists_unregister_iff hm]
      exact and_iff_right hne
    · intro others hothers hb
      obtain ⟨hin, hdiscovery⟩ := includes_serveAll ((isRegistered_iff hm).mp hb).2 hothers
      exact (isRegistered_iff hdiscovery).mpr ⟨hne, hin⟩

end Bus
end EventBus
