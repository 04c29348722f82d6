import EventBus.Proofs.Registries
import Mathlib.Data.List.Basic
import Mathlib.Data.List.Find

/-!
# What puts and removals do to a registry

A put appends to the group of each type the bindings of its map that are not there. A removal that
finds all of its map takes just that out. Both keep one non-empty group for each type.
-/

namespace EventBus

namespace Binding

theorem isIn_append (b : Binding) (bs cs : List Binding) :
    b.isIn (bs ++ cs) = (b.isIn bs || b.isIn cs) := by
  simp [isIn]

theorem isIn_singleton (b c : Binding) : b.isIn [c] = c.same b := by simp [isIn]

theorem isIn_of_mem {b : Binding} {bs : List Binding} (h : b ∈ bs) : b.isIn bs = true :=
  isIn_iff.mpr ⟨b, h, same_refl b⟩

theorem isIn_congr {b c : Binding} (h : b.same c = true) (bs : List Binding) :
    b.isIn bs = c.isIn bs := by
  rw [Bool.eq_iff_iff, isIn_iff, isIn_iff]
  constructor
  · rintro ⟨d, hd, hdb⟩
    exact ⟨d, hd, same_trans hdb h⟩
  · rintro ⟨d, hd, hdc⟩
    exact ⟨d, hd, same_trans hdc (same_comm b c ▸ h)⟩

/-- Only the members of the type of `b` can be `b`. -/
theorem isIn_filter_type (b : Binding) (bs : List Binding) :
    b.isIn (bs.filter (·.type = b.type)) = b.isIn bs := by
  rw [Bool.eq_iff_iff, isIn_iff, isIn_iff]
  constructor
  · rintro ⟨c, hc, hcb⟩
    exact ⟨c, (List.mem_filter.mp hc).1, hcb⟩
  · rintro ⟨c, hc, hcb⟩
    exact ⟨c, List.mem_filter.mpr ⟨hc, decide_eq_true (same_iff.mp hcb).2.2⟩, hcb⟩

theorem isIn_filter {p : Binding → Bool} (hp : ∀ b c, b.same c = true → p b = p c) (b : Binding)
    (bs : List Binding) : b.isIn (bs.filter p) = (p b && b.isIn bs) := by
  rw [Bool.eq_iff_iff, Bool.and_eq_true, isIn_iff, isIn_iff]
  constructor
  · rintro ⟨c, hc, hcb⟩
    obtain ⟨hc, hpc⟩ := List.mem_filter.mp hc
    exact ⟨hp c b hcb ▸ hpc, c, hc, hcb⟩
  · rintro ⟨hpb, c, hc, hcb⟩
    exact ⟨c, List.mem_filter.mpr ⟨hc, hp c b hcb ▸ hpb⟩, hcb⟩

theorem isIn_filter_not (b : Binding) (bs cs : List Binding) :
    b.isIn (bs.filter fun c => !c.isIn cs) = (!b.isIn cs && b.isIn bs) := by
  apply isIn_filter
  intro c d hcd
  rw [isIn_congr hcd]

end Binding

/-! ## Groups as one list -/

namespace Table

variable {κ β : Type} [DecidableEq κ]

theorem get?_eq_none_of_not_mem {t : Table κ β} {k : κ} (h : k ∉ t.keys) : t.get? k = none := by
  cases hg : t.get? k with
  | none => rfl
  | some v => exact absurd (List.mem_map_of_mem (f := (·.1)) (mem_of_get? hg)) h

theorem mem_keys_iff {t : Table κ β} {k : κ} : k ∈ t.keys ↔ ∃ v, t.get? k = some v := by
  constructor
  · intro h
    obtain ⟨⟨i, v⟩, hm, rfl⟩ := List.mem_map.mp h
    cases hg : t.get? i with
    | some w => exact ⟨w, rfl⟩
    | none =>
      rw [get?, List.lookup_eq_none_iff] at hg
      exact absurd (hg (i, v) hm) (by simp)
  · rintro ⟨v, hg⟩
    exact List.mem_map_of_mem (f := (·.1)) (mem_of_get? hg)

theorem keys_erase (t : Table κ β) (k : κ) : (t.erase k).keys = t.keys.filter (· ≠ k) := by
  rw [erase, keys, keys, List.filter_map]
  rfl

end Table

namespace Grouping

variable {groups : Table EventType (List Binding)}

/-- In the list of all bindings, those of one type are its group. -/
theorem filter_values (h : Grouping groups) (t : EventType) :
    groups.values.flatten.filter (·.type = t) = (groups.get? t).getD [] := by
  obtain ⟨hd, -, hk, -⟩ := h
  obtain ⟨es⟩ := groups
  simp only [Table.keys, Table.values, Table.get?] at *
  induction es with
  | nil => rfl
  | cons g es ih =>
    obtain ⟨u, bs⟩ := g
    rw [List.map_cons, List.nodup_cons] at hd
    have hus : ∀ b ∈ bs, b.type = u := hk (u, bs) (List.mem_cons_self ..)
    have htail := ih hd.2 fun g hg => hk g (List.mem_cons_of_mem _ hg)
    rw [List.map_cons, List.flatten_cons, List.filter_append, htail, List.lookup_cons]
    by_cases ht : t = u
    · subst ht
      have hnone : es.lookup t = none := Table.get?_eq_none_of_not_mem (t := ⟨es⟩) hd.1
      have hall : bs.filter (·.type = t) = bs :=
        List.filter_eq_self.mpr fun b hb => decide_eq_true (hus b hb)
      simp [hall, hnone]
    · have hempty : bs.filter (·.type = t) = [] :=
        List.filter_eq_nil_iff.mpr fun b hb hbt => ht ((of_decide_eq_true hbt).symm.trans (hus b hb))
      have htu : (t == u) = false := by simpa using ht
      simp [hempty, htu]

theorem mem_keys_iff (h : Grouping groups) {t : EventType} :
    t ∈ groups.keys ↔ (groups.get? t).getD [] ≠ [] := by
  rw [Table.mem_keys_iff]
  constructor
  · rintro ⟨bs, hg⟩
    rw [hg]
    exact h.inhabited _ (Table.mem_of_get? hg)
  · intro hne
    cases hg : groups.get? t with
    | none => rw [hg] at hne; exact absurd rfl hne
    | some bs => exact ⟨bs, rfl⟩

/-- A group may be replaced by another one of its type. -/
theorem replace (h : Grouping groups) {t : EventType} {bs : List Binding} (hne : bs ≠ [])
    (hk : ∀ b ∈ bs, b.type = t) (hs : bs.Pairwise fun b c => b.same c = false) :
    Grouping (groups.set t bs) where
  distinct := Table.nodup_keys_set h.distinct t bs
  inhabited g hg := by
    rcases Table.mem_set hg with rfl | hg
    · exact hne
    · exact h.inhabited g hg
  keyed g hg b hb := by
    rcases Table.mem_set hg with rfl | hg
    · exact hk b hb
    · exact h.keyed g hg b hb
  single g hg := by
    rcases Table.mem_set hg with rfl | hg
    · exact hs
    · exact h.single g hg

theorem erase (h : Grouping groups) (t : EventType) : Grouping (groups.erase t) where
  distinct := by
    rw [Table.keys_erase]
    exact h.distinct.filter _
  inhabited g hg := h.inhabited g (List.mem_filter.mp hg).1
  keyed g hg := h.keyed g (List.mem_filter.mp hg).1
  single g hg := h.single g (List.mem_filter.mp hg).1

end Grouping

namespace HandlerMap

theorem filter_toList (m : HandlerMap) (t : EventType) : m.toList.filter (·.type = t) = m.get t :=
  m.grouping.filter_values t

theorem isIn_toList (m : HandlerMap) (b : Binding) : b.isIn m.toList = m.contains b := by
  rw [contains, ← filter_toList, Binding.isIn_filter_type]

theorem mem_get_iff {m : HandlerMap} {t : EventType} {b : Binding} :
    b ∈ m.get t ↔ b ∈ m.toList ∧ b.type = t := by
  rw [← filter_toList, List.mem_filter, decide_eq_true_eq]

theorem mem_toList_iff {m : HandlerMap} {b : Binding} :
    b ∈ m.toList ↔ ∃ g ∈ m.groups.entries, b ∈ g.2 := by
  rw [toList, Table.values, List.mem_flatten]
  constructor
  · rintro ⟨bs, hbs, hb⟩
    obtain ⟨g, hg, rfl⟩ := List.mem_map.mp hbs
    exact ⟨g, hg, hb⟩
  · rintro ⟨g, hg, hb⟩
    exact ⟨g.2, List.mem_map_of_mem hg, hb⟩

theorem single_get (m : HandlerMap) (t : EventType) :
    (m.get t).Pairwise fun b c => b.same c = false :=
  (m.grouping.of_get? t).2

theorem contains_congr (m : HandlerMap) {b c : Binding} (h : b.same c = true) :
    m.contains b = m.contains c := by
  rw [← isIn_toList, ← isIn_toList, Binding.isIn_congr h]

theorem single_toList (m : HandlerMap) : m.toList.Pairwise fun b c => b.same c = false := by
  rw [toList, List.pairwise_flatten]
  have hn := m.grouping.distinct
  rw [Table.keys, List.nodup_iff_pairwise_ne, List.pairwise_map] at hn
  constructor
  · intro bs hbs
    obtain ⟨g, hg, rfl⟩ := List.mem_map.mp hbs
    exact m.grouping.single g hg
  · rw [Table.values, List.pairwise_map]
    refine List.Pairwise.imp_of_mem ?_ hn
    intro g g' hg hg' hne b hb c hc
    rw [Bool.eq_false_iff]
    intro hbc
    apply hne
    rw [← m.grouping.keyed g hg b hb, ← m.grouping.keyed g' hg' c hc]
    exact (Binding.same_iff.mp hbc).2.2

end HandlerMap

/-! ## Puts and removals -/

namespace Registry

theorem merge_eq : ∀ {incoming : List Binding} (current : List Binding),
    incoming.Pairwise (fun b c => b.same c = false) →
      merge current incoming = current ++ incoming.filter fun b => !b.isIn current
  | [], current, _ => by simp [merge]
  | b :: bs, current, h => by
    obtain ⟨hb, hbs⟩ := List.pairwise_cons.mp h
    rw [merge, List.foldl_cons, ← merge, merge_eq _ hbs, List.filter_cons]
    cases hin : b.isIn current with
    | true => simp
    | false =>
      have hsame : ∀ c ∈ bs, c.isIn (current ++ [b]) = c.isIn current := by
        intro c hc
        rw [Binding.isIn_append, Binding.isIn_singleton, hb c hc, Bool.or_false]
      have hfilter : bs.filter (fun c => !c.isIn (current ++ [b])) =
          bs.filter fun c => !c.isIn current :=
        List.filter_congr fun c hc => by rw [hsame c hc]
      simp [hfilter]

section

variable {r : Registry} {t : EventType}

/-- Steps on groups of different types take effect one by one. -/
theorem get_foldl_groups {step : Registry → EventType × List Binding → Registry}
    {f : List Binding → List Binding → List Binding}
    (self : ∀ r g, (step r g).get g.1 = f (r.get g.1) g.2)
    (other : ∀ r (g : EventType × List Binding) t, t ≠ g.1 → (step r g).get t = r.get t)
    (nothing : ∀ bs, f bs [] = bs) (t : EventType) :
    ∀ (es : List (EventType × List Binding)) (r : Registry), (es.map (·.1)).Nodup →
      (es.foldl step r).get t = f (r.get t) ((es.lookup t).getD [])
  | [], r, _ => (nothing _).symm
  | g :: es, r, h => by
    rw [List.map_cons, List.nodup_cons] at h
    rw [List.foldl_cons, get_foldl_groups self other nothing t es _ h.2]
    obtain ⟨u, bs⟩ := g
    by_cases ht : t = u
    · subst ht
      have hnone : es.lookup t = none := Table.get?_eq_none_of_not_mem (t := ⟨es⟩) h.1
      rw [hnone, Option.getD_none, nothing, self]
      simp
    · have htu : (t == u) = false := by simpa using ht
      rw [other r (u, bs) t ht, List.lookup_cons, htu]

/-- A put appends what is not there, in the order of the map. -/
theorem get_putAll (r : Registry) (m : HandlerMap) (t : EventType) :
    (r.putAll m).get t = r.get t ++ (m.get t).filter fun b => !b.isIn (r.get t) := by
  rw [← merge_eq _ (m.single_get t)]
  exact get_foldl_groups get_putGroup_self (fun r _ _ => get_putGroup_ne r) (fun _ => rfl) t _ r
    m.grouping.distinct

theorem get_removeGroups (r : Registry) (m : HandlerMap) (t : EventType) :
    (m.groups.entries.foldl removeGroup r).get t = (r.get t).filter fun b => !b.isIn (m.get t) :=
  get_foldl_groups (f := fun current bs => current.filter fun b => !b.isIn bs)
    get_removeGroup_self (fun r _ _ => get_removeGroup_ne r)
    (fun _ => List.filter_eq_self.mpr fun _ _ => rfl) t _ r m.grouping.distinct

/-- What is missing of a map is the first of its bindings that is not there. -/
theorem missing?_eq_find? (r : Registry) (m : HandlerMap) :
    r.missing? m = m.toList.find? fun b => !b.isIn (r.get b.type) := by
  rw [missing?, HandlerMap.toList, List.find?_flatten, Table.values, List.findSome?_map,
    ← List.head?_filterMap, ← List.head?_filterMap]
  refine congrArg List.head? (List.filterMap_congr fun g hg => ?_)
  exact List.find?_congr fun b hb => by rw [m.grouping.keyed g hg b hb]

theorem missing?_eq_none_iff {m : HandlerMap} :
    r.missing? m = none ↔ ∀ b ∈ m.toList, b.isIn (r.get b.type) = true := by
  rw [missing?_eq_find?, List.find?_eq_none]
  exact forall₂_congr fun b _ => by simp

theorem removeAll_eq_ok_iff {m : HandlerMap} {r' : Registry} :
    r.removeAll m = .ok r' ↔
      (∀ b ∈ m.toList, b.isIn (r.get b.type) = true) ∧ r' = m.groups.entries.foldl removeGroup r := by
  rw [← missing?_eq_none_iff, removeAll]
  cases r.missing? m with
  | none => simp [eq_comm]
  | some b => simp

/-- A removal takes out what its map has, and the rest keeps its order. -/
theorem get_removeAll {m : HandlerMap} {r' : Registry} (h : r.removeAll m = .ok r')
    (t : EventType) : r'.get t = (r.get t).filter fun b => !b.isIn (m.get t) := by
  rw [(removeAll_eq_ok_iff.mp h).2, get_removeGroups]

theorem containsAll_iff {m : HandlerMap} :
    r.containsAll m = true ↔ ∀ b ∈ m.toList, b.isIn (r.get b.type) = true := by
  rw [containsAll, List.all_eq_true]
  constructor
  · intro h b hb
    obtain ⟨g, hg, hbg⟩ := HandlerMap.mem_toList_iff.mp hb
    have hall := h g hg
    rw [m.grouping.keyed g hg b hbg, get]
    split at hall
    · rename_i current hcurrent
      rw [hcurrent]
      exact List.all_eq_true.mp hall b hbg
    · cases hall
  · intro h g hg
    have hin : ∀ b ∈ g.2, b.isIn (r.get g.1) = true := fun b hb => by
      rw [← m.grouping.keyed g hg b hb]
      exact h b (HandlerMap.mem_toList_iff.mpr ⟨g, hg, hb⟩)
    cases hcurrent : r.handlers.get? g.1 with
    | some current =>
      rw [get, hcurrent] at hin
      exact List.all_eq_true.mpr hin
    | none =>
      -- A group of a map is not empty, so nothing of it is in an absent group.
      obtain ⟨b, bs, hbs⟩ := List.exists_cons_of_ne_nil (m.grouping.inhabited g hg)
      have hb := hin b (hbs ▸ List.mem_cons_self ..)
      rw [get, hcurrent] at hb
      cases hb

end

/-! ## Groups stay groups -/

theorem grouping_empty : Grouping empty.handlers := Grouping.empty

theorem merge_ne_nil {current incoming : List Binding}
    (hs : incoming.Pairwise fun b c => b.same c = false) (hne : incoming ≠ []) :
    merge current incoming ≠ [] := by
  rw [merge_eq _ hs]
  intro h
  obtain ⟨rfl, hf⟩ := List.append_eq_nil_iff.mp h
  have hall : incoming.filter (fun b => !b.isIn []) = incoming :=
    List.filter_eq_self.mpr fun _ _ => rfl
  exact hne (hall ▸ hf)

theorem grouping_putAll {r : Registry} (h : Grouping r.handlers) (m : HandlerMap) :
    Grouping (r.putAll m).handlers := by
  have fold : ∀ (es : List (EventType × List Binding)) (r : Registry), Grouping r.handlers →
      (∀ g ∈ es, g ∈ m.groups.entries) → Grouping (es.foldl putGroup r).handlers := by
    intro es
    induction es with
    | nil => exact fun _ h _ => h
    | cons g es ih =>
      intro r h hes
      have hg := hes g (List.mem_cons_self ..)
      have hs := m.grouping.single g hg
      obtain ⟨hk, hr⟩ := h.of_get? g.1
      refine ih _ (h.replace (merge_ne_nil hs (m.grouping.inhabited g hg)) (fun b hb => ?_)
        (single_merge hr)) fun g' hg' => hes g' (List.mem_cons_of_mem g hg')
      exact (mem_merge hb).elim (hk b) (m.grouping.keyed g hg b)
  exact fold _ r h fun g hg => hg

theorem grouping_removeGroup {r : Registry} (h : Grouping r.handlers)
    (g : EventType × List Binding) : Grouping (r.removeGroup g).handlers := by
  unfold removeGroup
  split
  · exact h
  · rename_i current hcurrent
    have hm := Table.mem_of_get? hcurrent
    split
    · exact h.erase g.1
    · rename_i hne
      exact h.replace hne (fun b hb => h.keyed _ hm b (List.mem_filter.mp hb).1)
        ((h.single _ hm).filter _)

theorem grouping_removeAll {r r' : Registry} (h : Grouping r.handlers) {m : HandlerMap}
    (hr : r.removeAll m = .ok r') : Grouping r'.handlers := by
  have fold : ∀ (es : List (EventType × List Binding)) (r : Registry), Grouping r.handlers →
      Grouping (es.foldl removeGroup r).handlers := by
    intro es
    induction es with
    | nil => exact fun _ h => h
    | cons g es ih => exact fun r h => ih _ (grouping_removeGroup h g)
  rw [(removeAll_eq_ok_iff.mp hr).2]
  exact fold _ r h

end Registry
end EventBus
