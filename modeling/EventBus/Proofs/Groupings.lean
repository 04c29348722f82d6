import EventBus.Proofs.Discoveries
import EventBus.Proofs.Membership

/-!
# Maps group what is inserted

A map is told by the list of bindings that were inserted, oldest first: its types stand as they
first came, its groups are the parts of the list on one type, and later copies are dropped. Its own
listing is such a list, and gives it again.
-/

namespace EventBus

namespace Binding

theorem eraseDupsBy_sublist (bs : List Binding) : (bs.eraseDupsBy same).Sublist bs := by
  induction bs using List.reverseRecOn with
  | nil => exact .slnil
  | append_singleton bs b ih =>
    rw [eraseDupsBy_concat]
    split
    · exact ih.trans (List.sublist_append_left bs [b])
    · exact ih.append_right [b]

theorem eraseDupsBy_eq_nil_iff {bs : List Binding} : bs.eraseDupsBy same = [] ↔ bs = [] := by
  cases bs with
  | nil => simp
  | cons b bs => simp [List.eraseDupsBy_cons]

end Binding

namespace HandlerMap

/-- What the insertions of `bs` answer, one after the other. -/
def answers (m : HandlerMap) : List Binding → List Bool
  | [] => []
  | b :: bs => m.isNew b :: (m.insert b).answers bs

/-! ## Answers -/

theorem contains_ofList (bs : List Binding) (b : Binding) : (ofList bs).contains b = b.isIn bs := by
  rw [contains, get_ofList, Binding.isIn_eraseDupsBy, Binding.isIn_filter_type]

theorem isNew_ofList_iff (bs : List Binding) (b : Binding) :
    (ofList bs).isNew b = true ↔ ∀ c ∈ bs, c.same b = false := by
  simp [isNew, contains_ofList, Binding.isIn]

theorem answers_append (cs ds : List Binding) : ∀ m : HandlerMap,
    m.answers (cs ++ ds) = m.answers cs ++ (cs.foldl insert m).answers ds := by
  induction cs with
  | nil =>
    intro m
    rfl
  | cons c cs ih =>
    intro m
    rw [List.cons_append, answers, answers, ih, List.foldl_cons, List.cons_append]

theorem length_answers (bs : List Binding) : ∀ m : HandlerMap, (m.answers bs).length = bs.length := by
  induction bs with
  | nil =>
    intro m
    rfl
  | cons b bs ih =>
    intro m
    rw [answers, List.length_cons, ih, List.length_cons]

/-- The answer to `b` looks back on the insertions before it. -/
theorem getElem?_answers (front : List Binding) (b : Binding) (back : List Binding) :
    (empty.answers (front ++ b :: back))[front.length]? = some ((ofList front).isNew b) := by
  have hlen : (empty.answers front).length ≤ front.length := by rw [length_answers]
  rw [answers_append, List.getElem?_append_right hlen, length_answers, Nat.sub_self]
  rfl

/-! ## Types -/

theorem eraseDups_of_one {t : EventType} {ts : List EventType} (hne : ts ≠ [])
    (h : ∀ u ∈ ts, u = t) : ts.eraseDups = [t] := by
  obtain ⟨v, vs, rfl⟩ := List.exists_cons_of_ne_nil hne
  have hv : v = t := h v (List.mem_cons_self ..)
  have hnone : vs.filter (fun u => !u == v) = [] := by
    apply List.filter_eq_nil_iff.mpr
    intro u hu
    simp [hv, h u (List.mem_cons_of_mem v hu)]
  rw [List.eraseDups_cons, hnone, hv]
  rfl

/-- Blocks of different types, none of them empty, show each type once. -/
theorem eraseDups_blocks {f : EventType → List EventType} (ts : List EventType) (hn : ts.Nodup)
    (hf : ∀ t ∈ ts, f t ≠ [] ∧ ∀ u ∈ f t, u = t) : (ts.flatMap f).eraseDups = ts := by
  induction ts with
  | nil => rfl
  | cons t ts ih =>
    obtain ⟨hnot, hn⟩ := List.nodup_cons.mp hn
    obtain ⟨hne, ht⟩ := hf t (List.mem_cons_self ..)
    have hf : ∀ u ∈ ts, f u ≠ [] ∧ ∀ v ∈ f u, v = u := fun u hu => hf u (List.mem_cons_of_mem t hu)
    have hapart : (ts.flatMap f).removeAll (f t) = ts.flatMap f := by
      apply List.filter_eq_self.mpr
      intro u hu
      obtain ⟨v, hv, huv⟩ := List.mem_flatMap.mp hu
      have hut : u ∉ f t := by
        intro hut
        apply hnot
        rw [← ht u hut, (hf v hv).2 u huv]
        exact hv
      simpa using hut
    rw [List.flatMap_cons, List.eraseDups_append, eraseDups_of_one hne ht, hapart, ih hn hf]
    rfl

theorem get_ne_nil {m : HandlerMap} {t : EventType} : m.get t ≠ [] ↔ t ∈ m.types :=
  m.grouping.mem_keys_iff.symm

theorem ofList_toList (m : HandlerMap) : ofList m.toList = m := by
  have htypes : (ofList m.toList).types = m.types := by
    rw [types_ofList, toList_eq_flatMap, List.map_flatMap]
    apply eraseDups_blocks _ m.grouping.distinct
    intro t ht
    constructor
    · simpa using get_ne_nil.mpr ht
    · intro u hu
      obtain ⟨b, hb, rfl⟩ := List.mem_map.mp hu
      exact (mem_get_iff.mp hb).2
  have hget : (ofList m.toList).get = m.get := by
    funext t
    rw [get_ofList, filter_toList, Binding.eraseDupsBy_of_single (m.single_get t)]
  apply eq_of_entries
  rw [entries_eq, entries_eq, htypes, hget]

/-- Insertions group their bindings in a stable way. The types are distinct and stand as they first
came, each with a group that is not empty: the bindings of the type, in their order and without
later copies. An insertion answers that its binding is new iff no copy was inserted before. The map
has as many bindings as differ, is empty iff nothing was inserted, and is built again from its own
listing. -/
theorem ofList_groups_stably (bs : List Binding) :
    let m := ofList bs
    m.types = (bs.map (·.type)).eraseDups ∧ m.types.Nodup ∧
      m.groups.entries = (m.types.map fun t => (t, m.get t)) ∧ (∀ t ∈ m.types, m.get t ≠ []) ∧
      (∀ t, m.get t = (bs.filter (·.type = t)).eraseDupsBy Binding.same ∧
        (m.get t).Sublist (bs.filter (·.type = t))) ∧
      (∀ t, t ∉ m.types → m.get t = []) ∧
      (∀ front b back, bs = front ++ b :: back → ∃ new, (empty.answers bs)[front.length]? = some new ∧
        (new = true ↔ ∀ c ∈ front, c.same b = false)) ∧
      m.toList.Perm (bs.eraseDupsBy Binding.same) ∧ m.size = (bs.eraseDupsBy Binding.same).length ∧
      (m.isEmpty = true ↔ bs = []) ∧ ofList m.toList = m := by
  intro m
  have hperm : m.toList.Perm (bs.eraseDupsBy Binding.same) := perm_eraseDupsBy bs
  refine ⟨types_ofList bs, m.grouping.distinct, entries_eq m, fun t => get_ne_nil.mpr,
    fun t => ⟨get_ofList bs t, ?sublist⟩, ?absent, ?answers, hperm, hperm.length_eq, ?empty,
    ofList_toList m⟩
  case sublist =>
    rw [get_ofList]
    exact Binding.eraseDupsBy_sublist _
  case absent =>
    intro t ht
    rw [← get_ne_nil, not_not] at ht
    exact ht
  case answers =>
    intro front b back hbs
    rw [hbs]
    exact ⟨_, getElem?_answers front b back, isNew_ofList_iff front b⟩
  case empty =>
    have hnil : bs.eraseDupsBy Binding.same = [] ↔ bs = [] := Binding.eraseDupsBy_eq_nil_iff
    rw [isEmpty_iff, ← hnil]
    constructor
    · intro hm
      rw [hm] at hperm
      exact hperm.nil_eq.symm
    · intro hbs
      rw [hbs] at hperm
      exact hperm.eq_nil

end HandlerMap
end EventBus
