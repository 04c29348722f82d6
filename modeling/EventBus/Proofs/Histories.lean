import EventBus.Proofs.Contents
import Mathlib.Data.List.Induction

/-!
# Histories of a registry

What a registry holds, and in which order, is told by the changes made to it: a binding is there if
the last change that took effect on it was a put, and stands where it last arrived.
-/

namespace EventBus

namespace Registry

inductive Change where
  | put (map : HandlerMap)
  | remove (map : HandlerMap)

namespace Change

def map : Change → HandlerMap
  | put m | remove m => m

def isPut : Change → Bool
  | put _ => true
  | remove _ => false

end Change

/-- The registry after a change. A removal that fails changes nothing. -/
def apply (r : Registry) : Change → Registry
  | .put m => r.putAll m
  | .remove m =>
    match r.removeAll m with
    | .ok r' => r'
    | .error _ => r

def accepts (r : Registry) : Change → Bool
  | .put _ => true
  | .remove m => (r.removeAll m).isOk

/-- What a change adds to the registry, in the order of its map. -/
def added (r : Registry) : Change → List Binding
  | .put m => m.toList.filter fun b => !b.isIn (r.get b.type)
  | .remove _ => []

/-- The changes that take effect on a registry when they are made one after the other. -/
def effective (r : Registry) : List Change → List Change
  | [] => []
  | c :: cs => (if r.accepts c then [c] else []) ++ (r.apply c).effective cs

def arrivals (r : Registry) : List Change → List Binding
  | [] => []
  | c :: cs => r.added c ++ (r.apply c).arrivals cs

end Registry

open Registry

/-- The changes made to a registry that was empty, the oldest first. -/
abbrev History := List Change

/-- Of equal bindings only the last. -/
def Binding.latest : List Binding → List Binding
  | [] => []
  | b :: bs => if b.isIn bs then latest bs else b :: latest bs

namespace History

def registry (h : History) : Registry := h.foldl apply .empty

def lastMention? (h : History) (b : Binding) : Option Change :=
  ((Registry.empty.effective h).filter (·.map.contains b)).getLast?

/-- The last change that took effect on the binding was a put. -/
def holds (h : History) (b : Binding) : Bool := (h.lastMention? b).any (·.isPut)

/-- What the history leaves, in the order in which each binding last arrived. -/
def contents (h : History) : List Binding :=
  (Binding.latest (Registry.empty.arrivals h)).filter h.holds

end History

/-! ## One more change -/

theorem Registry.effective_append (cs cs' : List Change) : ∀ r : Registry,
    r.effective (cs ++ cs') = r.effective cs ++ (cs.foldl apply r).effective cs' := by
  induction cs with
  | nil => exact fun _ => rfl
  | cons c cs ih =>
    intro r
    rw [List.cons_append, effective, effective, ih, List.append_assoc, List.foldl_cons]

theorem Registry.arrivals_append (cs cs' : List Change) : ∀ r : Registry,
    r.arrivals (cs ++ cs') = r.arrivals cs ++ (cs.foldl apply r).arrivals cs' := by
  induction cs with
  | nil => exact fun _ => rfl
  | cons c cs ih =>
    intro r
    rw [List.cons_append, arrivals, arrivals, ih, List.append_assoc, List.foldl_cons]

namespace Binding

theorem latest_append (bs cs : List Binding) :
    latest (bs ++ cs) = (latest bs).filter (fun b => !b.isIn cs) ++ latest cs := by
  induction bs with
  | nil => rfl
  | cons b bs ih =>
    rw [List.cons_append, latest, latest, isIn_append, ih]
    cases hbs : b.isIn bs <;> cases hcs : b.isIn cs <;> simp [hcs]

theorem latest_of_single {bs : List Binding} (h : bs.Pairwise fun b c => b.same c = false) :
    latest bs = bs := by
  induction bs with
  | nil => rfl
  | cons b bs ih =>
    obtain ⟨hb, hbs⟩ := List.pairwise_cons.mp h
    have hin : b.isIn bs = false := by
      rw [Bool.eq_false_iff]
      intro hin
      obtain ⟨c, hc, hcb⟩ := isIn_iff.mp hin
      rw [same_comm, hb c hc] at hcb
      cases hcb
    rw [latest, hin, ih hbs]
    rfl

end Binding

namespace History

section

variable (h : History)

theorem registry_concat (c : Change) : registry (h ++ [c]) = h.registry.apply c := by
  rw [registry, List.foldl_append]
  rfl

theorem lastMention?_concat (c : Change) (b : Binding) :
    lastMention? (h ++ [c]) b =
      if h.registry.accepts c && c.map.contains b then some c else h.lastMention? b := by
  rw [lastMention?, effective_append, List.filter_append, ← registry, effective, effective,
    List.append_nil]
  cases ha : h.registry.accepts c with
  | false => simp [lastMention?]
  | true => cases hb : c.map.contains b <;> simp [hb, lastMention?]

theorem arrivals_concat (c : Change) :
    Registry.empty.arrivals (h ++ [c]) = Registry.empty.arrivals h ++ h.registry.added c := by
  rw [arrivals_append, arrivals, arrivals, List.append_nil]
  rfl

theorem holds_put (m : HandlerMap) (b : Binding) :
    holds (h ++ [.put m]) b = (m.contains b || h.holds b) := by
  rw [holds, lastMention?_concat]
  cases hb : m.contains b <;> simp [accepts, Change.map, hb, Change.isPut, holds]

theorem holds_remove {m : HandlerMap} {r : Registry} (hr : h.registry.removeAll m = .ok r)
    (b : Binding) : holds (h ++ [.remove m]) b = (!m.contains b && h.holds b) := by
  rw [holds, lastMention?_concat]
  have ha : h.registry.accepts (.remove m) = true := by rw [accepts, hr]; rfl
  cases hb : m.contains b <;> simp [ha, Change.map, hb, Change.isPut, holds]

theorem holds_refused {m : HandlerMap} {e : BusError} (hr : h.registry.removeAll m = .error e)
    (b : Binding) : holds (h ++ [.remove m]) b = h.holds b := by
  have ha : h.registry.accepts (.remove m) = false := by rw [accepts, hr]; rfl
  rw [holds, lastMention?_concat, ha]
  rfl

/-! ## Members and order -/

theorem orderly : h.registry.Orderly ∧ Grouping h.registry.handlers := by
  induction h using List.reverseRecOn with
  | nil => exact ⟨.empty, grouping_empty⟩
  | append_singleton h c ih =>
    rw [registry_concat]
    cases c with
    | put m => exact ⟨ih.1.putAll m, grouping_putAll ih.2 m⟩
    | remove m =>
      simp only [apply]
      cases hr : (registry h).removeAll m with
      | ok r => exact ⟨ih.1.removeAll hr, grouping_removeAll ih.2 hr⟩
      | error e => exact ih

/-- A binding is held iff the last change that took effect on it was a put. -/
theorem isIn_get (b : Binding) : b.isIn (h.registry.get b.type) = h.holds b := by
  induction h using List.reverseRecOn with
  | nil => rfl
  | append_singleton h c ih =>
    rw [registry_concat]
    cases c with
    | put m =>
      rw [holds_put, apply, get_putAll, Binding.isIn_append, Binding.isIn_filter_not,
        ← HandlerMap.contains, ih]
      cases holds h b <;> simp
    | remove m =>
      simp only [apply]
      cases hr : (registry h).removeAll m with
      | error e => rw [holds_refused h hr, ih]
      | ok r =>
        rw [holds_remove h hr, get_removeAll hr, Binding.isIn_filter_not,
          ← HandlerMap.contains, ih]

theorem holds_congr {b c : Binding} (hbc : b.same c = true) : h.holds b = h.holds c := by
  rw [← isIn_get, ← isIn_get, (Binding.same_iff.mp hbc).2.2, Binding.isIn_congr hbc]

theorem added_put (m : HandlerMap) :
    h.registry.added (.put m) = m.toList.filter fun b => !h.holds b :=
  List.filter_congr fun b _ => by rw [isIn_get]

theorem contents_put (m : HandlerMap) :
    contents (h ++ [.put m]) = h.contents ++ m.toList.filter fun b => !h.holds b := by
  have hsingle := m.single_toList.filter fun b => !h.holds b
  have hin : ∀ b, b.isIn (m.toList.filter fun b => !h.holds b) = (!h.holds b && m.contains b) := by
    intro b
    rw [Binding.isIn_filter (fun c d hcd => by rw [holds_congr h hcd]), HandlerMap.isIn_toList]
  rw [contents, arrivals_concat, added_put, Binding.latest_append, Binding.latest_of_single hsingle,
    List.filter_append, List.filter_filter]
  congr 1
  · refine List.filter_congr fun b _ => ?_
    rw [holds_put, hin]
    cases h.holds b <;> cases m.contains b <;> rfl
  · rw [List.filter_eq_self]
    intro b hb
    rw [holds_put, ← HandlerMap.isIn_toList, Binding.isIn_of_mem (List.mem_filter.mp hb).1]
    rfl

theorem contents_remove {m : HandlerMap} {r : Registry} (hr : h.registry.removeAll m = .ok r) :
    contents (h ++ [.remove m]) = h.contents.filter fun b => !m.contains b := by
  rw [contents, arrivals_concat, added, List.append_nil, contents, List.filter_filter]
  exact List.filter_congr fun b _ => holds_remove h hr b

theorem contents_refused {m : HandlerMap} {e : BusError} (hr : h.registry.removeAll m = .error e) :
    contents (h ++ [.remove m]) = h.contents := by
  rw [contents, arrivals_concat, added, List.append_nil, contents]
  exact List.filter_congr fun b _ => holds_refused h hr b

/-- The bindings of a type stand in the order in which each of them last arrived. -/
theorem get_registry (t : EventType) : h.registry.get t = h.contents.filter (·.type = t) := by
  induction h using List.reverseRecOn with
  | nil => rfl
  | append_singleton h c ih =>
    rw [registry_concat]
    cases c with
    | put m =>
      rw [apply, get_putAll, contents_put, List.filter_append, ih, List.filter_filter,
        ← HandlerMap.filter_toList, List.filter_filter, ← ih]
      congr 1
      refine List.filter_congr fun b _ => ?_
      by_cases hb : b.type = t
      · subst hb
        rw [isIn_get, Bool.and_comm]
      · simp [hb]
    | remove m =>
      simp only [apply]
      cases hr : (registry h).removeAll m with
      | error e => rw [contents_refused h hr, ih]
      | ok r =>
        rw [contents_remove h hr, get_removeAll hr, ih, List.filter_filter, List.filter_filter]
        refine List.filter_congr fun b _ => ?_
        by_cases hb : b.type = t
        · subst hb
          rw [← HandlerMap.contains, Bool.and_comm]
        · simp [hb]

theorem accepts_remove (m : HandlerMap) :
    h.registry.accepts (.remove m) = m.toList.all h.holds := by
  have hall : (∀ b ∈ m.toList, b.isIn (h.registry.get b.type) = true) ↔
      ∀ b ∈ m.toList, h.holds b = true := forall₂_congr fun b _ => by rw [isIn_get]
  rw [Bool.eq_iff_iff, List.all_eq_true, ← hall, accepts]
  constructor
  · intro hok
    cases hr : h.registry.removeAll m with
    | ok r => exact (removeAll_eq_ok_iff.mp hr).1
    | error e => rw [hr] at hok; cases hok
  · intro hin
    rw [removeAll_eq_ok_iff.mpr ⟨hin, rfl⟩]
    rfl

theorem mem_types_iff (t : EventType) :
    t ∈ h.registry.types ↔ ∃ b ∈ h.contents, b.type = t := by
  rw [types, (orderly h).2.mem_keys_iff, ← Registry.get, get_registry, ne_eq,
    List.filter_eq_nil_iff]
  simp

theorem isEmpty_iff : h.registry.isEmpty = true ↔ h.contents = [] := by
  have hempty : h.registry.isEmpty = true ↔ h.registry.types = [] := by
    simp [Registry.isEmpty, Table.isEmpty, types, Table.keys]
  rw [hempty, List.eq_nil_iff_forall_not_mem, List.eq_nil_iff_forall_not_mem]
  constructor
  · exact fun hnone b hb => hnone b.type ((mem_types_iff h _).mpr ⟨b, hb, rfl⟩)
  · intro hnone t ht
    obtain ⟨b, hb, -⟩ := (mem_types_iff h t).mp ht
    exact hnone b hb

end

/-- A history tells all that a registry answers. A binding is held iff the last change that took
effect on it was a put, and the bindings of a type stand in the order in which each of them last
arrived. A put moves none of those that are there, and a removal, which takes effect iff all of its
map is held, moves none of those that stay. -/
theorem determines_registry (h : History) :
    let r : Registry := h.registry
    (∀ b, b.isIn (r.get b.type) = h.holds b) ∧
      (∀ t, r.get t = h.contents.filter (·.type = t)) ∧
      (∀ m t, (registry (h ++ [.put m])).get t =
        r.get t ++ (m.get t).filter fun b => !b.isIn (r.get t)) ∧
      (∀ m, (∀ b ∈ m.toList, h.holds b = true) →
        ∃ r', r.removeAll m = .ok r' ∧ registry (h ++ [.remove m]) = r' ∧
          ∀ t, r'.get t = (r.get t).filter fun b => !b.isIn (m.get t)) ∧
      (∀ m, (∃ b ∈ m.toList, h.holds b = false) →
        (∃ e, r.removeAll m = .error e) ∧ registry (h ++ [.remove m]) = r) ∧
      (∀ t, r.count t = h.contents.countP (·.type = t)) ∧
      (∀ m, r.containsAll m = m.toList.all h.holds) ∧
      (∀ ts, r.resolve ts = ts.flatMap fun t => h.contents.filter (·.type = t)) ∧
      (r.types.Nodup ∧ ∀ t, t ∈ r.types ↔ ∃ b ∈ h.contents, b.type = t) ∧
      (r.isEmpty = true ↔ h.contents = []) := by
  intro r
  have hget : r.get = fun t => h.contents.filter (·.type = t) := funext (get_registry h)
  refine ⟨isIn_get h, get_registry h, fun m t => ?_, fun m hm => ?_, fun m hm => ?_, fun t => ?_,
    fun m => ?_, fun ts => ?_, ⟨(orderly h).2.distinct, mem_types_iff h⟩, isEmpty_iff h⟩
  · rw [registry_concat, apply, get_putAll]
  · have hr := (removeAll_eq_ok_iff (r := r) (m := m)).mpr
      ⟨fun b hb => (isIn_get h b).trans (hm b hb), rfl⟩
    refine ⟨_, hr, ?_, get_removeAll hr⟩
    rw [registry_concat, apply, hr]
  · have hrefused : r.accepts (.remove m) = false := by
      rw [accepts_remove, List.all_eq_false]
      simpa using hm
    rw [accepts] at hrefused
    rw [registry_concat, apply]
    cases hr : r.removeAll m with
    | ok r' => rw [hr] at hrefused; cases hrefused
    | error e => exact ⟨⟨e, rfl⟩, rfl⟩
  · rw [count, get_registry, List.countP_eq_length_filter]
  · rw [← accepts_remove, Bool.eq_iff_iff, containsAll_iff, accepts_remove, List.all_eq_true]
    exact forall₂_congr fun b _ => by rw [isIn_get]
  · rw [resolve, hget]

end History
end EventBus
