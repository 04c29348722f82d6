import EventBus.Discovery
import EventBus.Proofs.Registrations

/-!
# What the declared strategy discovers

The declared strategy finds a map just if each listed method has one parameter, and otherwise blames
the first that has none or several. The map groups the methods by their parameter: the types come as
they are first used, and of the methods on one type the first of each name is kept.
-/

namespace EventBus

/-! ## Lists without repetitions -/

theorem eraseDupsBy_map {β γ : Type} (f : β → γ) (r : γ → γ → Bool) : ∀ l : List β,
    (l.map f).eraseDupsBy r = (l.eraseDupsBy fun a b => r (f a) (f b)).map f
  | [] => rfl
  | a :: l => by
    rw [List.map_cons, List.eraseDupsBy_cons, List.eraseDupsBy_cons, List.map_cons, List.filter_map,
      eraseDupsBy_map f r]
    rfl
termination_by l => l.length
decreasing_by exact Nat.lt_succ_of_le (List.length_filter_le ..)

namespace Binding

theorem eraseDupsBy_of_single : ∀ {bs : List Binding}, bs.Pairwise (fun b c => b.same c = false) →
    bs.eraseDupsBy same = bs
  | [], _ => rfl
  | b :: bs, h => by
    obtain ⟨hb, hbs⟩ := List.pairwise_cons.mp h
    have hall : bs.filter (fun c => c.same b = false) = bs := by
      apply List.filter_eq_self.mpr
      intro c hc
      rw [same_comm, hb c hc]
      rfl
    rw [List.eraseDupsBy_cons, hall, eraseDupsBy_of_single hbs]

theorem single_eraseDupsBy (bs : List Binding) :
    (bs.eraseDupsBy same).Pairwise fun b c => b.same c = false := by
  induction bs using List.reverseRecOn with
  | nil => exact .nil
  | append_singleton bs b ih =>
    rw [eraseDupsBy_concat]
    split
    · exact ih
    · rename_i hb
      rw [← isIn_eraseDupsBy, Bool.not_eq_true] at hb
      refine List.pairwise_append.mpr ⟨ih, List.pairwise_singleton _ _, fun c hc d hd => ?_⟩
      rw [List.mem_singleton.mp hd]
      simpa using List.any_eq_false.mp hb c hc

/-- Bindings of different types are different, so a type may be picked out first or last. -/
theorem eraseDupsBy_filter_type (bs : List Binding) (t : EventType) :
    (bs.filter (·.type = t)).eraseDupsBy same = (bs.eraseDupsBy same).filter (·.type = t) := by
  induction bs using List.reverseRecOn with
  | nil => rfl
  | append_singleton bs b ih =>
    rw [List.filter_append, eraseDupsBy_concat]
    by_cases hb : b.type = t
    · subst hb
      have hself : [b].filter (·.type = b.type) = [b] := by simp
      rw [hself, eraseDupsBy_concat, isIn_filter_type, ih]
      split
      · rfl
      · rw [List.filter_append, hself]
    · have hnone : [b].filter (·.type = t) = [] := by simp [hb]
      rw [hnone, List.append_nil, ih]
      split
      · rfl
      · rw [List.filter_append, hnone, List.append_nil]

theorem nodup_of_single {bs : List Binding} (h : bs.Pairwise fun b c => b.same c = false) :
    bs.Nodup := by
  refine h.imp fun {b c} hbc heq => ?_
  rw [heq, same_refl] at hbc
  cases hbc

end Binding

namespace HandlerMap

theorem entries_eq (m : HandlerMap) : m.groups.entries = m.types.map fun t => (t, m.get t) := by
  have hself : ∀ g ∈ m.groups.entries, (g.1, m.get g.1) = g := by
    intro g hg
    rw [get, Table.get?_of_mem m.grouping.distinct hg]
    rfl
  rw [types, Table.keys, List.map_map]
  exact (List.map_id _).symm.trans (List.map_congr_left fun g hg => (hself g hg).symm)

theorem eq_of_entries {m m' : HandlerMap} (h : m.groups.entries = m'.groups.entries) : m = m' := by
  obtain ⟨⟨es⟩, hm⟩ := m
  obtain ⟨⟨es'⟩, hm'⟩ := m'
  cases h
  rfl

/-- A map has, in some order, what is left of its list when later copies are dropped. -/
theorem perm_eraseDupsBy (bs : List Binding) :
    (ofList bs).toList.Perm (bs.eraseDupsBy Binding.same) := by
  have hmem : ∀ b, b ∈ (ofList bs).toList ↔ b ∈ bs.eraseDupsBy Binding.same := by
    intro b
    have hget : b ∈ (ofList bs).get b.type ↔ b ∈ (ofList bs).toList := by simp [mem_get_iff]
    rw [← hget, get_ofList, Binding.eraseDupsBy_filter_type, List.mem_filter]
    simp
  exact (List.perm_ext_iff_of_nodup (Binding.nodup_of_single (ofList bs).single_toList)
    (Binding.nodup_of_single (Binding.single_eraseDupsBy bs))).mpr hmem

/-- A map of bindings of which no two are the same has just these. -/
theorem perm_ofList {bs : List Binding} (h : bs.Pairwise fun b c => b.same c = false) :
    (ofList bs).toList.Perm bs := by
  have hperm := perm_eraseDupsBy bs
  rwa [Binding.eraseDupsBy_of_single h] at hperm

end HandlerMap

/-! ## Methods and their bindings -/

namespace Method

/-- The method has one parameter. -/
def IsUnary (x : Method) : Prop := x.params.length = 1

theorem IsUnary.params {x : Method} (h : x.IsUnary) : x.params = [x.params.headD .root] := by
  obtain ⟨t, ht⟩ := List.length_eq_one_iff.mp h
  rw [ht]
  rfl

end Method

namespace Subscriber

def binding (s : Subscriber) (x : Method) : Binding := ⟨s.id, x, x.params.headD .root⟩

/-- The methods on `t` in their order, of those with one name the first. -/
def methodsOn (s : Subscriber) (t : EventType) : List Method :=
  (s.methods.filter (·.params = [t])).eraseDupsBy fun x y => x.name == y.name

/-- The group of `t`: each of its methods, bound to the subscriber and to `t`. -/
def group (s : Subscriber) (t : EventType) : List Binding :=
  (s.methodsOn t).map fun x => ⟨s.id, x, t⟩

/-- The parameter types of the methods, as they are first used. -/
def paramTypes (s : Subscriber) : List EventType := (s.methods.flatMap (·.params)).eraseDups

end Subscriber

namespace Discovery

theorem bind_of_unary {x : Method} (h : x.IsUnary) (s : Subscriber) :
    bind s.id x = .ok (s.binding x) := by
  obtain ⟨t, ht⟩ := List.length_eq_one_iff.mp h
  simp only [bind, Subscriber.binding, ht, List.headD_cons]

theorem bind_of_not_unary {x : Method} (h : ¬x.IsUnary) (target : SubscriberId) :
    bind target x = .error (.malformedSignature x.owner x.name x.params.length) := by
  unfold bind
  split
  · rename_i t ht
    exact absurd (congrArg List.length ht) h
  · rfl

theorem mapM_bind (s : Subscriber) {xs : List Method} (h : ∀ x ∈ xs, x.IsUnary) :
    xs.mapM (bind s.id) = .ok (xs.map s.binding) := by
  induction xs with
  | nil => rfl
  | cons x xs ih =>
    rw [List.mapM_cons, bind_of_unary (h x (List.mem_cons_self ..)) s,
      ih fun y hy => h y (List.mem_cons_of_mem x hy)]
    rfl

theorem mapM_bind_error (s : Subscriber) {front back : List Method} {x : Method}
    (h : ∀ y ∈ front, y.IsUnary) (hx : ¬x.IsUnary) :
    (front ++ x :: back).mapM (bind s.id) =
      .error (.malformedSignature x.owner x.name x.params.length) := by
  rw [List.mapM_append, mapM_bind s h, List.mapM_cons, bind_of_not_unary hx]
  rfl

theorem declared_of_unary {s : Subscriber} (h : ∀ x ∈ s.methods, x.IsUnary) :
    declared s = .ok (.ofList (s.methods.map s.binding)) := by
  unfold declared
  rw [mapM_bind s h]
  rfl

theorem declared_of_first {s : Subscriber} {front back : List Method} {x : Method}
    (hs : s.methods = front ++ x :: back) (h : ∀ y ∈ front, y.IsUnary) (hx : ¬x.IsUnary) :
    declared s = .error (.malformedSignature x.owner x.name x.params.length) := by
  unfold declared
  rw [hs, mapM_bind_error s h hx]
  rfl

/-- Either all methods have one parameter, or there is a first that has not. -/
theorem unary_or_first (xs : List Method) : (∀ x ∈ xs, x.IsUnary) ∨
    ∃ front x back, xs = front ++ x :: back ∧ (∀ y ∈ front, y.IsUnary) ∧ ¬x.IsUnary := by
  induction xs with
  | nil => exact .inl fun x hx => nomatch hx
  | cons x xs ih =>
    by_cases hx : x.IsUnary
    · rcases ih with h | ⟨front, y, back, rfl, hfront, hy⟩
      · exact .inl (List.forall_mem_cons.mpr ⟨hx, h⟩)
      · exact .inr ⟨x :: front, y, back, rfl, List.forall_mem_cons.mpr ⟨hx, hfront⟩, hy⟩
    · exact .inr ⟨[], x, xs, rfl, fun y hy => (nomatch hy), hx⟩

theorem declared_isOk_iff {s : Subscriber} :
    (∃ m, declared s = .ok m) ↔ ∀ x ∈ s.methods, x.IsUnary := by
  constructor
  · rintro ⟨m, hm⟩
    rcases unary_or_first s.methods with h | ⟨front, x, back, hs, hfront, hx⟩
    · exact h
    · rw [declared_of_first hs hfront hx] at hm
      cases hm
  · intro h
    exact ⟨_, declared_of_unary h⟩

theorem declared_eq_error_iff {s : Subscriber} {e : BusError} : declared s = .error e ↔
    ∃ front x back, s.methods = front ++ x :: back ∧ (∀ y ∈ front, y.IsUnary) ∧ ¬x.IsUnary ∧
      e = .malformedSignature x.owner x.name x.params.length := by
  constructor
  · intro he
    rcases unary_or_first s.methods with h | ⟨front, x, back, hs, hfront, hx⟩
    · rw [declared_of_unary h] at he
      cases he
    · rw [declared_of_first hs hfront hx] at he
      cases he
      exact ⟨front, x, back, hs, hfront, hx, rfl⟩
  · rintro ⟨front, x, back, hs, hfront, hx, rfl⟩
    exact declared_of_first hs hfront hx

/-! ## Groups -/

section

variable {s : Subscriber} (h : ∀ x ∈ s.methods, x.IsUnary)
include h

theorem types_bindings : (s.methods.map s.binding).map (·.type) = s.methods.flatMap (·.params) := by
  generalize s.methods = xs at h
  induction xs with
  | nil => rfl
  | cons x xs ih =>
    rw [List.forall_mem_cons] at h
    rw [List.map_cons, List.map_cons, ih h.2, List.flatMap_cons, h.1.params]
    rfl

theorem filter_bindings (t : EventType) : (s.methods.map s.binding).filter (·.type = t) =
    (s.methods.filter (·.params = [t])).map fun x => ⟨s.id, x, t⟩ := by
  generalize s.methods = xs at h
  induction xs with
  | nil => rfl
  | cons x xs ih =>
    rw [List.forall_mem_cons] at h
    have hx : (s.binding x).type = t ↔ x.params = [t] := by
      rw [h.1.params, List.cons.injEq, and_iff_left rfl]
      rfl
    rw [List.map_cons, List.filter_cons, List.filter_cons, ih h.2]
    by_cases ht : x.params = [t]
    · have hbinding : s.binding x = ⟨s.id, x, t⟩ := by rw [Subscriber.binding, ht]; rfl
      simp [ht, hbinding]
    · simp [hx, ht]

theorem entries_declared : (HandlerMap.ofList (s.methods.map s.binding)).groups.entries =
    s.paramTypes.map fun t => (t, s.group t) := by
  rw [HandlerMap.entries_eq, HandlerMap.types_ofList, types_bindings h]
  apply List.map_congr_left
  intro t _
  have hname : (fun x y : Method => Binding.same ⟨s.id, x, t⟩ ⟨s.id, y, t⟩) =
      fun x y => x.name == y.name := by
    funext x y
    simp [Binding.same]
  rw [HandlerMap.get_ofList, filter_bindings h, eraseDupsBy_map, hname]
  rfl

/-- Where no two methods share name and parameter, no two bindings are the same. -/
theorem single_bindings
    (hs : s.methods.Pairwise fun x y => ¬(x.name = y.name ∧ x.params = y.params)) :
    (s.methods.map s.binding).Pairwise fun b c => b.same c = false := by
  rw [List.pairwise_map]
  refine List.Pairwise.imp_of_mem ?_ hs
  intro x y hx hy hxy
  rw [Bool.eq_false_iff]
  intro hsame
  obtain ⟨-, hname, htype⟩ := Binding.same_iff.mp hsame
  apply hxy
  refine ⟨hname, ?_⟩
  rw [(h x hx).params, (h y hy).params]
  exact congrArg (fun t => [t]) htype

end

/-- The declared strategy succeeds just if each listed method has one parameter, and otherwise tells
owner, name and arity of the first that has not. What it finds is one group for each parameter type,
as they are first used: the methods on that type in their order, of those with one name the first,
each bound to the subscriber. Unless two methods share name and parameter, each has one binding. -/
theorem declared_groups_methods (s : Subscriber) :
    ((∃ m, declared s = .ok m) ↔ ∀ x ∈ s.methods, x.IsUnary) ∧
      (∀ e, declared s = .error e ↔ ∃ front x back, s.methods = front ++ x :: back ∧
        (∀ y ∈ front, y.IsUnary) ∧ ¬x.IsUnary ∧
          e = .malformedSignature x.owner x.name x.params.length) ∧
      ∀ m, declared s = .ok m →
        m.groups.entries = s.paramTypes.map (fun t => (t, s.group t)) ∧
          (s.methods.Pairwise (fun x y => ¬(x.name = y.name ∧ x.params = y.params)) →
            (m.toList.map (·.method)).Perm s.methods) := by
  refine ⟨declared_isOk_iff, fun e => declared_eq_error_iff, fun m hm => ?_⟩
  have h := declared_isOk_iff.mp ⟨m, hm⟩
  rw [declared_of_unary h] at hm
  cases hm
  refine ⟨entries_declared h, fun hs => ?_⟩
  have hperm := (HandlerMap.perm_ofList (single_bindings h hs)).map (·.method)
  have hmethods : (s.methods.map s.binding).map (·.method) = s.methods := by
    rw [List.map_map]
    exact List.map_id s.methods
  rwa [hmethods] at hperm

end Discovery
end EventBus
