import EventBus.Machine.Step
import EventBus.Proofs.Contents
import EventBus.Proofs.Routing
import Mathlib.Data.List.Induction

/-!
# Registrations are all or nothing

A registration fails only with its discovery. A withdrawal fails with its discovery, or at the first
binding of the map that is not registered, and then changes nothing. One that succeeds takes out each
binding of its map and moves no other.
-/

namespace EventBus

variable {σ ε α : Type}

/-! ## Maps in order -/

namespace Binding

theorem isIn_cons (b c : Binding) (bs : List Binding) :
    b.isIn (c :: bs) = (c.same b || b.isIn bs) := rfl

theorem eraseDupsBy_concat : ∀ (bs : List Binding) (b : Binding),
    (bs ++ [b]).eraseDupsBy same =
      if b.isIn bs then bs.eraseDupsBy same else bs.eraseDupsBy same ++ [b]
  | [], b => rfl
  | c :: bs, b => by
    rw [List.cons_append, List.eraseDupsBy_cons, List.eraseDupsBy_cons, List.filter_append, isIn_cons,
      same_comm c b]
    cases hbc : b.same c with
    | true => simp [hbc]
    | false =>
      have hsame : ∀ d e : Binding, d.same e = true → decide (d.same c = false) =
          decide (e.same c = false) := by
        intro d e hde
        rw [Bool.eq_iff_iff.mpr ⟨same_trans (same_comm d e ▸ hde), same_trans hde⟩]
      have hin : b.isIn (bs.filter fun d => d.same c = false) = b.isIn bs := by
        rw [isIn_filter hsame, hbc]
        rfl
      have hb : [b].filter (fun d => d.same c = false) = [b] := by simp [hbc]
      rw [hb, eraseDupsBy_concat _ b, hin, Bool.false_or]
      split <;> rfl
termination_by bs => bs.length
decreasing_by exact Nat.lt_succ_of_le (List.length_filter_le ..)

theorem isIn_eraseDupsBy (b : Binding) (bs : List Binding) :
    b.isIn (bs.eraseDupsBy same) = b.isIn bs := by
  induction bs using List.reverseRecOn with
  | nil => rfl
  | append_singleton bs c ih =>
    rw [eraseDupsBy_concat, isIn_append]
    split
    · rename_i hc
      rw [ih, isIn_singleton]
      cases hcb : c.same b with
      | true => rw [← isIn_congr hcb, hc]; rfl
      | false => rw [Bool.or_false]
    · rw [isIn_append, ih]

end Binding

namespace HandlerMap

theorem ofList_concat (bs : List Binding) (b : Binding) :
    ofList (bs ++ [b]) = (ofList bs).insert b := by
  rw [ofList, List.foldl_append]
  rfl

theorem types_insert (m : HandlerMap) (b : Binding) :
    (m.insert b).types = if b.type ∈ m.types then m.types else m.types ++ [b.type] := by
  unfold insert
  split
  · rename_i h
    -- A map that has the binding has a group of its type.
    have hne : m.get b.type ≠ [] := by
      intro hnil
      rw [contains, hnil] at h
      cases h
    exact (if_pos (m.grouping.mem_keys_iff.mpr hne)).symm
  · exact Table.keys_set m.groups b.type _

theorem types_ofList (bs : List Binding) :
    (ofList bs).types = (bs.map (·.type)).eraseDups := by
  induction bs using List.reverseRecOn with
  | nil => rfl
  | append_singleton bs b ih =>
    rw [ofList_concat, types_insert, ih, List.map_append, List.eraseDups_append]
    by_cases hb : b.type ∈ bs.map (·.type)
    · have hnone : [b.type].removeAll (bs.map (·.type)) = [] := by
        simpa [List.removeAll] using hb
      rw [if_pos (List.mem_eraseDups.mpr hb), List.map_singleton, hnone, List.eraseDups_nil,
        List.append_nil]
    · have hnew : [b.type].removeAll (bs.map (·.type)) = [b.type] := by
        simpa [List.removeAll] using hb
      rw [if_neg (mt List.mem_eraseDups.mp hb), List.map_singleton, hnew]
      rfl

theorem get_ofList (bs : List Binding) (t : EventType) :
    (ofList bs).get t = (bs.filter (·.type = t)).eraseDupsBy Binding.same := by
  induction bs using List.reverseRecOn with
  | nil => rfl
  | append_singleton bs b ih =>
    rw [ofList_concat, List.filter_append]
    by_cases hb : b.type = t
    · subst hb
      have hself : [b].filter (·.type = b.type) = [b] := by simp
      rw [get_insert_self, contains, ih, hself, Binding.eraseDupsBy_concat, Binding.isIn_eraseDupsBy]
    · have hnone : [b].filter (·.type = t) = [] := by simp [hb]
      rw [get_insert_ne _ (Ne.symm hb), ih, hnone, List.append_nil]

theorem toList_eq_flatMap (m : HandlerMap) : m.toList = m.types.flatMap m.get := by
  have hvalues : m.groups.values = m.types.map m.get := by
    rw [Table.values, types, Table.keys, List.map_map]
    refine List.map_congr_left fun g hg => ?_
    rw [Function.comp_apply, get, Table.get?_of_mem m.grouping.distinct hg]
    rfl
  rw [toList, hvalues, List.flatMap_def]

/-- A map lists its types as they first came, and the bindings of a type likewise. -/
theorem toList_ofList (bs : List Binding) :
    (ofList bs).toList = (bs.map (·.type)).eraseDups.flatMap fun t =>
      (bs.filter (·.type = t)).eraseDupsBy Binding.same := by
  rw [toList_eq_flatMap, types_ofList, funext (get_ofList bs)]

end HandlerMap

/-! ## Counting what a map takes out -/

/-- Bindings of which no two are the same, and which are all there, are found once each. -/
theorem Binding.countP_isIn : ∀ {cs bs : List Binding}, (bs.Pairwise fun b c => b.same c = false) →
    (cs.Pairwise fun b c => b.same c = false) → (∀ c ∈ cs, c.isIn bs = true) →
      bs.countP (·.isIn cs) = cs.length
  | [], bs, _, _, _ => List.countP_eq_zero.mpr fun _ _ => Bool.false_ne_true
  | c :: cs, bs, hbs, hcs, hin => by
    obtain ⟨hc, hcs⟩ := List.pairwise_cons.mp hcs
    obtain ⟨d, hd, hdc⟩ := isIn_iff.mp (hin c (List.mem_cons_self ..))
    -- The copy of `c` counts for `c`, and the others count for `cs`.
    have hone : bs.countP c.same = 1 := by
      rw [← countP_same hbs hd]
      refine List.countP_congr fun b _ => ?_
      exact ⟨same_trans hdc, same_trans (same_comm d c ▸ hdc)⟩
    have hrest : bs.countP (·.isIn cs) = cs.length :=
      countP_isIn hbs hcs fun e he => hin e (List.mem_cons_of_mem c he)
    have hself : (bs.filter c.same).countP (·.isIn (c :: cs)) = 1 := by
      rw [List.countP_filter, ← hone]
      exact List.countP_congr fun b _ => by simp +contextual [isIn_cons]
    have hothers : (bs.filter fun b => !c.same b).countP (·.isIn (c :: cs)) = cs.length := by
      rw [List.countP_filter, ← hrest]
      refine List.countP_congr fun b _ => ?_
      rw [isIn_cons]
      cases hcb : c.same b with
      | false => simp
      | true =>
        have hb : b.isIn cs = false := by
          rw [Bool.eq_false_iff]
          intro hb
          obtain ⟨e, he, heb⟩ := isIn_iff.mp hb
          have hce := hc e he
          rw [same_trans hcb (same_comm e b ▸ heb)] at hce
          cases hce
        simp [hb]
    rw [List.countP_eq_countP_filter_add bs _ c.same, hself, hothers, List.length_cons, Nat.add_comm]

/-! ## Removals -/

namespace Registry

variable {r r' : Registry} {m : HandlerMap}

/-- Of the bindings of the map, in its order, `x` is the first that is not there. -/
def FirstMissing (r : Registry) (m : HandlerMap) (x : Binding) : Prop :=
  ∃ front back, m.toList = front ++ x :: back ∧ (∀ y ∈ front, y.isIn (r.get y.type) = true) ∧
    x.isIn (r.get x.type) = false

theorem missing?_eq_some_iff {x : Binding} : r.missing? m = some x ↔ r.FirstMissing m x := by
  rw [missing?_eq_find?, List.find?_eq_some_iff_append]
  constructor
  · rintro ⟨hx, front, back, heq, hfront⟩
    exact ⟨front, back, heq, fun y hy => by simpa using hfront y hy, by simpa using hx⟩
  · rintro ⟨front, back, heq, hfront, hx⟩
    exact ⟨by simpa using hx, front, back, heq, fun y hy => by simpa using hfront y hy⟩

theorem removeAll_eq_error_iff {e : BusError} :
    r.removeAll m = .error e ↔ ∃ x, r.FirstMissing m x ∧ e = .unknownSubscriber x.subscriberName := by
  simp only [← missing?_eq_some_iff, removeAll]
  cases r.missing? m with
  | none => simp
  | some x => simp [eq_comm]

theorem exists_firstMissing_iff :
    (∃ x, r.FirstMissing m x) ↔ ∃ x ∈ m.toList, x.isIn (r.get x.type) = false := by
  simp only [← missing?_eq_some_iff, ← Option.isSome_iff_exists, missing?_eq_find?, List.find?_isSome,
    Bool.not_eq_true']

theorem get_removeAll_keyed (h : r.Orderly) (hr : r.removeAll m = .ok r') (t : EventType) :
    r'.get t = (r.get t).filter fun c => !m.contains c := by
  rw [get_removeAll hr]
  refine List.filter_congr fun c hc => ?_
  rw [HandlerMap.contains, h.keyed t c hc]

theorem isIn_removeAll (h : r.Orderly) (hr : r.removeAll m = .ok r') (c : Binding) :
    c.isIn (r'.get c.type) = (!m.contains c && c.isIn (r.get c.type)) := by
  rw [get_removeAll_keyed h hr, Binding.isIn_filter fun c d hcd => by rw [m.contains_congr hcd]]

/-- A type loses as many bindings as the map has for it. -/
theorem count_removeAll (h : r.Orderly) (hr : r.removeAll m = .ok r') (t : EventType) :
    r'.count t + (m.get t).length = r.count t := by
  have hall : ∀ c ∈ m.get t, c.isIn (r.get t) = true := by
    intro c hc
    obtain ⟨hc, ht⟩ := HandlerMap.mem_get_iff.mp hc
    exact ht ▸ (removeAll_eq_ok_iff.mp hr).1 c hc
  have hgone : (r.get t).countP (·.isIn (m.get t)) = (m.get t).length :=
    Binding.countP_isIn (h.single t) (m.single_get t) hall
  have hstay : ((r.get t).filter fun c => !c.isIn (m.get t)).length =
      (r.get t).countP fun c => decide ¬c.isIn (m.get t) = true := by
    simp [List.countP_eq_length_filter]
  rw [count, count, get_removeAll hr, hstay, ← hgone, Nat.add_comm,
    ← List.length_eq_countP_add_countP]

end Registry

/-! ## Buses -/

namespace Bus

variable {b : Bus α} {s : Subscriber}

theorem unregister_eq_error_iff_missing {e : BusError} : b.unregister s = .error e ↔
    b.discovery s = .error e ∨ ∃ m x, b.discovery s = .ok m ∧ b.registry.FirstMissing m x ∧
      e = .unknownSubscriber x.subscriberName := by
  simp only [unregister_eq_error_iff, Registry.removeAll_eq_error_iff, exists_and_left]

theorem unregister_fails_iff : (∃ e, b.unregister s = .error e) ↔
    (∃ e, b.discovery s = .error e) ∨
      ∃ m, b.discovery s = .ok m ∧ ∃ x ∈ m.toList, x.isIn (b.registry.get x.type) = false := by
  simp only [unregister_eq_error_iff_missing, exists_or, ← Registry.exists_firstMissing_iff]
  refine or_congr_right ⟨?_, ?_⟩
  · rintro ⟨e, m, x, hm, hx, -⟩
    exact ⟨m, hm, x, hx⟩
  · rintro ⟨m, hm, x, hx⟩
    exact ⟨_, m, x, hm, hx, rfl⟩

/-- What a program that registers or withdraws is told when that fails; its world stays as it is. -/
theorem refused_at {w : World σ ε α} {i : BusId} {j : SubscriberId} (hs : w.subscriber? j = some s)
    {next : Except BusError Unit → Program σ ε α} {k : List (Frame σ ε α)} {e : BusError} :
    ((w.bus i).register s = .error e →
      Machine.request w k (.register i j next) = ⟨w, .run (next (.error e)), k⟩) ∧
    ((w.bus i).unregister s = .error e →
      Machine.request w k (.unregister i j next) = ⟨w, .run (next (.error e)), k⟩) := by
  constructor <;> intro h <;>
    simp only [Machine.request, hs, World.register, World.unregister, h, bind, Except.bind]

/-- Whatever was asked of a bus before, a registration fails iff the discovery does, and a withdrawal
iff the discovery does or a binding of the map is not registered; its error then names the owner of
the first such binding. A failure changes nothing. A withdrawal that succeeds takes out each binding
of its map, and every other binding keeps its place. -/
theorem register_all_or_nothing (builder : Builder) (requests : List Request) (s : Subscriber) :
    let b : Bus α := builder.build.serveAll requests
    (∀ e, b.register s = .error e ↔ b.discovery s = .error e) ∧
      ((∃ e, b.unregister s = .error e) ↔ (∃ e, b.discovery s = .error e) ∨
        ∃ m, b.discovery s = .ok m ∧ ∃ x ∈ m.toList, x.isIn (b.registry.get x.type) = false) ∧
      (∀ e, b.unregister s = .error e ↔ b.discovery s = .error e ∨
        ∃ m x, b.discovery s = .ok m ∧ b.registry.FirstMissing m x ∧
          e = .unknownSubscriber x.subscriberName) ∧
      (∀ bs, (HandlerMap.ofList bs).toList = (bs.map (·.type)).eraseDups.flatMap fun t =>
        (bs.filter (·.type = t)).eraseDupsBy Binding.same) ∧
      (∀ request e, request = .register s ∧ b.register s = .error e ∨
          request = .unregister s ∧ b.unregister s = .error e →
        let b' := b.serve request
        b'.registry = b.registry ∧ (∀ t, b'.handlerCount t = b.handlerCount t) ∧
          (∀ s', b'.isRegistered s' = b.isRegistered s') ∧ ∀ g t, b'.resolve g t = b.resolve g t) ∧
      (∀ (w : World σ ε α) i j next k, w.bus i = b → w.subscriber? j = some s → ∀ e,
        (b.register s = .error e →
          Machine.request w k (.register i j next) = ⟨w, .run (next (.error e)), k⟩) ∧
        (b.unregister s = .error e →
          Machine.request w k (.unregister i j next) = ⟨w, .run (next (.error e)), k⟩)) ∧
      ∀ b' n, b.unregister s = .ok (b', n) → ∃ m r, b.discovery s = .ok m ∧
        b' = { b with registry := r } ∧ (∀ x ∈ m.toList, x.isIn (b.registry.get x.type) = true) ∧
        (∀ c, c.isIn (r.get c.type) = (!m.contains c && c.isIn (b.registry.get c.type))) ∧
        (∀ t, r.get t = (b.registry.get t).filter fun c => !m.contains c) ∧
        ∀ t, b'.handlerCount t + (m.get t).length = b.handlerCount t := by
  intro b
  have hb : b.Orderly := (Orderly.build builder).serveAll requests
  refine ⟨fun e => register_eq_error_iff, unregister_fails_iff, fun e => unregister_eq_error_iff_missing,
    HandlerMap.toList_ofList, ?failed, ?machine, ?succeeded⟩
  case failed =>
    intro request e h
    have hsame : b.serve request = b := by
      rcases h with ⟨rfl, h⟩ | ⟨rfl, h⟩ <;> simp only [serve, h]
    rw [hsame]
    exact ⟨rfl, fun _ => rfl, fun _ => rfl, fun _ _ => rfl⟩
  case machine =>
    intro w i j next k hw hs e
    rw [← hw]
    exact refused_at hs
  case succeeded =>
    intro b' n h
    obtain ⟨m, r, hm, hr, rfl, -⟩ := unregister_eq_ok_iff.mp h
    have hall := (Registry.removeAll_eq_ok_iff.mp hr).1
    exact ⟨m, r, hm, rfl, hall, Registry.isIn_removeAll hb.registry hr,
      Registry.get_removeAll_keyed hb.registry hr, Registry.count_removeAll hb.registry hr⟩

end Bus
end EventBus
