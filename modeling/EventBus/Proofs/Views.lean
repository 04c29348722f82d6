import EventBus.Proofs.Projections
import EventBus.Proofs.Verdicts

/-!
# Typed handlers of derived types

A typed handler sees an event of a derived type iff listed supertypes lead to its own type. A
flattening also lists markers and the root; a typed handler of those is called and refused.
-/

namespace EventBus

variable {σ ε α : Type}

/-- The binding is that of a typed handler of `u`, with a target of the handler's own type. -/
def Binding.Views (b : Binding) (types : SubscriberId → String) (u : EventType) : Prop :=
  ∃ name body, b.method = .typed (types b.target) name u body

theorem Binding.Views.shape {b : Binding} {types : SubscriberId → String} {u : EventType}
    (h : b.Views types u) : b.method.shape = .typed u := by
  obtain ⟨name, body, hm⟩ := h
  rw [hm]
  rfl

theorem Delivery.admitted_of_views {d : Delivery α} {types : SubscriberId → String} {u : EventType}
    (h : d.binding.Views types u) : d.admitted types =
      match d.event.view? u with
      | some v => .ok v
      | none => .error (.eventMismatch u.name d.event.type.name) := by
  obtain ⟨name, body, hm⟩ := h
  rw [admitted, Binding.accept, hm]
  exact if_pos rfl

namespace Family

variable {F : Family}

theorem Has.admitted {t u : EventType} {v : Value α} (h : F.Has t v) {d : Delivery α}
    (hd : d.event = v.event) {types : SubscriberId → String} (hb : d.binding.Views types u) :
    d.admitted types =
      match v.preorder.find? (·.type = u) with
      | some e => .ok e
      | none => .error (.eventMismatch u.name t.name) := by
  rw [Delivery.admitted_of_views hb, hd, h.view?_eq_project?, h.project?_eq_find?, h.type]

theorem Has.mismatch_iff {t u : EventType} {v : Value α} (h : F.Has t v) {d : Delivery α}
    (hd : d.event = v.event) {types : SubscriberId → String} (hb : d.binding.Views types u) :
    (∃ x y, d.admitted types = .error (.eventMismatch x y)) ↔ ¬F.Reaches t u := by
  rw [h.admitted hd hb, ← h.isSome_project?_iff, h.project?_eq_find?]
  cases v.preorder.find? (·.type = u) <;> simp

/-- Let `v` be a value of type `t` in a family of derived types. Projected to `u` it gives something
iff listed supertypes lead from `t` to `u`, and then the first value of type `u` in it. All such types
are in the flattening of `t`. When `v` is delivered to a typed handler of `u`, the handler's code runs
on that value, and if there is none the call settles with a mismatch. So in every run such a delivery
settles with a mismatch iff listed supertypes do not lead from `t` to `u`. -/
theorem views_follow_supertypes (F : Family) {g : TypeGraph} (hg : F.Declared g) {t : EventType}
    {v : Value α} (hv : F.Has t v) (u : EventType) :
    v.event.type = t ∧
      ((v.event.project? u).isSome ↔ F.Reaches t u) ∧
      v.event.project? u = v.preorder.find? (·.type = u) ∧
      (F.Reaches t u → u ∈ g.flatten t) ∧
      (∀ (code : Behaviour σ ε α) (w : World σ ε α) (c : Call σ ε α) (k : List (Frame σ ε α)),
        c.delivery.event = v.event → c.delivery.binding.Views w.subscriberType u →
        Machine.step code ⟨w, .call c, k⟩ =
          match v.preorder.find? (·.type = u) with
          | some e => ⟨w, .run (code.body c.delivery.binding.method.body c.delivery.binding.target e),
              .call c :: k⟩
          | none => ⟨w, .settle c (.error (.eventMismatch u.name t.name)), k⟩) ∧
      ∀ (crew : Crew σ ε α), crew.Fresh → ∀ code picks n, ∀ s ∈ (crew.after code picks n).strands,
        ∀ c o, s.control = .settle c o → c.delivery.event = v.event →
          c.delivery.binding.Views crew.world.subscriberType u →
          ((∃ x y, o = .error (.eventMismatch x y)) ↔ ¬F.Reaches t u) := by
  refine ⟨hv.type, hv.isSome_project?_iff u, hv.project?_eq_find? u, fun h => h.mem_flatten hg,
    ?called, ?settled⟩
  case called =>
    intro code w c k he hb
    show Machine.enter code w k c = _
    rw [Machine.enter_eq, hv.admitted he hb]
    cases v.preorder.find? (·.type = u) <;> rfl
  case settled =>
    intro crew hcrew code picks n s hs c o ho he hb
    rw [(hcrew.settles code picks n hs ho).mismatch_iff hb.shape, hv.mismatch_iff he hb]

end Family

/-! An order in an envelope within an urgent order, which holds another order after it. -/

namespace Ripple

open Source Expansion

def order : EventType := ⟨5, "Order"⟩
def envelope : EventType := ⟨6, "Envelope<Order>"⟩
def urgent : EventType := ⟨7, "Urgent"⟩
def audited : EventType := ⟨8, "Audited"⟩

def named (name : String) : Path := .single [] (name, [])

def enveloped : Path := .single [] ("Envelope", marks "<" ++ .word "Order" :: marks ">")

def tagged (arguments : List Tree) : Attribute :=
  ⟨false, [.word "event"], .arguments .parenthesis arguments⟩

def parent (name? : Option String) (type : Path) : Field :=
  ⟨[tagged [.word "parent"]], [], name?, .path type⟩

/-- What paths stand for; `E` is the parameter of an envelope of orders. -/
def denoted (text : String) : EventType :=
  if text = "Order" ∨ text = "E" then order
  else if text = "Envelope<Order>" then envelope
  else audited

def member (type : EventType) (item : Item) (i : Implementation) (h : derive item = .ok i) : Member :=
  ⟨type, item, i, h, fun p => denoted (pathText p), fun t => denoted (text t.trees),
    fun _ _ _ _ h => congrArg denoted h⟩

def orders : Member := member order
  { attributes := [tagged [.word "markers", .group .parenthesis [.word "Audited"]]]
    visibility := []
    name := "Order"
    generics := .empty
    data := .sum .empty }
  ⟨"Order", .empty, [named "Audited"], []⟩ rfl

def envelopes : Member := member envelope
  { attributes := [tagged [.word "supertypes", .group .parenthesis [.word "E"]]]
    visibility := []
    name := "Envelope"
    generics := ⟨⟨[.type [] [.word "E"] [] []], false⟩, []⟩
    data := .product (.named ⟨[parent (some "inner") (named "E")], false⟩) }
  ⟨"Envelope", ⟨⟨[.type [] [.word "E"] [] []], false⟩, []⟩, [named "E"], [.named "inner"]⟩ rfl

def urgents : Member := member urgent
  { attributes := [tagged [.word "supertypes", .group .parenthesis
      [.word "Envelope", .mark '<' false, .word "Order", .mark '>' false, .mark ',' false,
        .word "Order"]]]
    visibility := []
    name := "Urgent"
    generics := .empty
    data := .product (.tuple ⟨[parent none enveloped, parent none (named "Order")], false⟩) }
  ⟨"Urgent", .empty, [enveloped, named "Order"], [.position 0, .position 1]⟩ rfl

def family : Family := ⟨[orders, envelopes, urgents], by decide, by decide⟩

def graph : TypeGraph :=
  ((TypeGraph.mk .empty).declare order [audited]).declare envelope [order] |>.declare urgent
    [envelope, order]

theorem family_declared : family.Declared graph := by
  unfold Family.Declared
  decide

def ordered (n : Nat) : Value Nat := .derived orders n [] fun _ => .plain (.leaf audited 0 [])

def rush : Value Nat := .derived urgents 3 [] fun
  | .position 0 => .derived envelopes 2 [] fun _ => ordered 1
  | _ => ordered 9

theorem has_ordered (n : Nat) : family.Has order (ordered n) :=
  .derived (m := orders) List.mem_cons_self fun _ hp => nomatch hp

theorem has_rush : family.Has urgent rush := by
  have hfamily : orders ∈ family.members ∧ envelopes ∈ family.members ∧ urgents ∈ family.members := by
    simp [family]
  have hinner : ∀ p ∈ envelopes.item.parents, family.Has (envelopes.field p.type) (ordered 1) :=
    List.forall_mem_singleton.mpr (has_ordered 1)
  refine .derived (m := urgents) hfamily.2.2 ?_
  exact List.forall_mem_cons.mpr ⟨.derived (m := envelopes) hfamily.2.1 hinner,
    List.forall_mem_singleton.mpr (has_ordered 9)⟩

def clerk : Binding := ⟨0, .typed "Clerk" "on_order" order 0, order⟩

def auditor : Binding := ⟨0, .typed "Clerk" "on_audited" audited 1, audited⟩

def office : World Unit Unit Nat := ⟨graph, [⟨0, "Clerk", []⟩], [], 0, 1, (), []⟩

def filing : Behaviour Unit Unit Nat := ⟨fun _ _ _ => .finish .done, fun _ _ _ => .finish .done⟩

theorem rush_seen_as_inner_order :
    (family.Declared graph ∧ family.Has urgent rush) ∧
      (rush.event.project? order = some (ordered 1).event ∧ family.Reaches urgent order ∧
        order ∈ graph.flatten urgent ∧
        Machine.step filing ⟨office, .call ⟨⟨rush.event, clerk⟩, .delivery 0⟩, []⟩ =
          ⟨office, .run (filing.body 0 0 (ordered 1).event),
            [.call ⟨⟨rush.event, clerk⟩, .delivery 0⟩]⟩) ∧
      audited ∈ graph.flatten urgent ∧ ¬family.Reaches urgent audited ∧
      Machine.step filing ⟨office, .call ⟨⟨rush.event, auditor⟩, .delivery 0⟩, []⟩ =
        ⟨office, .settle ⟨⟨rush.event, auditor⟩, .delivery 0⟩
          (.error (.eventMismatch "Audited" "Urgent")), []⟩ := by
  obtain ⟨-, hsome, hfirst, hlisted, hclerk, -⟩ :=
    Family.views_follow_supertypes (σ := Unit) (ε := Unit) family family_declared has_rush order
  obtain ⟨-, hnone, -, -, hauditor, -⟩ :=
    Family.views_follow_supertypes (σ := Unit) (ε := Unit) family family_declared has_rush audited
  have hfound : rush.event.project? order = some (ordered 1).event := hfirst
  have hreaches : family.Reaches urgent order := hsome.mp (by rw [hfound]; rfl)
  refine ⟨⟨family_declared, has_rush⟩, ⟨hfound, hreaches, hlisted hreaches, ?_⟩, ?_, ?_, ?_⟩
  · exact hclerk filing office _ [] rfl ⟨_, _, rfl⟩
  · exact TypeGraph.mem_flatten_of_supertype (hlisted hreaches) (by decide) (by decide)
  · rw [← hnone]
    decide
  · exact hauditor filing office _ [] rfl ⟨_, _, rfl⟩

end Ripple
end EventBus
