import EventBus.Proofs.Emissions
import EventBus.Proofs.Readings
import Mathlib.Data.List.Forall2
import Mathlib.Data.List.ReduceOption

/-!
# Which methods become handlers

A block becomes a subscriber just if it is inherent and each of its marked methods is fit to be a
handler. It is emitted without the marks, and after it an implementation that lists one handler for
each marked method, in order. If some are unfit, there is one error for each of them, in order.
-/

namespace EventBus

open Source Expansion

/-! ## Marks in a list of attributes -/

section

variable {β : Type} (p : β → Bool)

theorem filter_eraseP (l : List β) : (l.eraseP p).filter p = (l.filter p).tail := by
  induction l with
  | nil => rfl
  | cons a l ih =>
    cases ha : p a with
    | true => simp [ha]
    | false => simp [ha, ih]

theorem eraseP_eq_filter {l : List β} (h : (l.filter p).length ≤ 1) :
    l.eraseP p = l.filter (!p ·) := by
  induction l with
  | nil => rfl
  | cons a l ih =>
    cases ha : p a with
    | true =>
      have hnone : l.filter p = [] := by simpa [ha] using h
      rw [List.filter_eq_nil_iff] at hnone
      have hall : l.filter (!p ·) = l :=
        List.filter_eq_self.mpr fun b hb => by simpa using hnone b hb
      simp [ha, hall]
    | false => simp [ha, ih (by simpa [ha] using h)]

end

namespace Source

/-! ## What is asked of a handler -/

/-- A trait object with a bound whose last segment is `Event`, in any number of parentheses or groups,
of which only the type inside counts. -/
inductive Ty.IsEventObject : Ty → Prop
  | object {trees : List Tree} {bounds : List Bound} {bare : Bool} (h : .trait "Event" ∈ bounds) :
    IsEventObject (.object trees bounds bare)
  | paren {trees : List Tree} {inner : Ty} (h : inner.IsEventObject) :
    IsEventObject (.paren trees inner)

/-- What a mark names: nothing, or a single type. -/
inductive AttributeBody.Names : AttributeBody → Option Ty → Prop
  | bare : Names .empty none
  | blank {d : Delimiter} : Names (.arguments d []) none
  | type {d : Delimiter} {ts : List Tree} {t : Ty} (hne : ts ≠ [])
    (h : readWhole (·.type true) ts = .ok t) : Names (.arguments d ts) (some t)

namespace MethodItem

def ownMarks (m : MethodItem) : List Attribute := m.attributes.filter isMark

def isMarked (m : MethodItem) : Bool := !m.ownMarks.isEmpty

def withoutMarks (m : MethodItem) : MethodItem :=
  { m with attributes := m.attributes.filter (!isMark ·) }

/-- The method is marked once, and handles `event`; its mark names what is given. -/
structure Handles (m : MethodItem) (event : Ty) (named : Option Ty) : Prop where
  marked : ∃ a, m.ownMarks = [a] ∧ a.body.Names named
  sync : m.signature.isAsync = false
  plain : m.signature.generics.params.items = []
  inputs : ∃ self pattern sign, m.signature.inputs.items =
    [.receiver self true, .parameter pattern (.reference sign false event)]
  fitting : named ≠ none → event.IsEventObject

/-- The method is fit to be a handler. -/
def IsHandler (m : MethodItem) : Prop := ∃ event named, m.Handles event named

/-- The method is marked and yet no handler. -/
def IsUnfit (m : MethodItem) : Prop := m.isMarked = true ∧ ¬m.IsHandler

/-- The handler that a method becomes: of the very event, or of the named type, if any. -/
inductive Becomes (m : MethodItem) : Descriptor → Prop
  | typed {event : Ty} (h : m.Handles event none) (hevent : ¬event.IsEventObject) :
    Becomes m (.typed m.signature.name event.trees)
  | erased {event : Ty} {named : Option Ty} (h : m.Handles event named)
    (hevent : event.IsEventObject) : Becomes m (.erased m.signature.name (named.map (·.trees)))

end MethodItem

def methodsOf : List Member → List MethodItem
  | [] => []
  | .method m :: ms => m :: methodsOf ms
  | .other _ :: ms => methodsOf ms

def Member.withoutMarks : Member → Member
  | .method m => .method m.withoutMarks
  | .other ts => .other ts

namespace Block

def methods (b : Block) : List MethodItem := methodsOf b.members

def withoutMarks (b : Block) : Block := { b with members := b.members.map Member.withoutMarks }

end Block

theorem Ty.isDynEvent_iff {t : Ty} : t.isDynEvent = true ↔ t.IsEventObject := by
  constructor
  · intro h
    induction t with
    | object trees bounds bare => exact .object (List.contains_iff_mem.mp h)
    | paren trees inner ih => exact .paren (ih h)
    | path | reference | other => cases h
  · intro h
    induction h with
    | object h => exact List.contains_iff_mem.mpr h
    | paren _ ih => exact ih

end Source

namespace Expansion

open Source.Reader

/-! ## What a mark names -/

theorem readWhole_optional {ts : List Tree} (hne : ts ≠ []) {named : Option Ty} :
    readWhole (fun g => do if ← atEnd then return none else return some (← g.type true)) ts =
        .ok named ↔ ∃ t, readWhole (·.type true) ts = .ok t ∧ some t = named := by
  obtain ⟨t, ts, rfl⟩ := List.exists_cons_of_ne_nil hne
  unfold readWhole
  simp only [readAll_eq_ok_iff]
  show ((Grammar.of (t :: ts)).type true >>= fun event => pure (some event)) ⟨t :: ts, none⟩ = _ ↔ _
  simp only [Reader.bind_eq_ok_iff, Reader.pure_eq_ok_iff]
  constructor
  · rintro ⟨event, s', h, rfl, rfl⟩
    exact ⟨event, h, rfl⟩
  · rintro ⟨event, h, rfl⟩
    exact ⟨event, _, h, rfl, rfl⟩

theorem namedType_eq_ok_iff {a : Attribute} {named : Option Ty} :
    namedType a = .ok named ↔ a.body.Names named := by
  unfold namedType Attribute.readArguments
  cases a.body with
  | empty =>
    constructor <;> intro h <;> cases h
    · exact .bare
    · rfl
  | value ts =>
    constructor <;> intro h <;> cases h
  | arguments d ts =>
    by_cases hts : ts = []
    · subst hts
      constructor <;> intro h
      · cases h
        exact .blank
      · cases h with
        | blank => rfl
        | type hne => exact absurd rfl hne
    · refine (readWhole_optional hts).trans ⟨?_, fun h => ?_⟩
      · rintro ⟨t, ht, rfl⟩
        exact .type hts ht
      · cases h with
        | blank => exact absurd rfl hts
        | type _ ht => exact ⟨_, ht, rfl⟩

/-! ## One method -/

theorem eventType_eq_ok_iff {s : Signature} {event : Ty} : eventType s = .ok event ↔
    ∃ self pattern sign, s.inputs.items =
      [.receiver self true, .parameter pattern (.reference sign false event)] := by
  unfold eventType
  constructor
  · intro h
    split at h
    · rename_i hs
      cases h
      exact ⟨_, _, _, hs⟩
    all_goals cases h
  · rintro ⟨self, pattern, sign, hs⟩
    rw [hs]

theorem describe_eq_ok_iff {s : Signature} {named : Option Ty} {d : Descriptor} :
    describe s named = .ok d ↔ s.isAsync = false ∧ s.generics.params.items = [] ∧
      ∃ event, eventType s = .ok event ∧
        (event.isDynEvent = true ∧ d = .erased s.name (named.map (·.trees)) ∨
          event.isDynEvent = false ∧ named = none ∧ d = .typed s.name event.trees) := by
  unfold describe Generics.isEmpty
  rw [← List.isEmpty_iff]
  cases s.isAsync with
  | true => simp [throw, throwThe, MonadExceptOf.throw, bind, Except.bind]
  | false =>
    cases s.generics.params.items.isEmpty with
    | false => simp [throw, throwThe, MonadExceptOf.throw, bind, Except.bind]
    | true =>
      cases eventType s with
      | error e => simp [bind, Except.bind]
      | ok event =>
        cases hevent : event.isDynEvent with
        | true =>
          simp [bind, Except.bind, pure, Except.pure, hevent]
          exact eq_comm
        | false =>
          cases named with
          | some t => simp [throw, throwThe, MonadExceptOf.throw, bind, Except.bind, hevent]
          | none =>
            simp [bind, Except.bind, pure, Except.pure, hevent]
            exact eq_comm

/-- A method is looked at by its marks: it must have one, and more are too many. -/
theorem methodDescriptor?_eq (m : MethodItem) : methodDescriptor? m =
    match m.ownMarks with
    | [] => .ok none
    | [a] =>
      match namedType a with
      | .error e => .error (.malformed e)
      | .ok named => (describe m.signature named).map some
    | _ :: _ :: _ => .error .repeatedMark := by
  have hfirst : m.attributes.find? isMark = m.ownMarks.head? := List.head?_filter.symm
  have hmore : (unmarked m).attributes.filter isMark = m.ownMarks.tail :=
    filter_eraseP isMark m.attributes
  have hany : (unmarked m).attributes.any isMark = !m.ownMarks.tail.isEmpty := by
    rw [← hmore, Bool.eq_iff_iff]
    simp [List.filter_eq_nil_iff]
  unfold methodDescriptor?
  rw [hfirst, hany]
  cases m.ownMarks with
  | nil => rfl
  | cons a marks => cases marks <;> rfl

theorem isMarked_eq_false_iff {m : MethodItem} : m.isMarked = false ↔ m.ownMarks = [] := by
  simp [MethodItem.isMarked]

theorem methodDescriptor?_eq_none_iff {m : MethodItem} :
    methodDescriptor? m = .ok none ↔ m.isMarked = false := by
  rw [methodDescriptor?_eq, isMarked_eq_false_iff]
  split
  · rename_i h
    exact iff_of_true rfl h
  · rename_i a h
    rw [h]
    cases namedType a with
    | error e => simp
    | ok named => cases hd : describe m.signature named <;> simp [hd, Except.map]
  · rename_i h
    rw [h]
    simp

theorem becomes_of_describe {m : MethodItem} {a : Attribute} {named : Option Ty} {d : Descriptor}
    (hmarks : m.ownMarks = [a]) (hnames : a.body.Names named)
    (hd : describe m.signature named = .ok d) : m.Becomes d := by
  obtain ⟨hsync, hplain, event, hevent, hkind⟩ := describe_eq_ok_iff.mp hd
  have hmarked : ∃ a, m.ownMarks = [a] ∧ a.body.Names named := ⟨a, hmarks, hnames⟩
  have hinputs := eventType_eq_ok_iff.mp hevent
  rcases hkind with ⟨hobject, rfl⟩ | ⟨hobject, rfl, rfl⟩
  · have hfit := Ty.isDynEvent_iff.mp hobject
    exact .erased ⟨hmarked, hsync, hplain, hinputs, fun _ => hfit⟩ hfit
  · refine .typed ⟨hmarked, hsync, hplain, hinputs, fun h => absurd rfl h⟩ ?_
    intro hfit
    rw [Ty.isDynEvent_iff.mpr hfit] at hobject
    cases hobject

theorem describe_of_becomes {m : MethodItem} {d : Descriptor} (h : m.Becomes d) :
    ∃ a named, m.ownMarks = [a] ∧ a.body.Names named ∧ describe m.signature named = .ok d := by
  cases h with
  | typed h hevent =>
    obtain ⟨⟨a, hmarks, hnames⟩, hsync, hplain, hinputs, -⟩ := h
    have hobject : Ty.isDynEvent _ = false :=
      Bool.eq_false_iff.mpr fun hobject => hevent (Ty.isDynEvent_iff.mp hobject)
    exact ⟨a, none, hmarks, hnames, describe_eq_ok_iff.mpr
      ⟨hsync, hplain, _, eventType_eq_ok_iff.mpr hinputs, .inr ⟨hobject, rfl, rfl⟩⟩⟩
  | @erased event named h hevent =>
    obtain ⟨⟨a, hmarks, hnames⟩, hsync, hplain, hinputs, -⟩ := h
    exact ⟨a, named, hmarks, hnames, describe_eq_ok_iff.mpr ⟨hsync, hplain, event,
      eventType_eq_ok_iff.mpr hinputs, .inl ⟨Ty.isDynEvent_iff.mpr hevent, rfl⟩⟩⟩

theorem methodDescriptor?_eq_some_iff {m : MethodItem} {d : Descriptor} :
    methodDescriptor? m = .ok (some d) ↔ m.Becomes d := by
  rw [methodDescriptor?_eq]
  constructor
  · intro h
    split at h
    · cases h
    · rename_i a hmarks
      split at h
      · cases h
      · rename_i named hnamed
        cases hd : describe m.signature named with
        | error e =>
          rw [hd] at h
          cases h
        | ok d' =>
          rw [hd] at h
          cases h
          exact becomes_of_describe hmarks (namedType_eq_ok_iff.mp hnamed) hd
    · cases h
  · intro h
    obtain ⟨a, named, hmarks, hnames, hd⟩ := describe_of_becomes h
    rw [hmarks]
    simp only [namedType_eq_ok_iff.mpr hnames, hd]
    rfl

theorem isHandler_iff {m : MethodItem} : m.IsHandler ↔ ∃ d, m.Becomes d := by
  constructor
  · rintro ⟨event, named, h⟩
    by_cases hevent : event.IsEventObject
    · exact ⟨_, .erased h hevent⟩
    · cases named with
      | none => exact ⟨_, .typed h hevent⟩
      | some t => exact absurd (h.fitting (Option.some_ne_none t)) hevent
  · rintro ⟨d, h⟩
    cases h with
    | typed h _ => exact ⟨_, _, h⟩
    | erased h _ => exact ⟨_, _, h⟩

theorem isUnfit_iff {m : MethodItem} : m.IsUnfit ↔ ∃ e, methodDescriptor? m = .error e := by
  unfold MethodItem.IsUnfit
  rw [isHandler_iff, ← Bool.not_eq_false, ← methodDescriptor?_eq_none_iff]
  simp only [← methodDescriptor?_eq_some_iff]
  cases methodDescriptor? m with
  | error e => simp
  | ok d? => cases d? <;> simp

/-! ## All members of a block -/

def error? {ε α : Type} : Except ε α → Option ε
  | .ok _ => none
  | .error e => some e

/-- Errors are collected in their order, and results only if there is none. -/
theorem collect_cases {ε α : Type} (rs : List (Except ε α)) :
    rs.filterMap error? = [] ∧ (∃ as, collect rs = .ok as) ∨
      rs.filterMap error? ≠ [] ∧ collect rs = .error (rs.filterMap error?) := by
  induction rs with
  | nil => exact .inl ⟨rfl, [], rfl⟩
  | cons r rs ih =>
    cases r with
    | ok a =>
      rw [List.filterMap_cons_none rfl]
      rcases ih with ⟨hnone, as, has⟩ | ⟨hne, hes⟩
      · exact .inl ⟨hnone, a :: as, by rw [collect, has]; rfl⟩
      · exact .inr ⟨hne, by rw [collect, hes]; rfl⟩
    | error e =>
      have herrors : (Except.error e :: rs).filterMap error? = e :: rs.filterMap error? :=
        List.filterMap_cons_some rfl
      rw [herrors]
      refine .inr ⟨List.cons_ne_nil _ _, ?_⟩
      rcases ih with ⟨hnone, as, has⟩ | ⟨hne, hes⟩
      · rw [collect, has, hnone]
      · rw [collect, hes]

/-- The marked methods become the handlers, in their order. -/
theorem handlers_iff {ms : List Member} {hs : List Descriptor} :
    (∃ ds : List (Option Descriptor), ms.map descriptor? = ds.map .ok ∧ ds.reduceOption = hs) ↔
      List.Forall₂ MethodItem.Becomes ((methodsOf ms).filter (·.isMarked)) hs := by
  induction ms generalizing hs with
  | nil =>
    constructor
    · rintro ⟨ds, hds, rfl⟩
      rw [List.map_eq_nil_iff.mp hds.symm]
      exact .nil
    · intro h
      cases h
      exact ⟨[], rfl, rfl⟩
  | cons m ms ih =>
    cases m with
    | other ts =>
      rw [methodsOf, ← ih]
      constructor
      · rintro ⟨ds, hds, rfl⟩
        obtain ⟨d, ds, rfl, hd, hrest⟩ := List.map_eq_cons_iff.mp hds.symm
        cases hd
        exact ⟨ds, hrest.symm, rfl⟩
      · rintro ⟨ds, hds, rfl⟩
        exact ⟨none :: ds, by rw [List.map_cons, hds]; rfl, rfl⟩
    | method m =>
      rw [methodsOf]
      cases hm : m.isMarked with
      | false =>
        have hnone := methodDescriptor?_eq_none_iff.mpr hm
        rw [List.filter_cons_of_neg (by simp [hm]), ← ih]
        constructor
        · rintro ⟨ds, hds, rfl⟩
          obtain ⟨d, ds, rfl, hd, hrest⟩ := List.map_eq_cons_iff.mp hds.symm
          cases hnone.symm.trans hd.symm
          exact ⟨ds, hrest.symm, rfl⟩
        · rintro ⟨ds, hds, rfl⟩
          refine ⟨none :: ds, ?_, rfl⟩
          rw [List.map_cons, hds]
          exact congrArg (· :: ds.map .ok) hnone
      | true =>
        rw [List.filter_cons_of_pos hm]
        constructor
        · rintro ⟨ds, hds, rfl⟩
          obtain ⟨d?, ds, rfl, hd, hrest⟩ := List.map_eq_cons_iff.mp hds.symm
          cases d? with
          | none =>
            have hunmarked := methodDescriptor?_eq_none_iff.mp hd.symm
            rw [hm] at hunmarked
            cases hunmarked
          | some d =>
            exact .cons (methodDescriptor?_eq_some_iff.mp hd.symm) (ih.mp ⟨ds, hrest.symm, rfl⟩)
        · intro h
          cases h with
          | cons hd hrest =>
            obtain ⟨ds, hds, rfl⟩ := ih.mpr hrest
            refine ⟨some _ :: ds, ?_, rfl⟩
            rw [List.map_cons, hds]
            exact congrArg (· :: ds.map .ok) (methodDescriptor?_eq_some_iff.mpr hd)

instance : DecidablePred MethodItem.IsUnfit := fun m =>
  decidable_of_iff ((error? (methodDescriptor? m)).isSome = true) (by
    rw [isUnfit_iff]
    cases methodDescriptor? m <;> simp [error?])

/-- There is one error for each unfit method, in their order. -/
theorem errors_of_unfit (ms : List Member) :
    List.Forall₂ (fun m e => methodDescriptor? m = .error e)
      ((methodsOf ms).filter (·.IsUnfit)) ((ms.map descriptor?).filterMap error?) := by
  induction ms with
  | nil => exact .nil
  | cons m ms ih =>
    cases m with
    | other ts => exact ih
    | method m =>
      rw [methodsOf, List.map_cons]
      by_cases hm : m.IsUnfit
      · obtain ⟨e, he⟩ := isUnfit_iff.mp hm
        have herror : error? (descriptor? (.method m)) = some e := by
          show error? (methodDescriptor? m) = some e
          rw [he]
          rfl
        rw [List.filter_cons_of_pos (by simpa using hm), List.filterMap_cons_some herror]
        exact .cons he ih
      · have hnone : error? (descriptor? (.method m)) = none := by
          unfold descriptor?
          cases he : methodDescriptor? m with
          | ok d => exact congrArg error? he
          | error e => exact absurd (isUnfit_iff.mpr ⟨e, he⟩) hm
        rw [List.filter_cons_of_neg (by simp [hm]), List.filterMap_cons_none hnone]
        exact ih

/-- Where no method is marked twice, taking one mark out of each takes all of them out. -/
theorem unmarkedMember_eq {m : Member} {d? : Option Descriptor} (h : descriptor? m = .ok d?) :
    unmarkedMember m = m.withoutMarks := by
  cases m with
  | other ts => rfl
  | method m =>
    have hone : m.ownMarks.length ≤ 1 := by
      cases d? with
      | none =>
        rw [isMarked_eq_false_iff.mp (methodDescriptor?_eq_none_iff.mp h)]
        exact Nat.zero_le 1
      | some d =>
        obtain ⟨event, named, hhandles⟩ := isHandler_iff.mpr ⟨d, methodDescriptor?_eq_some_iff.mp h⟩
        obtain ⟨a, ha, -⟩ := hhandles.marked
        rw [ha]
        exact Nat.le_refl 1
    show Member.method (unmarked m) = .method m.withoutMarks
    rw [unmarked, eraseP_eq_filter isMark hone]
    rfl

theorem map_unmarkedMember {ms : List Member} {ds : List (Option Descriptor)}
    (h : ms.map descriptor? = ds.map .ok) : ms.map unmarkedMember = ms.map Member.withoutMarks := by
  apply List.map_congr_left
  intro m hm
  obtain ⟨d?, -, hd⟩ := List.mem_map.mp (h ▸ List.mem_map_of_mem (f := descriptor?) hm)
  exact unmarkedMember_eq hd.symm

/-! ## What is emitted -/

/-- The type a handler of any event is registered for where its mark names none. -/
def anyEvent : List Tree := rooted ["eventide", "AnyEvent"]

namespace Descriptor

/-- The name of the method as a text, what comes between, and the method itself. -/
def arguments (name : String) (between : List Tree) : List Tree :=
  call (rooted ["core", "stringify"] ++ marks "!") [.word name] ++ marks "," ++ between ++
    (.word "Self" :: rooted [name]) ++ marks ","

/-- The handler as it stands in the list. -/
def trees : Descriptor → List Tree
  | typed name event =>
    call (rooted ["eventide", "HandlerMethod", "typed"] ++ marks "::" ++
        angle (.word "Self" :: marks "," ++ event ++ (marks "," ++ [.word "_"])))
      (arguments name [])
  | erased name event? =>
    call (rooted ["eventide", "HandlerMethod", "erased"] ++ marks "::" ++
        angle (.word "Self" :: marks "," ++ [.word "_"]))
      (arguments name (eventTypeOf (event?.getD anyEvent) ++ marks ","))

theorem text_arguments (name : String) (between : List Tree) :
    Source.text (arguments name between) =
      nameText name ++ Source.text between ++ "Self::" ++ unspaced name ++ "," := by
  have hpath : Source.text (rooted ["core", "stringify"] ++ marks "!") = "::core::stringify!" := by
    decide +kernel
  have hself : Source.text (.word "Self" :: rooted [name]) = "Self::" ++ unspaced name := by
    have hhead : Source.text (.word "Self" :: marks "::") = "Self::" := by decide +kernel
    show Source.text (.word "Self" :: marks "::" ++ [.word name]) = _
    rw [text_append, hhead, text_word]
  rw [arguments, text_append, text_append, text_append, text_append, text_call, hpath, hself, text_word,
    text_comma]
  unfold nameText
  simp [← String.toList_inj]

theorem text_eq (d : Descriptor) : d.text = Source.text d.trees := by
  cases d with
  | typed name event =>
    have hpath : Source.text (rooted ["eventide", "HandlerMethod", "typed"] ++ marks "::") =
        "::eventide::HandlerMethod::typed::" := by decide +kernel
    have hself : Source.text (.word "Self" :: marks ",") = "Self," := by decide +kernel
    have hlast : Source.text (marks "," ++ [.word "_"]) = ",_" := by decide +kernel
    rw [trees, text_call, text_append, hpath, text_angle, text_append, text_append, hself, hlast,
      text_arguments, Source.text]
    unfold text
    simp [← String.toList_inj]
  | erased name event? =>
    have hpath : Source.text (rooted ["eventide", "HandlerMethod", "erased"] ++ marks "::" ++
          angle (.word "Self" :: marks "," ++ [.word "_"])) =
        "::eventide::HandlerMethod::erased::<Self,_>" := by decide +kernel
    have hany : event?.elim "::eventide::AnyEvent" Source.text =
        Source.text (event?.getD anyEvent) := by
      cases event? with
      | none => decide +kernel
      | some event => rfl
    rw [trees, text_call, hpath, text_arguments, text_append, text_eventTypeOf, text_comma, ← hany]
    unfold text
    simp [← String.toList_inj]

theorem text_erased_none (name : String) :
    (erased name none).text = (erased name (some anyEvent)).text := by
  rw [text_eq, text_eq]
  rfl

end Descriptor

namespace Subscription

def handlerMethods (ds : List Descriptor) : List Tree :=
  method "handler_methods" (byRef [.word "self"])
    (vectorOf (rooted ["eventide", "HandlerMethod"])) (vector (ds.map (·.trees)))

def asAny : List Tree := method "as_any" (byRef [.word "self"]) anyObject [.word "self"]

/-- The implementation that makes the type of the block a subscriber with these handlers. -/
def implementation (b : Block) (ds : List Descriptor) : List Tree :=
  implementing "Subscriber" b.generics b.self (handlerMethods ds ++ asAny)

theorem text_handlerMethods (ds : List Descriptor) :
    Source.text (handlerMethods ds) =
      "fnhandler_methods(&self)->::std::vec::Vec<::eventide::HandlerMethod>" ++
        "\x7b::std::vec![" ++ ",".intercalate (ds.map (·.text)) ++ "]\x7d" := by
  have hheader : Source.text (header "handler_methods" (byRef [.word "self"])
      (vectorOf (rooted ["eventide", "HandlerMethod"]))) =
        "fnhandler_methods(&self)->::std::vec::Vec<::eventide::HandlerMethod>" := by
    decide +kernel
  have htexts : (ds.map (·.trees)).map Source.text = ds.map (·.text) := by
    rw [List.map_map]
    exact List.map_congr_left fun d _ => d.text_eq.symm
  rw [handlerMethods, text_method, hheader, text_vector, htexts]
  simp [← String.toList_inj]

/-- What is emitted is the block, and then the implementation. -/
theorem text_eq (s : Subscription) :
    s.text = Source.text (s.block.trees ++ implementation s.block s.handlers) := by
  have htrait : Source.text (rooted ["eventide", "Subscriber"] ++ [.word "for"]) =
      "::eventide::Subscriberfor" := by decide +kernel
  have hasAny : Source.text asAny = "fnas_any(&self)->&dyn::std::any::Any\x7bself\x7d" := by
    decide +kernel
  rw [text_append, implementation, text_implementing, htrait, text_append, text_handlerMethods, hasAny]
  unfold text implementationText
  simp [← String.toList_inj]

end Subscription

/-! ## The block -/

theorem subscribe_of_trait {b : Block} (h : b.trait? ≠ none) : subscribe b = .error [.hasTrait] := by
  unfold subscribe
  rw [if_pos (Option.isSome_iff_ne_none.mpr h)]

theorem subscribe_of_inherent {b : Block} (h : b.trait? = none) :
    subscribe b = match collect (b.members.map descriptor?) with
      | .ok ds => .ok ⟨{ b with members := b.members.map unmarkedMember }, ds.reduceOption⟩
      | .error es => .error (es.map .method) := by
  unfold subscribe
  rw [h]
  rfl

/-- No method is unfit just if there is no error to collect. -/
theorem no_errors_iff {ms : List Member} :
    (ms.map descriptor?).filterMap error? = [] ↔
      ∀ m ∈ methodsOf ms, m.isMarked = true → m.IsHandler := by
  have herrors := errors_of_unfit ms
  constructor
  · intro hnone m hm hmarked
    rw [hnone] at herrors
    have hfit := List.filter_eq_nil_iff.mp (List.forall₂_nil_right_iff.mp herrors) m hm
    by_contra hm
    exact hfit (decide_eq_true ⟨hmarked, hm⟩)
  · intro hfit
    have hnone : (methodsOf ms).filter (·.IsUnfit) = [] := by
      apply List.filter_eq_nil_iff.mpr
      intro m hm hunfit
      obtain ⟨hmarked, hunfit⟩ := of_decide_eq_true hunfit
      exact hunfit (hfit m hm hmarked)
    rw [hnone] at herrors
    exact List.forall₂_nil_left_iff.mp herrors

theorem subscribe_eq_ok_iff {b : Block} (h : b.trait? = none) {s : Subscription} :
    subscribe b = .ok s ↔ s.block = b.withoutMarks ∧
      List.Forall₂ MethodItem.Becomes (b.methods.filter (·.isMarked)) s.handlers := by
  rw [subscribe_of_inherent h]
  constructor
  · intro hs
    cases hds : collect (b.members.map descriptor?) with
    | error es =>
      rw [hds] at hs
      cases hs
    | ok ds =>
      rw [hds] at hs
      cases hs
      have hmembers := eq_map_ok_of_collect hds
      exact ⟨congrArg ({ b with members := · }) (map_unmarkedMember hmembers),
        handlers_iff.mp ⟨ds, hmembers, rfl⟩⟩
  · rintro ⟨hblock, hbecome⟩
    obtain ⟨ds, hmembers, hds⟩ := handlers_iff.mpr hbecome
    rw [hmembers, collect_map_ok, map_unmarkedMember hmembers]
    show Except.ok (Subscription.mk b.withoutMarks ds.reduceOption) = .ok s
    rw [hds, ← hblock]

theorem exists_subscribe_iff {b : Block} (h : b.trait? = none) :
    (∃ s, subscribe b = .ok s) ↔ ∀ m ∈ b.methods, m.isMarked = true → m.IsHandler := by
  rw [subscribe_of_inherent h]
  unfold Block.methods
  rw [← no_errors_iff]
  rcases collect_cases (b.members.map descriptor?) with ⟨hnone, ds, hcollect⟩ | ⟨hne, hcollect⟩
  · rw [hcollect]
    exact iff_of_true ⟨_, rfl⟩ hnone
  · rw [hcollect]
    refine iff_of_false ?_ hne
    rintro ⟨s, hs⟩
    cases hs

theorem subscribe_eq_error_iff {b : Block} (h : b.trait? = none) {es : List BlockError} :
    subscribe b = .error es ↔
      es ≠ [] ∧ ∃ faults, es = faults.map .method ∧
        List.Forall₂ (fun m e => methodDescriptor? m = .error e)
          (b.methods.filter (·.IsUnfit)) faults := by
  have herrors := errors_of_unfit b.members
  -- the faults are the collected errors, since a method has one fault at most
  have hunique : Relator.RightUnique fun (m : MethodItem) e => methodDescriptor? m = .error e := by
    intro m e e' he he'
    exact Except.error.inj (he.symm.trans he')
  have hfaults : ∀ faults, List.Forall₂ (fun m e => methodDescriptor? m = .error e)
      (b.methods.filter (·.IsUnfit)) faults ↔
        faults = (b.members.map descriptor?).filterMap error? := by
    intro faults
    constructor
    · intro h
      exact List.right_unique_forall₂' hunique h herrors
    · rintro rfl
      exact herrors
  simp only [hfaults, exists_eq_right]
  rw [subscribe_of_inherent h]
  rcases collect_cases (b.members.map descriptor?) with ⟨hnone, ds, hcollect⟩ | ⟨hne, hcollect⟩
  · rw [hcollect, hnone]
    constructor
    · intro h
      cases h
    · rintro ⟨hne, rfl⟩
      exact absurd rfl hne
  · rw [hcollect]
    constructor
    · intro h
      cases h
      exact ⟨mt List.map_eq_nil_iff.mp hne, rfl⟩
    · rintro ⟨-, rfl⟩
      rfl

end Expansion
end EventBus
