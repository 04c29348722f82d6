import EventBus.Source.Nesting

/-!
# Turning an implementation block into a subscriber

In an inherent implementation block the methods marked `subscribe` become the handlers of a
subscriber. A handler takes `&self` and one event by shared reference. For a trait object the
mark may name the event type, and the handler then receives the event as it was posted. What is
wrong with any of the methods is reported together; a block without errors is emitted again
without the marks, and after it the list of its handlers.
-/

namespace EventBus.Expansion

open Source

/-! ## Handlers -/

inductive MethodError where
  | malformed (error : SyntaxError)
  | repeatedMark
  | async
  | generic
  | receiver
  | arity (method : String) (count : Nat)
  | byValue
  | needlessType
deriving DecidableEq, Repr

def MethodError.message : MethodError → String
  | malformed e => e.message
  | repeatedMark => "a handler may only carry one `#[subscribe]`"
  | async => "handler methods must be synchronous"
  | generic => "handler methods cannot be generic"
  | receiver => "handler methods must take `&self`"
  | arity m n =>
    "handler methods must accept exactly one event parameter, `" ++ m ++ "` has " ++ toString n
  | byValue => "handler event parameter must be a shared reference (`&Event`)"
  | needlessType => "an explicit event type is only allowed for `&dyn Event` parameters"

inductive Descriptor where
  | typed (name : String) (event : List Tree)
  | erased (name : String) (event? : Option (List Tree))

def isMark (a : Attribute) : Bool := a.isNamed "subscribe"

def unmarked (m : MethodItem) : MethodItem := { m with attributes := m.attributes.eraseP isMark }

def namedType (mark : Attribute) : Except SyntaxError (Option Ty) :=
  match mark.body with
  | .empty => .ok none
  | _ =>
    mark.readArguments "subscribe" fun g => do
      if ← Reader.atEnd then return none else return some (← g.type true)

def eventType (s : Signature) : Except MethodError Ty :=
  match s.inputs.items with
  | .receiver _ true :: [.parameter _ (.reference _ false t)] => .ok t
  | .receiver _ true :: [.parameter _ _] => .error .byValue
  | .receiver _ true :: rest => .error (.arity s.name rest.length)
  | _ => .error .receiver

def describe (s : Signature) (type? : Option Ty) : Except MethodError Descriptor := do
  if s.isAsync then throw .async
  if !s.generics.isEmpty then throw .generic
  let t ← eventType s
  if t.isDynEvent then return .erased s.name (type?.map (·.trees))
  if type?.isSome then throw .needlessType
  return .typed s.name t.trees

def methodDescriptor? (m : MethodItem) : Except MethodError (Option Descriptor) :=
  match m.attributes.find? isMark with
  | none => .ok none
  | some mark =>
    if (unmarked m).attributes.any isMark then .error .repeatedMark
    else
      match namedType mark with
      | .error e => .error (.malformed e)
      | .ok type? => (describe m.signature type?).map some

/-! ## Expansion -/

inductive BlockError where
  | arguments
  | malformed (error : SyntaxError)
  | hasTrait
  | method (error : MethodError)
deriving DecidableEq, Repr

def BlockError.message : BlockError → String
  | arguments => (SyntaxError.leftover none).message
  | malformed e => e.message
  | hasTrait => "#[subscriber] must be used on an inherent impl block"
  | method e => e.message

def collect {ε α : Type} : List (Except ε α) → Except (List ε) (List α)
  | [] => .ok []
  | .ok a :: rs => (collect rs).map (a :: ·)
  | .error e :: rs =>
    match collect rs with
    | .ok _ => .error [e]
    | .error es => .error (e :: es)

theorem collect_map_ok {ε α : Type} (as : List α) :
    collect (as.map (.ok : α → Except ε α)) = .ok as := by
  induction as with
  | nil => rfl
  | cons a as ih => simp [collect, ih, Except.map]

theorem eq_map_ok_of_collect {ε α : Type} {rs : List (Except ε α)} {as : List α}
    (h : collect rs = .ok as) : rs = as.map .ok := by
  induction rs generalizing as with
  | nil => cases h; rfl
  | cons r rs ih =>
    cases r with
    | error e => cases hr : collect rs <;> simp [collect, hr] at h
    | ok a =>
      cases hr : collect rs with
      | error es => simp [collect, hr, Except.map] at h
      | ok bs =>
        simp only [collect, hr, Except.map, Except.ok.injEq] at h
        rw [← h, ih hr, List.map_cons]

def descriptor? : Member → Except MethodError (Option Descriptor)
  | .method m => methodDescriptor? m
  | .other _ => .ok none

def unmarkedMember : Member → Member
  | .method m => .method (unmarked m)
  | .other ts => .other ts

structure Subscription where
  block : Block
  handlers : List Descriptor

def subscribe (b : Block) : Except (List BlockError) Subscription :=
  if b.trait?.isSome then .error [.hasTrait]
  else
    match collect (b.members.map descriptor?) with
    | .ok ds => .ok ⟨{ b with members := b.members.map unmarkedMember }, ds.reduceOption⟩
    | .error es => .error (es.map .method)

/-- The subscriber that the block in the trees becomes. `arguments` are those of the block's own
mark, which takes none. -/
def subscribeFrom (arguments ts : List Tree) : Except (List BlockError) Subscription :=
  if !arguments.isEmpty then .error [.arguments]
  else
    match readWhole Grammar.implementation ts with
    | .ok b => subscribe b
    | .error e => .error [.malformed e]

/-! ## Text -/

namespace Descriptor

def nameText (name : String) : String := "::core::stringify!(" ++ unspaced name ++ "),"

def text : Descriptor → String
  | typed name event =>
    "::eventide::HandlerMethod::typed::<Self," ++ Source.text event ++ ",_>(" ++ nameText name ++
      "Self::" ++ unspaced name ++ ",)"
  | erased name event? =>
    "::eventide::HandlerMethod::erased::<Self,_>(" ++ nameText name ++
      "::eventide::EventType::of::<" ++ event?.elim "::eventide::AnyEvent" Source.text ++
      ">(),Self::" ++ unspaced name ++ ",)"

end Descriptor

namespace Subscription

def implementationText (s : Subscription) : String :=
  "impl" ++ Source.text s.block.generics.forImpl ++ "::eventide::Subscriberfor" ++
    Source.text s.block.self ++ Source.text s.block.generics.whereClause ++
    "\x7bfnhandler_methods(&self)->::std::vec::Vec<::eventide::HandlerMethod>" ++
    "\x7b::std::vec![" ++ ",".intercalate (s.handlers.map (·.text)) ++ "]\x7d" ++
    "fnas_any(&self)->&dyn::std::any::Any\x7bself\x7d\x7d"

def text (s : Subscription) : String := Source.text s.block.trees ++ s.implementationText

end Subscription
end EventBus.Expansion
