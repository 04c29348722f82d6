import EventBus.Event
import EventBus.Scenario.Catalogue
import EventBus.Text.Decimal
import EventBus.Text.Record

/-!
# Recipes for events

A recipe describes an event of the catalogue. Its numbers are given, or relative to the number of
the event that is being handled. Every event carries a number, which conditions and relative
amounts refer to.
-/

namespace EventBus.Scenario

open Text

inductive Amount where
  | fixed (v : Int)
  | relative (d : Int)

def wrapSigned (bits : Nat) (v : Int) : Int := (BitVec.ofInt bits v).toInt

def wrapUnsigned (bits : Nat) (v : Int) : Int := (BitVec.ofInt bits v).toNat

def Amount.eval (number : Int) : Amount → Int
  | fixed v => v
  | relative d => wrapSigned 64 (number + d)

structure IntType where
  name : String
  signed : Bool
  bits : Nat

def IntType.wrap (t : IntType) (v : Int) : Int :=
  if t.signed then wrapSigned t.bits v else wrapUnsigned t.bits v

def IntType.all : List IntType :=
  [⟨"i8", true, 8⟩, ⟨"i16", true, 16⟩, ⟨"i32", true, 32⟩, ⟨"i64", true, 64⟩,
    ⟨"i128", true, 128⟩, ⟨"isize", true, 64⟩, ⟨"u8", false, 8⟩, ⟨"u16", false, 16⟩,
    ⟨"u32", false, 32⟩, ⟨"u64", false, 64⟩, ⟨"u128", false, 128⟩, ⟨"usize", false, 64⟩]

/-- How a node projects: as a derived event, to nothing, or to itself whatever is asked for. -/
inductive NodeProjection where
  | derived
  | nothing
  | lying

inductive Recipe where
  | node (k : Nat) (amount : Amount) (parts : List Recipe) (projection : NodeProjection)
  | integer (type : IntType) (amount : Amount)
  | unit
  | boolean (b : Bool)
  | character (c : Char)
  | string (s : String)
  | slice (s : String)
  | single (x : Float)
  | double (x : Float)
  | any
  | dead (bus : Nat) (event : Recipe)
  | order (id : Amount)
  | shipped (id : Amount) (carrier : String)
  | ping (n : Amount)
  | pong (n : Amount)
  | priority (level : Int)
  | urgent (id : Amount) (carrier : String) (level : Int)
  | twice (first : Amount) (second : Int)
  | start
  | stop (code : Int)
  | pingEnvelope (n : Amount)
  | shippedEnvelope (id : Amount) (carrier : String)
  | refund

abbrev Value := Event Int

def Value.number (e : Value) : Int := e.data?.getD 0

namespace Make

def leafText (name : String) (number : Int) (text : String) : Value :=
  .leaf (Kind.typeOf name) number [.text text]

def order (id : Int) : Value :=
  let id := wrapUnsigned 32 id
  leafText "OrderEvent" id (record "OrderEvent" [("id", toString id)])

def ping (n : Int) : Value :=
  let n := wrapUnsigned 32 n
  leafText "Ping" n (tuple "Ping" [toString n])

def pong (n : Int) : Value :=
  let n := wrapUnsigned 32 n
  leafText "Pong" n (tuple "Pong" [toString n])

def priority (level : Int) : Value :=
  leafText "Priority" level (record "Priority" [("level", toString level)])

def recordOf (name : String) (fields : List (String × List Piece)) : List Piece :=
  [.text (name ++ " \x7b ")] ++
    List.intercalate [.text ", "] (fields.map fun (n, ps) => .text (n ++ ": ") :: ps) ++
    [.text " \x7d"]

def tupleOf (name : String) (parts : List (List Piece)) : List Piece :=
  [.text (name ++ "(")] ++ List.intercalate [.text ", "] parts ++ [.text ")"]

def shipped (id : Int) (carrier : String) : Value :=
  let order := order id
  .derived (Kind.typeOf "OrderShipped") order.number
    (recordOf "OrderShipped" [("order", order.pieces), ("carrier", [.text (quoted carrier)])])
    [order]

def urgent (id : Int) (carrier : String) (level : Int) : Value :=
  let shipped := shipped id carrier
  let priority := priority level
  .derived (Kind.typeOf "Urgent") priority.number
    (tupleOf "Urgent" [shipped.pieces, priority.pieces]) [shipped, priority]

def twice (first second : Int) : Value :=
  let first := ping first
  let second := ping second
  .derived (Kind.typeOf "Twice") first.number
    (recordOf "Twice" [("first", first.pieces), ("second", second.pieces)]) [first, second]

def envelope (name : String) (inner : Value) : Value :=
  .derived (Kind.typeOf name) inner.number (recordOf "Envelope" [("inner", inner.pieces)]) [inner]

def node (k : Nat) (v : Int) (parts : List Value) (projection : NodeProjection) : Value :=
  let head := "Node" ++ toString k ++ "(" ++ toString v ++ ")"
  let pieces : List Piece :=
    if parts.isEmpty then [.text head]
    else .text (head ++ "[") :: List.intercalate [.text ", "] (parts.map Event.pieces) ++
      [.text "]"]
  match projection with
  | .derived => .derived (Kind.node k) v pieces parts
  | .nothing => .value (Kind.node k) v pieces fun _ => .nothing
  | .lying => .value (Kind.node k) v pieces fun _ => .whole

end Make

open Make in
mutual

/-- The event a recipe describes. Scripts call buses by numbers of their own, and `number` is that
of the event being handled. -/
def Recipe.build (buses : Nat → BusId) (number : Int) : Recipe → Value
  | .node k a parts projection =>
    node k (wrapSigned 64 (a.eval number)) (buildAll buses number parts) projection
  | .integer t a =>
    let v := t.wrap (a.eval number)
    leafText t.name (wrapSigned 64 v) (toString v)
  | .unit => leafText "()" 0 "()"
  | .boolean b => leafText "bool" 0 (flag b)
  | .character c => leafText "char" 0 (quotedChar c)
  | .string s => leafText "String" 0 (quoted s)
  | .slice s => leafText "&str" 0 (quoted s)
  | .single x => leafText "f32" 0 (singleText x.toFloat32)
  | .double x => leafText "f64" 0 (doubleText x)
  | .any => leafText "AnyEvent" 0 "AnyEvent"
  | .dead bus event => .dead (buses bus) (event.build buses number)
  | .order id => order (id.eval number)
  | .shipped id carrier => shipped (id.eval number) carrier
  | .ping n => ping (n.eval number)
  | .pong n => pong (n.eval number)
  | .priority level => priority level
  | .urgent id carrier level => urgent (id.eval number) carrier level
  | .twice first second => twice (first.eval number) second
  | .start => leafText "Command" 0 "Start"
  | .stop code => leafText "Command" 0 (record "Stop" [("code", toString code)])
  | .pingEnvelope n => envelope "Envelope<Ping>" (ping (n.eval number))
  | .shippedEnvelope id carrier =>
    envelope "Envelope<OrderShipped>" (shipped (id.eval number) carrier)
  | .refund => leafText "Refund" 0 "Refund"

def buildAll (buses : Nat → BusId) (number : Int) : List Recipe → List Value
  | [] => []
  | r :: rs => r.build buses number :: buildAll buses number rs

end

end EventBus.Scenario
