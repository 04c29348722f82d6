import EventBus.EventType

/-!
# The catalogue of event types

The event types that scenarios are about, each with the name that scripts call it by, the name
it is printed by and the supertypes it declares. What the numbered nodes declare is left to each
scenario.
-/

namespace EventBus.Scenario

structure Kind where
  name : String
  type : EventType
  supers : List String
  hasValues : Bool

namespace Kind

def builtin : List String :=
  ["()", "bool", "char", "i8", "i16", "i32", "i64", "i128", "isize", "u8", "u16", "u32", "u64",
    "u128", "usize", "f32", "f64", "&str"]

def markers : List (String × List String) := [("Auditable", []), ("Traced", ["Auditable"])]

def records : List (String × List String) :=
  [("OrderEvent", ["Auditable"]), ("OrderShipped", ["OrderEvent"]), ("Ping", []), ("Pong", []),
    ("Priority", ["Traced"]), ("Urgent", ["Priority", "OrderShipped", "Traced"]),
    ("Twice", ["Ping"]), ("Command", ["Traced", "Auditable"]), ("Refund", ["OrderEvent"])]

def inModule (name : String) : String := "driver::ev::" ++ name

/-- Each type's name, the name it is printed by, its supertypes, and whether it has values. The
root and the type of dead events come first. -/
def rows : List (String × String × List String × Bool) :=
  [("AnyEvent", EventType.root.name, [], true), ("DeadEvent", EventType.dead.name, [], true),
    ("String", "alloc::string::String", [], true),
    ("Envelope<Ping>", "driver::ev::Envelope<driver::ev::Ping>", ["Ping"], true),
    ("Envelope<OrderShipped>", "driver::ev::Envelope<driver::ev::OrderShipped>",
      ["OrderShipped"], true)] ++
    builtin.map (fun n => (n, n, [], true)) ++
    markers.map (fun (n, ss) => (n, inModule n, ss, false)) ++
    records.map fun (n, ss) => (n, inModule n, ss, true)

def fixed : List Kind := rows.zipIdx.map fun ((n, printed, ss, v), i) => ⟨n, ⟨i, printed⟩, ss, v⟩

def nodeCount : Nat := 16

def node (k : Nat) : EventType :=
  ⟨fixed.length + k, "driver::ev::Node<" ++ toString k ++ ">"⟩

def all : List Kind :=
  fixed ++ (List.range nodeCount).map fun k => ⟨"N" ++ toString k, node k, [], true⟩

def typeOf? (name : String) : Option EventType :=
  (all.find? (·.name == name)).map (·.type)

example : typeOf? "AnyEvent" = some .root ∧ typeOf? "DeadEvent" = some .dead := ⟨rfl, rfl⟩

def typeOf (name : String) : EventType := (typeOf? name).getD .root

def valued : List (String × EventType) :=
  (all.filter (·.hasValues)).map fun k => (k.name, k.type)

def graph (nodes : List (List EventType)) : TypeGraph :=
  let fixed := all.foldl (fun g k => g.declare k.type (k.supers.filterMap typeOf?)) ⟨.empty⟩
  nodes.zipIdx.foldl (fun g (supers, k) => g.declare (node k) supers) fixed

end Kind
end EventBus.Scenario
