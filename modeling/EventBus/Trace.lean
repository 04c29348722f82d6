/-!
# Notices

What buses tell an observer while they work: a level, a message and named values.
-/

namespace EventBus

inductive Level where
  | error
  | warn
  | info
  | debug
  | trace
deriving DecidableEq, Repr

namespace Level

def name : Level → String
  | error => "ERROR"
  | warn => "WARN"
  | info => "INFO"
  | debug => "DEBUG"
  | trace => "TRACE"

def rank : Level → Nat
  | error => 0
  | warn => 1
  | info => 2
  | debug => 3
  | trace => 4

def shownAt (l least : Level) : Bool := l.rank ≤ least.rank

end Level

inductive Notice where
  | registered (bus owner : String) (handlers : Nat)
  | unregistered (bus owner : String) (handlers : Nat)
  | dropped (bus : String)
  | unhandled (bus type : String)
  | dispatching (bus type : String) (handlers : Nat) (mode : String)
  /-- A drain was cut short by a panic and took its queue with it. -/
  | discarded (deliveries : Nat)
  | failed (sink type handler event error : String)
deriving DecidableEq, Repr

inductive Datum where
  | text (s : String)
  | count (n : Nat)
deriving DecidableEq, Repr

namespace Notice

def level : Notice → Level
  | registered .. | unregistered .. => .debug
  | dropped .. | unhandled .. | dispatching .. => .trace
  | discarded .. => .warn
  | failed .. => .error

def message : Notice → String
  | registered .. => "registered subscriber"
  | unregistered .. => "unregistered subscriber"
  | dropped .. => "dead event had no handlers"
  | unhandled .. => "no handlers, posting dead event"
  | dispatching .. => "dispatching event"
  | discarded .. => "queued drain unwound, discarding pending deliveries"
  | failed .. => "could not dispatch event"

def data (n : Notice) : List (String × Datum) :=
  ("message", .text n.message) ::
    match n with
    | registered bus owner k | unregistered bus owner k =>
      [("bus", .text bus), ("subscriber", .text owner), ("handlers", .count k)]
    | dropped bus => [("bus", .text bus)]
    | unhandled bus type => [("bus", .text bus), ("event_type", .text type)]
    | dispatching bus type k mode =>
      [("bus", .text bus), ("event_type", .text type), ("handlers", .count k),
        ("mode", .text mode)]
    | discarded k => [("discarded", .count k)]
    | failed sink type handler event error =>
      [("bus", .text sink), ("event_type", .text type), ("handler", .text handler),
        ("event", .text event), ("error", .text error)]

end Notice
end EventBus
