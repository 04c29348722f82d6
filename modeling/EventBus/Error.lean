import EventBus.Text.Record

/-!
# Errors

A `BusError` aborts a registration or its withdrawal. A `HandlerError` is how one handler call
went wrong; it goes to the bus's sink and never to the poster. A `Fault` is an error of a
handler's own making.
-/

namespace EventBus

open Text

/-- An error of a handler's own making: its message, and those of its causes, nearest first. -/
structure Fault where
  message : String
  causes : List String
deriving DecidableEq, Repr

inductive BusError where
  | unknownSubscriber (subscriber : String)
  | malformedSignature (subscriber method : String) (arity : Nat)
deriving DecidableEq, Repr

inductive HandlerError where
  | failed (fault : Fault)
  | panicked (message : String)
  | eventMismatch (expected actual : String)
  | subscriberMismatch (expected : String)
deriving DecidableEq, Repr

namespace BusError

def message : BusError → String
  | unknownSubscriber s =>
    "missing event handler for a subscribed method, is `" ++ s ++ "` registered?"
  | malformedSignature s m n =>
    "method `" ++ s ++ "::" ++ m ++ "` is marked as a handler but takes " ++ toString n ++
      " event parameters, expected exactly 1"

def debug : BusError → String
  | unknownSubscriber s => record "UnknownSubscriber" [("subscriber", quoted s)]
  | malformedSignature s m n =>
    record "MalformedHandlerSignature"
      [("subscriber", quoted s), ("method", quoted m), ("arity", toString n)]

end BusError

namespace HandlerError

def message : HandlerError → String
  | failed f => "handler failed: " ++ f.message
  | panicked m => "handler panicked: " ++ m
  | eventMismatch e a => "event of type `" ++ a ++ "` cannot be viewed as `" ++ e ++ "`"
  | subscriberMismatch e => "handler target is not a `" ++ e ++ "`"

def chain : HandlerError → List String
  | failed f => f.message :: f.causes
  | _ => []

/-- The text of an error whose parts have one; a fault's own text is its maker's affair. -/
def debug? : HandlerError → Option String
  | failed _ => none
  | panicked m => some (tuple "Panicked" [quoted m])
  | eventMismatch e a =>
    some (record "EventMismatch" [("expected", quoted e), ("actual", quoted a)])
  | subscriberMismatch e => some (record "SubscriberMismatch" [("expected", quoted e)])

def toFault (e : HandlerError) : Fault := ⟨e.message, e.chain⟩

end HandlerError

/-- What a panic carries: a text, or a value that is none. -/
inductive Panic where
  | text (message : String)
  | other
deriving DecidableEq, Repr

def Panic.message : Panic → String
  | text m => m
  | other => "non-string panic payload"

inductive Ending where
  | done
  | fault (fault : Fault)
  | error (error : HandlerError)
deriving DecidableEq, Repr

end EventBus
