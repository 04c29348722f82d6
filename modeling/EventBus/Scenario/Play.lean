import EventBus.Machine.Step
import EventBus.Scenario.Inquiry

/-!
# Playing a scenario

The programs of steps, scripted and fixed handlers and sinks, and the run of a whole scenario:
each step runs on a machine of its own and ends with an answer or with the panic that left it.
-/

namespace EventBus.Scenario

/-! ## Steps -/

def record (a : Answer) (next : Code) : Code :=
  .look fun w => .store { w.store with answers := w.store.answers ++ [a] } next

mutual

def Step.code (c : Cast) (o : Occasion) : Step → (Answer → Code) → Code
  | .ask q, k => .look fun w =>
    let (store, a) := q.answer c o w
    .store store (k a)
  | .post b r, k => .post (c.bus b) (r.build c.bus o.number) (k .done)
  | .repost b, k =>
    match o.event?.bind (·.view? .dead) with
    | some (.dead _ e) => .post (c.bus b) e (k .done)
    | _ => k (.text "nothing wrapped")
  | .register b s, k => .register (c.bus b) s fun r => k (ofBusResult r)
  | .unregister b s, k => .unregister (c.bus b) s fun r => k (ofBusResult r)
  | .activate s slots, k => .activate s (slots.filterMap (c.method? s)) (k .done)
  | .clearFailures b, k => .forget (c.bus b) (k .done)
  | .thread steps, k => .look fun w =>
    .store { w.store with answers := [] } <|
      .spawn (codes c o steps) fun _ => .look fun w' =>
        .store { w'.store with answers := w.store.answers } (k (.list w'.store.answers))
  | .setSupers n supers, k => .declare (Kind.node n) supers (k .done)
  | .invoke r e, k =>
    match c.binding? r with
    | some b => .invoke b (e.build c.bus o.number) fun r => k (ofOutcome r)
    | none => k (.text "no binding")
  | .enqueue q r e, k =>
    match c.binding? r with
    | some b => .enqueue (c.queue q) ⟨e.build c.bus o.number, b⟩ (k .done)
    | none => k (.text "no binding")
  | .drain q, k => .drain (c.queue q) (k .done)

def codes (c : Cast) (o : Occasion) : List Step → Code
  | [] => .finish .done
  | s :: ss =>
    .attempt (s.code c o fun a => record a (.finish .done)) fun
      | none => codes c o ss
      | some p => record (.unwound p.message) (codes c o ss)

end

/-! ## Handlers -/

def MethodScript.failure (m : MethodScript) (f : Fault) : Ending :=
  if m.quiet && m.method.shape != .raw then .done
  else if m.method.shape == .raw then .error (.failed f)
  else .fault f

def MethodScript.act (m : MethodScript) (c : Cast) (o : Occasion) : List Action → Code
  | [] => .finish .done
  | a :: as =>
    if a.conditions.all (·.holds o.number) then
      match a.deed with
      | .note s => .note (.line s) (m.act c o as)
      | .fail f => .finish (m.failure f)
      | .panic p => .panic p
      | .step s => s.code c o fun r => .note (.answer r) (m.act c o as)
    else m.act c o as

/-- The handler in a slot of a scripted subscriber: it notes its call, and acts unless it has been
called too often. -/
def MethodScript.code (m : MethodScript) (c : Cast) (sub slot : Nat) (e : Value) : Code :=
  .look fun w =>
    let calls := (w.store.calls.get? (sub, slot)).getD 0
    .note (.line ("s" ++ toString sub ++ "." ++ m.method.name ++ "#" ++ toString slot ++ ":" ++
      w.showEvent e)) <|
      .store { w.store with calls := w.store.calls.set (sub, slot) (calls + 1) } <|
        if calls < m.limit then m.act c ⟨some e⟩ m.actions else .finish .done

def say (s : String) : Code := .note (.line s) (.finish .done)

namespace Fixture

def inspect (e : Value) : String :=
  match e.view? (Kind.typeOf "OrderEvent") with
  | some order => Text.tuple "Some" [toString (Value.number order)]
  | none => "None"

def code (c : Cast) (slot : Nat) (e : Value) : Fixture → Code
  | orderAudit =>
    match slot with
    | 0 => say ("shipped:" ++ toString e.number)
    | 1 => say ("order:" ++ toString e.number)
    | 2 => say "auditable"
    | _ => say "any"
  | deadLetters =>
    match e with
    | .dead source inner => .look fun w =>
      say ("dead:" ++ inner.type.name ++ ":" ++ w.showEvent inner ++ "@" ++ (w.bus source).display)
    | .value .. => .finish .done
  | pingCounter name => say (name ++ ":" ++ toString e.number)
  | relay b =>
    match slot with
    | 0 =>
      .note (.line "relay:start") <| .post (c.bus b) (Make.pong e.number) <| say "relay:end"
    | _ => say ("pong:" ++ toString e.number)
  | fanout b =>
    match slot with
    | 0 =>
      .note (.line ("ping:" ++ toString e.number)) <|
        if e.number = 0 then
          .post (c.bus b) (Make.pong 1) <| .post (c.bus b) (Make.pong 2) <| .finish .done
        else .finish .done
    | _ =>
      .note (.line ("pong:" ++ toString e.number)) <|
        if e.number * 10 < 1 <<< 32 then
          .post (c.bus b) (Make.ping (e.number * 10)) <| .finish .done
        else .panic (.text "attempt to multiply with overflow")
  | faulty =>
    match slot with
    | 0 =>
      .note (.line "rejects") <| .finish (.fault ⟨"rejected ping " ++ toString e.number, []⟩)
    | 1 => .note (.line "panics") <| .panic (.text "boom")
    | _ => say "survives"
  | inspector =>
    match slot with
    | 0 => say (e.type.name ++ ":" ++ inspect e)
    | _ => if e.isOf (Kind.typeOf "OrderShipped") then say "root:shipped" else .finish .done
  | silent => .finish .done

end Fixture

/-! ## Sinks -/

def SinkScript.code (c : Cast) (id : BusId) (d : Delivery Int) (error : HandlerError) :
    SinkScript → Code
  | closure => .note (.failure d.event.type.name d.binding.display error.message) (.finish .done)
  | panic message on => .look fun w =>
    let n := (w.store.reports.get? id).getD 0
    .store { w.store with reports := w.store.reports.set id (n + 1) } <|
      .note (.numbered n d.binding.display error.message) <|
        if on.elim true (·.contains n) then .panic (.text message) else .finish .done
  | post b r limit => .look fun w =>
    let n := (w.store.reports.get? id).getD 0
    .store { w.store with reports := w.store.reports.set id (n + 1) } <|
      .note (.failure d.event.type.name d.binding.display error.message) <|
        if n < limit then
          .post (c.bus b) (r.build c.bus (Value.number d.event)) (.finish .done)
        else .finish .done
  | record | ignore | log _ | logDefault => .finish .done

namespace Cast

def behaviour (c : Cast) : Behaviour Store Entry Int where
  body slot sub e :=
    match c.subscribers[sub]? with
    | some (.scripted _ ms _) =>
      match ms[slot]? with
      | some m => m.code c sub slot e
      | none => .finish .done
    | some (.fixture f) => f.code c slot e
    | none => .finish .done
  sink id d error :=
    match c.sinks.lookup id with
    | some s => s.code c id d error
    | none => .finish .done

end Cast

/-! ## Runs -/

/-- An answer, unless the machine did not halt in time, and the journal of the step. -/
structure Record where
  answer? : Option Answer
  journal : List (Happening Entry)

def takeStep (fuel : Nat) (c : Cast) (w : Stage) (s : Step) : Record × Stage :=
  let start : Stage := { w with journal := [], store := { w.store with answers := [] } }
  let code := s.code c .none fun a => Scenario.record a (.finish .done)
  let m := Machine.run c.behaviour fuel ⟨start, .run code, []⟩
  let answer? := match m.result? with
    | some (.ok _) => m.world.store.answers.head?
    | some (.error p) => some (.unwound p.message)
    | none => none
  (⟨answer?, m.world.journal⟩, m.world)

def takeSteps (fuel : Nat) (c : Cast) : Stage → List Step → List Record
  | _, [] => []
  | w, s :: ss =>
    let (r, w) := takeStep fuel c w s
    r :: takeSteps fuel c w ss

def Script.play (fuel : Nat) (s : Script) : List Record :=
  takeSteps fuel s.cast s.stage s.steps

end EventBus.Scenario
