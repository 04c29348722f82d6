import EventBus.Scenario.Cast

/-!
# Answering inquiries

An inquiry reads the world and may change the scenario's own maps, registries, caches and logs.
-/

namespace EventBus.Scenario

structure Occasion where
  event? : Option Value

namespace Occasion

def none : Occasion := ⟨.none⟩

def number (o : Occasion) : Int := o.event?.elim 0 Value.number

end Occasion

def showBinding (b : Binding) : String := "s" ++ toString b.target ++ " " ++ b.display

def showBindings (bs : List Binding) : Answer := .names (bs.map showBinding)

def showMap (m : HandlerMap) : Answer :=
  .groups (m.groups.entries.map fun g => (g.1.name, g.2.map showBinding))

def ofBusResult : Except BusError Unit → Answer
  | .ok () => .done
  | .error e => .busError e

def ofOutcome : Except HandlerError Unit → Answer
  | .ok () => .done
  | .error e => .handlerError e

def showEvent (w : Stage) (e : Value) : Answer :=
  .event e.type.name (w.showEvent e)
    ((Kind.valued.filter (e.isOf ·.2)).map (·.1))
    (Kind.valued.filterMap fun (n, t) => (e.view? t).map fun v => (n, w.showEvent v))
    ((Kind.valued.filter (e.isOf ·.2)).map fun (n, _) => (n, w.showEvent e))

def showQueue (w : Stage) (b : BusId) : Answer :=
  let bus := w.bus b
  match bus.config.mode with
  | .immediate => .text bus.config.mode.name
  | .queued =>
    .queue (bus.queues.pending w.thread) (bus.queues.isDraining w.thread) bus.queues.debug

def sortedNames (ts : List EventType) : List String :=
  (ts.map (·.name)).mergeSort fun a b => decide (a ≤ b)

namespace Inquiry

def answer (c : Cast) (o : Occasion) (w : Stage) : Inquiry → Store × Answer
  | isRegistered b s =>
    (w.store, .flag ((w.subscriber? s).elim false (w.bus (c.bus b)).isRegistered))
  | count b t => (w.store, .count ((w.bus (c.bus b)).handlerCount t))
  | busInfo b =>
    let bus := w.bus (c.bus b)
    (w.store, .bus bus.config.identifier bus.config.mode.name bus.display bus.debug)
  | busEq a b => (w.store, .flag (c.bus a == c.bus b))
  | failures b =>
    (w.store, .failures (match (w.bus (c.bus b)).sink with | .record fs => fs | _ => []))
  | failureCount b =>
    (w.store, .count (match (w.bus (c.bus b)).sink with | .record fs => fs.length | _ => 0))
  | flatten i t =>
    let cache := (w.store.cache i).request w.graph t
    ({ w.store with caches := w.store.caches.set i cache },
      .names ((cache.flatten w.graph t).map (·.name)))
  | flattenSame i t =>
    let once := (w.store.cache i).request w.graph t
    let twice := once.request w.graph t
    ({ w.store with caches := w.store.caches.set i twice },
      .flag (once.slot? t == twice.slot? t))
  | cacheSize i =>
    let cache := w.store.cache i
    (w.store, .size cache.size cache.isEmpty)
  | eventType t =>
    (w.store,
      .type t.name t.isRoot ((w.graph.supertypes t).map (·.name)) t.debug t.name)
  | typeEq a b => (w.store, .flags [a == b, a == b, a == b])
  | event recipe? =>
    let e? := match recipe? with
      | some r => some (r.build c.bus o.number)
      | none => o.event?
    (w.store, e?.elim (.text "no event") (showEvent w))
  | discover s finder i =>
    match (w.subscriber? s).elim (.ok .empty) finder.discovery with
    | .ok m => ({ w.store with maps := w.store.maps.set i m }, showMap m)
    | .error e => (w.store, .busError e)
  | mapOf i bs =>
    let m := HandlerMap.ofList (bs.filterMap c.binding?)
    ({ w.store with maps := w.store.maps.set i m }, showMap m)
  | mapInsert i r =>
    match c.binding? r with
    | some b =>
      let m := w.store.map i
      ({ w.store with maps := w.store.maps.set i (m.insert b) }, .flag (m.isNew b))
    | none => (w.store, .flag false)
  | mapGet i t => (w.store, showBindings ((w.store.map i).get t))
  | mapGroups i => (w.store, showMap (w.store.map i))
  | mapTypes i => (w.store, .names ((w.store.map i).types.map (·.name)))
  | mapSize i => (w.store, .size (w.store.map i).size (w.store.map i).isEmpty)
  | mapDebug i => (w.store, .text (w.store.map i).debug)
  | registryPut r i =>
    ({ w.store with
      registries := w.store.registries.set r ((w.store.registry r).putAll (w.store.map i)) },
      .done)
  | registryRemove r i =>
    match (w.store.registry r).removeAll (w.store.map i) with
    | .ok reg => ({ w.store with registries := w.store.registries.set r reg }, .done)
    | .error e => (w.store, .busError e)
  | registryContains r i => (w.store, .flag ((w.store.registry r).containsAll (w.store.map i)))
  | registryGet r t => (w.store, showBindings ((w.store.registry r).get t))
  | registryCount r t => (w.store, .count ((w.store.registry r).count t))
  | registryResolve r ts => (w.store, showBindings ((w.store.registry r).resolve ts))
  | registryTypes r =>
    let reg := w.store.registry r
    (w.store, .types (sortedNames reg.types) reg.isEmpty)
  | snapshot r t i =>
    let bs := (w.store.registry r).get t
    ({ w.store with snapshots := w.store.snapshots.set i bs }, .done)
  | snapshotShow i => (w.store, showBindings (w.store.snapshot i))
  | bindingShow r =>
    match c.binding? r with
    | some b =>
      (w.store, .binding b.display b.debug b.subscriberName b.type.name b.method.owner
        b.method.name (b.method.params.map (·.name)))
    | none => (w.store, .text "no binding")
  | bindingEq a b =>
    match c.binding? a, c.binding? b with
    | some x, some y => (w.store, .flags [x.same y, x.same y])
    | _, _ => (w.store, .text "no binding")
  | methodShow s i =>
    match c.method? s i with
    | some m => (w.store, .method m.owner m.name (m.params.map (·.name)) m.debug)
    | none => (w.store, .text "no method")
  | queue i => (w.store, showQueue w (c.queue i))
  | logPush i entry => ({ w.store with logs := w.store.logs.push i entry }, .done)
  | log i entry =>
    let l := w.store.logs.read i
    (w.store, .log l.entries (l.countOf entry))
  | logShare i copy => ({ w.store with logs := w.store.logs.share i copy }, .done)

end Inquiry
end EventBus.Scenario
