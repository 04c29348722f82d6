import EventBus.Proofs.DispatchOrder
import EventBus.Proofs.Withdrawals

/-!
# Subscribers that come and go

A subscriber that registers and later withdraws leaves no trace. Two runs of a bus are compared, one
of them with the subscriber: all the while its registry is that of the other with the subscriber's
bindings among the rest.
-/

namespace EventBus

variable {α : Type}

namespace HandlerMap

/-- The two maps have no target in common. -/
def Apart (m m' : HandlerMap) : Prop := ∀ x ∈ m.toList, ∀ y ∈ m'.toList, x.target ≠ y.target

variable {m m' : HandlerMap}

theorem Apart.symm (h : m.Apart m') : m'.Apart m := fun y hy x hx => Ne.symm (h x hx y hy)

theorem Apart.contains (h : m.Apart m') {y : Binding} (hy : y ∈ m'.toList) : m.contains y = false := by
  rw [Bool.eq_false_iff, ← isIn_toList]
  intro hin
  obtain ⟨x, hx, hxy⟩ := Binding.isIn_iff.mp hin
  exact h x hx y hy (Binding.same_iff.mp hxy).1

theorem Apart.contains_of_mem_get (h : m.Apart m') {t : EventType} {y : Binding} (hy : y ∈ m'.get t) :
    m.contains y = false :=
  h.contains (mem_get_iff.mp hy).1

theorem contains_of_mem_toList {x : Binding} (hx : x ∈ m.toList) : m.contains x = true := by
  rw [← isIn_toList]
  exact Binding.isIn_of_mem hx

theorem not_contains_congr (m : HandlerMap) (b c : Binding) (h : b.same c = true) :
    (!m.contains b) = !m.contains c := by
  rw [m.contains_congr h]

end HandlerMap

/-! ## Registries that differ by a map -/

namespace Registry

theorem removeAll_error_congr {r r' : Registry} {m : HandlerMap} {e : BusError}
    (h : r'.missing? m = r.missing? m) (hr : r.removeAll m = .error e) : r'.removeAll m = .error e := by
  rw [removeAll, h]
  rw [removeAll] at hr
  split at hr
  · exact hr
  · cases hr

/-- The registry `r'` is `r` with all of `m` among its bindings, of which `r` has none. -/
structure With (m : HandlerMap) (r r' : Registry) : Prop where
  here : ∀ x ∈ m.toList, x.isIn (r'.get x.type) = true
  rest : ∀ t, r.get t = (r'.get t).filter fun c => !m.contains c

namespace With

variable {m m' : HandlerMap} {r r' q q' : Registry}

theorem isIn (h : With m r r') (c : Binding) :
    c.isIn (r.get c.type) = (!m.contains c && c.isIn (r'.get c.type)) := by
  rw [h.rest, Binding.isIn_filter m.not_contains_congr]

/-- A binding that is none of the map is in both or in neither. -/
theorem isIn_of_other (h : With m r r') {c : Binding} (hc : m.contains c = false) :
    c.isIn (r.get c.type) = c.isIn (r'.get c.type) := by
  rw [h.isIn, hc]
  rfl

theorem enter (hr : r.Orderly) (hnone : ∀ x ∈ m.toList, x.isIn (r.get x.type) = false) :
    With m r (r.putAll m) where
  here x hx := by
    rw [get_putAll, Binding.isIn_append, Binding.isIn_filter_not, hnone x hx]
    simpa [HandlerMap.contains] using HandlerMap.contains_of_mem_toList hx
  rest t := by
    have hold : (r.get t).filter (fun c => !m.contains c) = r.get t := by
      refine List.filter_eq_self.mpr fun c hc => ?_
      rw [Bool.not_eq_true', Bool.eq_false_iff, ← HandlerMap.isIn_toList]
      intro hin
      obtain ⟨x, hx, hxc⟩ := Binding.isIn_iff.mp hin
      have hxr := hnone x hx
      rw [(Binding.same_iff.mp hxc).2.2, hr.keyed t c hc, Binding.isIn_congr hxc,
        Binding.isIn_of_mem hc] at hxr
      cases hxr
    have hnew : (((m.get t).filter fun c => !c.isIn (r.get t)).filter fun c => !m.contains c) = [] := by
      rw [List.filter_eq_nil_iff]
      intro c hc
      rw [HandlerMap.contains_of_mem (List.mem_filter.mp hc).1 (Binding.same_refl c)]
      exact Bool.false_ne_true
    rw [get_putAll, List.filter_append, hold, hnew, List.append_nil]

/-- All of the map is there already. -/
theorem again (h : With m r r') : With m r (r'.putAll m) := by
  have hget : ∀ t, (r'.putAll m).get t = r'.get t := by
    intro t
    have hnew : (m.get t).filter (fun x => !x.isIn (r'.get t)) = [] := by
      rw [List.filter_eq_nil_iff]
      intro x hx
      obtain ⟨hin, rfl⟩ := HandlerMap.mem_get_iff.mp hx
      rw [h.here x hin]
      exact Bool.false_ne_true
    rw [get_putAll, hnew, List.append_nil]
  exact ⟨fun x hx => hget x.type ▸ h.here x hx, fun t => hget t ▸ h.rest t⟩

theorem put (h : With m r r') (hm : m.Apart m') : With m (r.putAll m') (r'.putAll m') where
  here x hx := by
    rw [get_putAll, Binding.isIn_append, h.here x hx]
    rfl
  rest t := by
    have hnew : ((m'.get t).filter fun y => !y.isIn (r'.get t)).filter (fun y => !m.contains y) =
        (m'.get t).filter fun y => !y.isIn (r.get t) := by
      rw [List.filter_filter]
      refine List.filter_congr fun y hy => ?_
      have hother := hm.contains_of_mem_get hy
      obtain ⟨-, rfl⟩ := HandlerMap.mem_get_iff.mp hy
      rw [h.isIn_of_other hother, hother]
      rfl
    rw [get_putAll, get_putAll, List.filter_append, ← h.rest, hnew]

theorem missing? (h : With m r r') (hm : m.Apart m') : r'.missing? m' = r.missing? m' := by
  rw [missing?_eq_find?, missing?_eq_find?]
  exact List.find?_congr fun y hy => by rw [h.isIn_of_other (hm.contains hy)]

theorem remove_error (h : With m r r') (hm : m.Apart m') {e : BusError}
    (hr : r.removeAll m' = .error e) : r'.removeAll m' = .error e :=
  removeAll_error_congr (h.missing? hm) hr

theorem remove (h : With m r r') (hm : m.Apart m') (hr : r.removeAll m' = .ok q) :
    ∃ q', r'.removeAll m' = .ok q' ∧ With m q q' := by
  have hr' : r'.removeAll m' = .ok (m'.groups.entries.foldl removeGroup r') := by
    rw [removeAll_eq_ok_iff, ← missing?_eq_none_iff, h.missing? hm, missing?_eq_none_iff]
    exact ⟨(removeAll_eq_ok_iff.mp hr).1, rfl⟩
  refine ⟨_, hr', fun x hx => ?_, fun t => ?_⟩
  · have hother : x.isIn (m'.get x.type) = false := hm.symm.contains hx
    rw [get_removeAll hr', Binding.isIn_filter_not, h.here x hx, hother]
    rfl
  · rw [get_removeAll hr, get_removeAll hr', h.rest, List.filter_filter, List.filter_filter]
    exact List.filter_congr fun c _ => Bool.and_comm ..

theorem leave (h : With m r r') (hr' : r'.Orderly) :
    ∃ q, r'.removeAll m = .ok q ∧ ∀ t, q.get t = r.get t := by
  have hq := removeAll_eq_ok_iff.mpr ⟨h.here, rfl⟩
  refine ⟨_, hq, fun t => ?_⟩
  rw [get_removeAll hq, h.rest]
  refine List.filter_congr fun c hc => ?_
  rw [HandlerMap.contains, hr'.keyed t c hc]

/-- A registry without the map misses its first binding first. -/
theorem gone (h : With m r r') {x : Binding} {rest : List Binding} (hx : m.toList = x :: rest) :
    r.removeAll m = .error (.unknownSubscriber x.subscriberName) := by
  have hin : x.isIn (r.get x.type) = false := by
    rw [h.isIn, HandlerMap.contains_of_mem_toList (hx ▸ List.mem_cons_self ..)]
    rfl
  rw [removeAll, missing?_eq_find?, hx, List.find?_cons, hin]
  rfl

end With

end Registry

/-! ## Two runs of a bus -/

namespace Bus

/-- What is asked of a bus while a subscriber is registered: a request of others, or `none` where the
subscriber registers once more. -/
abbrev Script := List (Option Request)

/-- The two runs side by side: the bus `b'` differs from `b` by the bindings of `m` only. -/
structure Hosts (m : HandlerMap) (b b' : Bus α) : Prop where
  with_map : Registry.With m b.registry b'.registry
  alike : b' = { b with registry := b'.registry }

def answer (b : Bus α) : Request → Option (Except BusError Notice)
  | .register s => some ((b.register s).map (·.2))
  | .unregister s => some ((b.unregister s).map (·.2))
  | .lookup .. | .adopt _ => none

namespace Script

def requests (s : Subscriber) (script : Script) : List Request := script.map (·.getD (.register s))

/-- The script without what the subscriber asks. -/
def alone (script : Script) : Script := script.filter (·.isSome)

/-- What the others are told. -/
def answers (s : Subscriber) : Script → Bus α → List (Option (Except BusError Notice))
  | [], _ => []
  | none :: script, b => answers s script (b.serve (.register s))
  | some request :: script, b => b.answer request :: answers s script (b.serve request)

end Script

namespace Request

/-- The request is not about a target of `m`, if `d` finds the bindings. -/
def Apart (d : Discovery) (m : HandlerMap) : Request → Prop
  | .register s | .unregister s => ∀ m', d s = .ok m' → m.Apart m'
  | .lookup .. | .adopt _ => True

/-- The strategy after the request. -/
def discovery (d : Discovery) : Request → Discovery
  | .adopt d' => d'
  | _ => d

end Request

/-- Whenever `s` asks, its bindings are those of `m`; others are about other targets. -/
def Script.Fair (s : Subscriber) (m : HandlerMap) : Discovery → Script → Prop
  | d, [] => d s = .ok m
  | d, none :: script => d s = .ok m ∧ Fair s m d script
  | d, some request :: script => request.Apart d m ∧ Fair s m (request.discovery d) script

section

variable {b b' : Bus α} {m m' : HandlerMap} {s : Subscriber} {request : Request}

theorem serve_register (h : b.discovery s = .ok m) :
    b.serve (.register s) = { b with registry := b.registry.putAll m } := by
  simp only [serve, register_eq_ok_iff.mpr ⟨m, h, rfl, rfl⟩]

theorem serve_discovery (b : Bus α) (request : Request) :
    (b.serve request).discovery = request.discovery b.discovery := by
  cases request with
  | adopt d => rfl
  | _ => exact discovery_serve b fun d h => by cases h

namespace Hosts

theorem enter (hb : b.Orderly) (hm : b.discovery s = .ok m)
    (hnone : ∀ x ∈ m.toList, x.isIn (b.registry.get x.type) = false) :
    Hosts m b (b.serve (.register s)) := by
  rw [serve_register hm]
  exact ⟨.enter hb.registry hnone, rfl⟩

theorem again (h : Hosts m b b') (hm : b.discovery s = .ok m) :
    Hosts m b (b'.serve (.register s)) := by
  have hm' : b'.discovery s = .ok m := by rw [h.alike, hm]
  rw [serve_register hm']
  refine ⟨h.with_map.again, ?_⟩
  rw [h.alike]

/-- A request of others is answered alike in both runs. -/
theorem serve (h : Hosts m b b') (hr : request.Apart b.discovery m) :
    b'.answer request = b.answer request ∧ Hosts m (b.serve request) (b'.serve request) := by
  obtain ⟨hwith, halike⟩ := h
  generalize b'.registry = r' at *
  subst halike
  cases request with
  | register s =>
    cases hd : b.discovery s with
    | error e =>
      have h₁ := (register_eq_error_iff (b := b)).mpr hd
      have h₂ := (register_eq_error_iff (b := { b with registry := r' })).mpr hd
      simp only [answer, Bus.serve, h₁, h₂, true_and]
      exact ⟨hwith, rfl⟩
    | ok m' =>
      have h₁ := (register_eq_ok_iff (b := b)).mpr ⟨m', hd, rfl, rfl⟩
      have h₂ := (register_eq_ok_iff (b := { b with registry := r' })).mpr ⟨m', hd, rfl, rfl⟩
      simp only [answer, Bus.serve, h₁, h₂]
      exact ⟨rfl, hwith.put (hr m' hd), rfl⟩
  | unregister s =>
    cases hd : b.discovery s with
    | error e =>
      have h₁ := (unregister_eq_error_iff (b := b)).mpr (.inl hd)
      have h₂ := (unregister_eq_error_iff (b := { b with registry := r' })).mpr (.inl hd)
      simp only [answer, Bus.serve, h₁, h₂, true_and]
      exact ⟨hwith, rfl⟩
    | ok m' =>
      cases hq : b.registry.removeAll m' with
      | error e =>
        have hq' := hwith.remove_error (hr m' hd) hq
        have h₁ := (unregister_eq_error_iff (b := b)).mpr (.inr ⟨m', hd, hq⟩)
        have h₂ := (unregister_eq_error_iff (b := { b with registry := r' })).mpr (.inr ⟨m', hd, hq'⟩)
        simp only [answer, Bus.serve, h₁, h₂, true_and]
        exact ⟨hwith, rfl⟩
      | ok q =>
        obtain ⟨q', hq', hleft⟩ := hwith.remove (hr m' hd) hq
        have h₁ := (unregister_eq_ok_iff (b := b)).mpr ⟨m', q, hd, hq, rfl, rfl⟩
        have h₂ := (unregister_eq_ok_iff (b := { b with registry := r' })).mpr ⟨m', q', hd, hq', rfl, rfl⟩
        simp only [answer, Bus.serve, h₁, h₂]
        exact ⟨rfl, hleft, rfl⟩
  | lookup g t => exact ⟨rfl, hwith, rfl⟩
  | adopt d => exact ⟨rfl, hwith, rfl⟩

theorem run {script : Script} (h : Hosts m b b') (hs : script.Fair s m b.discovery) :
    script.answers s b' = script.alone.answers s b ∧
      Hosts m (b.serveAll (script.alone.requests s)) (b'.serveAll (script.requests s)) ∧
      (b'.serveAll (script.requests s)).discovery s = .ok m := by
  induction script generalizing b b' with
  | nil =>
    refine ⟨rfl, h, ?_⟩
    rw [h.alike]
    exact hs
  | cons o script ih =>
    cases o with
    | none => exact ih (h.again hs.1) hs.2
    | some request =>
      obtain ⟨hanswer, hnext⟩ := h.serve hs.1
      have hfair : Script.Fair s m (b.serve request).discovery script := by
        rw [serve_discovery]
        exact hs.2
      obtain ⟨hanswers, hhosts, hd⟩ := ih hnext hfair
      exact ⟨congrArg₂ List.cons hanswer hanswers, hhosts, hd⟩

end Hosts

/-! ## Groups of a bus -/

theorem grouping_serve (h : Grouping b.registry.handlers) (request : Request) :
    Grouping (b.serve request).registry.handlers := by
  obtain hb | ⟨s, m, -, -, hb⟩ | ⟨s, m, r, -, -, hr, hb⟩ | ⟨g, t, -, hb⟩ | ⟨d, -, hb⟩ :=
    b.serve_cases request <;> rw [hb]
  · exact h
  · exact Registry.grouping_putAll h m
  · exact Registry.grouping_removeAll h hr
  · exact h
  · exact h

theorem grouping_serveAll (h : Grouping b.registry.handlers) (requests : List Request) :
    Grouping (b.serveAll requests).registry.handlers := by
  induction requests generalizing b with
  | nil => exact h
  | cons request requests ih => exact ih (grouping_serve h request)

end

/-- Let the bindings of `s` be those of `m` whenever it asks, and none of them be registered. If it
registers, and once more as often as it likes, while others register and withdraw, it can withdraw.
The others are answered as without it, and each type is left with the same bindings in the same
order. To withdraw once more fails if there was anything to withdraw. -/
theorem leaves_no_trace (builder : Builder) (requests : List Request) (s : Subscriber) (m : HandlerMap)
    (script : Script)
    (hm : (builder.build.serveAll requests : Bus α).discovery s = .ok m)
    (hnone : ∀ x ∈ m.toList,
      x.isIn ((builder.build.serveAll requests : Bus α).registry.get x.type) = false)
    (hscript : script.Fair s m (builder.build.serveAll requests : Bus α).discovery) :
    let b : Bus α := builder.build.serveAll requests
    let alone := b.serveAll (script.alone.requests s)
    ∃ entered n, b.register s = .ok (entered, n) ∧
      script.answers s entered = script.alone.answers s b ∧
      ∃ left n', (entered.serveAll (script.requests s)).unregister s = .ok (left, n') ∧
        left = { alone with registry := left.registry } ∧
        (∀ t, t ∈ left.registry.types ↔ t ∈ alone.registry.types) ∧
        (∀ t, left.registry.get t = alone.registry.get t) ∧
        (∀ g t, left.resolve g t = alone.resolve g t) ∧
        ∀ x rest, m.toList = x :: rest →
          left.unregister s = .error (.unknownSubscriber x.subscriberName) := by
  intro b alone
  have hb : b.Orderly := (Orderly.build builder).serveAll requests
  have hgroups : Grouping b.registry.handlers := grouping_serveAll Registry.grouping_empty requests
  obtain ⟨hanswers, hhosts, hd⟩ := (Hosts.enter hb hm hnone).run hscript
  have hbusy : ((b.serve (.register s)).serveAll (script.requests s)).Orderly :=
    (hb.serve _).serveAll _
  rw [serve_register hm] at hanswers hhosts hd hbusy
  obtain ⟨r, hr, hget⟩ := hhosts.with_map.leave hbusy.registry
  have halike := hhosts.alike
  refine ⟨_, _, register_eq_ok_iff.mpr ⟨m, hm, rfl, rfl⟩, hanswers, { alone with registry := r }, _,
    unregister_eq_ok_iff.mpr ⟨m, r, hd, hr, ?_, rfl⟩, rfl, fun t => ?_, hget, fun g t => ?_, ?_⟩
  · rw [halike]
  · have hleft : Grouping r.handlers := Registry.grouping_removeAll
      (grouping_serveAll (Registry.grouping_putAll hgroups m) _) hr
    have halone : Grouping alone.registry.handlers := grouping_serveAll hgroups _
    rw [Registry.types, Registry.types, hleft.mem_keys_iff, halone.mem_keys_iff]
    exact not_congr (iff_of_eq (congrArg (· = []) (hget t)))
  · show r.resolve _ = alone.registry.resolve _
    rw [Registry.resolve, Registry.resolve, funext hget]
  · intro x rest hx
    have hleft : ({ alone with registry := r } : Bus α).discovery s = .ok m := by
      rw [← hd, halike]
    have hmissing : r.missing? m = alone.registry.missing? m := by
      rw [Registry.missing?_eq_find?, Registry.missing?_eq_find?, funext hget]
    exact unregister_eq_error_iff.mpr (.inr ⟨m, hleft,
      Registry.removeAll_error_congr hmissing (hhosts.with_map.gone hx)⟩)

end Bus

/-! A guest that registers twice, while one subscriber comes and another tries to go twice. -/

namespace Ripple

def host : Subscriber := ⟨0, "Host", [.erased "Host" "on_ping" ping 0]⟩

def guest : Subscriber :=
  ⟨1, "Guest", [.erased "Guest" "on_ping" ping 1, .erased "Guest" "on_pong" pong 2]⟩

def late : Subscriber := ⟨2, "Late", [.erased "Late" "on_ping" ping 3]⟩

def found (s : Subscriber) : HandlerMap :=
  .ofList (s.methods.map fun m => ⟨s.id, m, m.params.headD .root⟩)

def visit : Bus.Script :=
  [some (.register late), none, some (.unregister host), some (.unregister host)]

theorem visit_fair : visit.Fair guest (found guest) .declared := by
  have hlate : (found guest).Apart (found late) := by unfold HandlerMap.Apart; decide
  have hhost : (found guest).Apart (found host) := by unfold HandlerMap.Apart; decide
  have hrequest : Bus.Request.Apart .declared (found guest) (.unregister host) := by
    intro m h
    cases h
    exact hhost
  refine ⟨?_, rfl, hrequest, hrequest, rfl⟩
  intro m h
  cases h
  exact hlate

theorem guest_leaves_no_trace :
    let b : Bus Unit := Builder.new.build.serveAll [.register host]
    (b.discovery guest = .ok (found guest) ∧
      (∀ x ∈ (found guest).toList, x.isIn (b.registry.get x.type) = false) ∧
      visit.Fair guest (found guest) b.discovery) ∧
    ∃ entered n left n', b.register guest = .ok (entered, n) ∧
      visit.answers guest entered = [some (.ok (.registered "default" "Late" 1)),
        some (.ok (.unregistered "default" "Host" 1)), some (.error (.unknownSubscriber "Host"))] ∧
      (entered.serveAll (visit.requests guest)).unregister guest = .ok (left, n') ∧
      left.registry.get ping = (found late).toList ∧ pong ∉ left.registry.types ∧
      left.unregister guest = .error (.unknownSubscriber "Guest") := by
  intro b
  have hnone : ∀ x ∈ (found guest).toList, x.isIn (b.registry.get x.type) = false := by decide
  obtain ⟨entered, n, hentered, hanswers, left, n', hleft, -, htypes, hget, -, hagain⟩ :=
    Bus.leaves_no_trace (α := Unit) .new [.register host] guest (found guest) visit rfl hnone visit_fair
  refine ⟨⟨rfl, hnone, visit_fair⟩, entered, n, left, n', hentered, ?_, hleft, ?_, ?_, ?_⟩
  · rw [hanswers]
    rfl
  · rw [hget]
    rfl
  · rw [htypes]
    decide
  · exact hagain _ _ rfl

end Ripple
end EventBus
