import EventBus.Source.Generics

/-!
# Bounds

A bound is a lifetime, the parameters that an opaque type captures, or a trait: relaxed by a
question mark, for all lifetimes, or with a mode. The last segment of its path may have arguments
in parentheses and a result.
-/

namespace EventBus.Source
namespace Grammar

open Reader

def result? (g : Grammar) (plus : Bool) : Reader (List Tree) := do
  let arrow ← mark? "->"
  if arrow.isEmpty then return [] else return arrow ++ (← g.type plus).trees

def types (g : Grammar) : Reader (List Tree) := commaList do return (← g.type true).trees

def captured : Reader (List Tree) := do
  let head ← keyword "use"
  let opening ← mark "<"
  let params ← separated "," (startsMark ">") do
    let ts ← ahead
    if !startsLifetime ts && !startsIdentifier ts && !startsWord "Self" ts then
      wanted ["lifetime", "identifier", ticked ">"]
    let param ← advance 1
    if ← sees fun after => !startsMark "," after && !startsMark ">" after then
      wanted [ticked ",", ticked ">"]
    return (⟨param, startsLifetime ts⟩ : Argument)
  let closing ← mark ">"
  return head ++ opening ++ lifetimesFirst params ++ closing

def mode? (allowed : Bool) : Reader (List Tree) := do
  let ts ← ahead
  if startsGroup .bracket ts then
    let mode ← group .bracket (keyword "const")
    if allowed then return mode else throw (.bound "`[const]`")
  else if startsWord "const" ts then
    let mode ← keyword "const"
    if allowed then return mode else throw (.bound "`const`")
  else return []

def traitBound (g : Grammar) (modes : Bool) : Reader (Bound × List Tree) := do
  let binder ← g.binder?
  let mode ← mode? modes
  let relaxed ← mark? "?"
  let binder ← if binder.isEmpty && !relaxed.isEmpty then g.binder? else pure binder
  let p ← g.path false
  let ts ← ahead
  let call := !p.hasArguments && (startsGroup .parenthesis ts ||
    (startsMark "::" ts && startsGroup .parenthesis (ts.drop 2)))
  let trees ← if call then
      let _ ← mark? "::"
      let inputs ← group .parenthesis g.types
      pure (p.trees ++ inputs ++ (← g.result? false))
    else pure p.trees
  if !binder.isEmpty && !relaxed.isEmpty then throw .relaxedBinder
  return (if mode.isEmpty then .trait p.last else .moded, mode ++ relaxed ++ binder ++ trees)

def readBound (g : Grammar) (captures modes : Bool) : Reader (Bound × List Tree) := do
  let start ← ahead
  if startsLifetime start then return (.lifetime, ← lifetime)
  else if startsWord "use" start then
    let params ← captured
    if captures then return (.capture, params)
    else throw (.bound "`use<...>` precise capturing syntax")
  else
    let (b, trees) ← if startsGroup .parenthesis start then do
        let (b, trees) ← within .parenthesis (g.traitBound modes)
        pure (b, [.group .parenthesis trees])
      else g.traitBound modes
    if b = .moded then return (b, ← since start) else return (b, trees)

def startsBound (modes : Bool) (ts : List Tree) : Bool :=
  startsAnyWord ts || startsMark "::" ts || startsMark "?" ts || startsLifetime ts ||
    startsGroup .parenthesis ts ||
    (modes && (startsGroup .bracket ts || startsWord "const" ts))

def bounds (g : Grammar) (plus captures modes : Bool) : Reader (Separated (Bound × List Tree)) := do
  let stop (ts : List Tree) := !startsBound modes ts
  let first ← g.bound captures modes
  if plus && (← sees (startsMark "+")) then
    let _ ← mark "+"
    let more ← chained "+" stop (g.bound captures modes)
    return ⟨first :: more.items, more.items.isEmpty || more.closed⟩
  else return ⟨[first], false⟩

def objectBounds (g : Grammar) (plus : Bool) : Reader (Separated (Bound × List Tree)) := do
  let bs ← g.bounds plus false false
  if bs.items.all fun b => b.1 = .lifetime then throw .noObjectTrait
  return bs

end Grammar

namespace Separated

def boundTrees (bs : Separated (Bound × List Tree)) : List Tree := bs.trees "+" (·.2)

end Separated
end EventBus.Source
