import EventBus.Source.Bound

/-!
# Types

A path, a reference, a trait object and a parenthesised type are kept apart, for later stages ask
for them; of every other type only the trees are kept.
-/

namespace EventBus.Source
namespace Grammar

open Reader

/-! ## Functions -/

def convention : Reader (List Tree) := do
  let head ← keyword "extern"
  if ← sees startsString then return head ++ (← literal) else return head

def convention? : Reader (List Tree) := do
  if ← sees (startsWord "extern") then convention else return []

def functionInput (g : Grammar) (first : Bool) : Reader (List Tree) := do
  let start ← ahead
  let mutSelf (ts : List Tree) := startsWord "mut" ts && startsWord "self" (ts.drop 1)
  let isMut := first && mutSelf start
  let _ ← advance (if isMut then 1 else 0)
  let ts ← ahead
  let isSelf := first && startsWord "self" ts
  let named := (startsIdentifier ts || startsWord "_" ts || isSelf) &&
    startsMark ":" (ts.drop 1) && !startsMark "::" (ts.drop 1)
  let name ← advance (if named then 2 else 0)
  if first && !(named && isSelf) && mutSelf (← ahead) then
    let _ ← advance 2
    since start
  else if isMut && !named then
    let _ ← keyword "self"
    since start
  else
    let t ← g.type true
    if isMut then since start else return name ++ t.trees

def functionInputs (g : Grammar) : Reader (List Tree) :=
  gather fun first => do
    if ← atEnd then return ([], false)
    let attributes ← g.outerAttributes
    let ts ← ahead
    let named := (startsIdentifier ts || startsWord "_" ts) && startsMark ":" (ts.drop 1) &&
      startsMark "..." (ts.drop 2)
    if named || startsMark "..." ts then
      let name ← advance (if named then 2 else 0)
      let dots ← mark "..."
      return (Attribute.outer attributes ++ name ++ dots ++ (← mark? ","), false)
    else
      let input ← g.functionInput first
      let trees := Attribute.outer attributes ++ input
      if ← atEnd then return (trees, false)
      return (trees ++ (← mark ","), true)

def functionType (g : Grammar) (binder : List Tree) : Reader Ty := do
  let safety ← keyword? "unsafe"
  let convention ← convention?
  let fn ← keyword "fn"
  let (inputs, left) ← enter .parenthesis g.functionInputs
  let output ← g.result? false
  note .parenthesis left
  return .other (binder ++ safety ++ convention ++ fn ++ [.group .parenthesis inputs] ++ output)

/-! ## Trait objects -/

/-- A trait object that starts with the given bound, its further bounds each after a plus. With
`lenient` a plus may also stand at its end. -/
def bareObject (g : Grammar) (lenient : Bool) (first : Bound × List Tree) : Reader Ty := do
  if ← sees (!startsMark "+" ·) then return .object first.2 [first.1] true
  let plus ← mark "+"
  let stop (ts : List Tree) := lenient && !startsBound false ts
  let more ← chained "+" stop (g.bound false false)
  let closed := more.items.isEmpty || more.closed
  return .object (first.2 ++ plus ++ more.boundTrees) (first.1 :: more.items.map Prod.fst) !closed

inductive Parenthesized where
  | tuple (trees : List Tree)
  | object (type : Ty)
  | relaxed (bound : Bound × List Tree)
  | single (type : Ty)

def parenthesized (g : Grammar) : Reader Parenthesized := do
  let ts ← ahead
  if ts.isEmpty then return .tuple []
  else if startsLifetime ts then
    let bs ← g.objectBounds true
    return .object (.object bs.boundTrees (bs.items.map Prod.fst) !bs.closed)
  else if startsMark "?" ts then return .relaxed (← g.traitBound false)
  else
    let t ← g.type true
    let comma ← mark? ","
    if comma.isEmpty then return .single t
    else return .tuple (t.trees ++ comma ++ (← g.types))

/-- The one bound that a type in parentheses is in front of a plus, and how it is written. It has
no second pair of parentheses. -/
def soleBound? : Ty → Option (Bound × List Tree)
  | .path p => some (.trait p.last, [.group .parenthesis p.trees])
  | .object [.group .parenthesis ts] [b] true => some (b, [.group .parenthesis ts])
  | .object ts [b] true => some (b, [.group .parenthesis ts])
  | _ => none

def parenType (g : Grammar) (plus : Bool) : Reader Ty := do
  let (content, left) ← enter .parenthesis g.parenthesized
  let several := plus && (← sees (startsMark "+"))
  let t ← match content with
    | .tuple ts => pure (.other [.group .parenthesis ts])
    | .object t => pure (.paren [.group .parenthesis t.trees] t)
    | .relaxed (b, ts) => g.bareObject false (b, [.group .parenthesis ts])
    | .single t =>
      match if several then soleBound? t else none with
      | some first => g.bareObject false first
      | none => pure (.paren [.group .parenthesis t.trees] t)
  note .parenthesis left
  return t

/-! ## Types -/

/-- A type that is a path, a macro call or a trait object that starts with a path. A macro call
loses the binder in front of it. -/
def pathType (g : Grammar) (plus : Bool) (binder : List Tree) : Reader Ty := do
  let p ← g.path false
  let ts ← ahead
  if startsMark "!" ts && !startsMark "!=" ts && !p.anyArguments then
    return .other (p.trees ++ (← mark "!") ++ (← anyGroup))
  else if !binder.isEmpty || (plus && startsMark "+" ts) then
    let first := (Bound.trait p.last, binder ++ p.trees)
    if plus then g.bareObject true first else return .object first.2 [first.1] true
  else return .path p

def builtinType : Reader (List Tree) := do
  let head ← keyword "builtin"
  let hash ← mark "#"
  let name ← identifier
  return head ++ hash ++ .word name :: (← group .parenthesis rest)

def dynType (g : Grammar) (plus : Bool) : Reader Ty := do
  let start ← ahead
  let head ← keyword "dyn"
  let star ← mark? "*"
  let bs ← g.objectBounds plus
  if star.isEmpty then return .object (head ++ bs.boundTrees) (bs.items.map Prod.fst) false
  else return .other (← since start)

def sliceType (g : Grammar) : Reader Ty := do
  return .other (← group .bracket do
    let t ← g.type true
    let semicolon ← mark? ";"
    if semicolon.isEmpty then return t.trees
    else return t.trees ++ semicolon ++ (← g.expression true).trees)

def pointerType (g : Grammar) : Reader Ty := do
  let star ← mark "*"
  let ts ← ahead
  if !startsOneOf ["const", "mut"] ts then wanted [ticked "const", ticked "mut"]
  let mutability ← advance 1
  return .other (star ++ mutability ++ (← g.type false).trees)

def referenceType (g : Grammar) : Reader Ty := do
  let sign ← mark "&"
  let name ← lifetime?
  let mutability ← keyword? "mut"
  let t ← g.type false
  return .reference (sign ++ name ++ mutability ++ t.trees) (!mutability.isEmpty) t

def opaqueType (g : Grammar) (plus : Bool) : Reader Ty := do
  let head ← keyword "impl"
  let bs ← g.bounds plus true true
  if bs.items.all fun b => b.1 = .lifetime || b.1 = .capture then throw .noOpaqueTrait
  return .other (head ++ bs.boundTrees)

def typeStarts : List String :=
  [ticked "for", "parentheses", ticked "fn", ticked "unsafe", ticked "extern", "identifier",
    ticked "::", ticked "<", ticked "dyn", "square brackets", ticked "*", ticked "&", ticked "!",
    ticked "impl", ticked "_", "lifetime"]

def afterBinder : List String :=
  "identifier" :: ["fn", "unsafe", "extern", "super", "self", "Self", "crate"].map ticked

def readType (g : Grammar) (plus : Bool) : Reader Ty := do
  let start ← ahead
  let binder ← g.binder?
  let ts ← ahead
  let named := startsIdentifier ts || startsOneOf ["super", "self", "Self", "crate"] ts
  let function := startsOneOf ["fn", "unsafe", "extern"] ts
  if !binder.isEmpty && !named && !function then wanted afterBinder
  if startsGroup .parenthesis ts then g.parenType plus
  else if function then g.functionType binder
  else if startsWord "builtin" ts && startsMark "#" (ts.drop 1) then
    let _ ← builtinType
    return .other (← since start)
  else if named || startsMark "::" ts then g.pathType plus binder
  else if startsMark "<" ts then return .other (← g.qualifiedPath false)
  else if startsWord "dyn" ts then g.dynType plus
  else if startsGroup .bracket ts then g.sliceType
  else if startsMark "*" ts then g.pointerType
  else if startsMark "&" ts then g.referenceType
  else if startsMark "!" ts then return .other (← mark "!")
  else if startsWord "impl" ts then g.opaqueType plus
  else if startsWord "_" ts then return .other (← advance 1)
  else if startsLifetime ts then
    let bs ← g.objectBounds true
    return .object bs.boundTrees (bs.items.map Prod.fst) !bs.closed
  else wanted typeStarts

end Grammar
end EventBus.Source
