import EventBus.Source.Path

/-!
# Generic parameters

A parameter list is shown in full, with bounds but without defaults, or by names alone. Lifetimes
always come first, and a colon without bounds is dropped.
-/

namespace EventBus.Source

inductive Param where
  | lifetime (attributes : List Attribute) (name : List Tree) (bounds : List Tree)
  | type (attributes : List Attribute) (name : List Tree) (bounds default? : List Tree)
  | const (attributes : List Attribute) (name : List Tree) (ty default? : List Tree)

namespace Param

def isLifetime : Param → Bool
  | lifetime .. => true
  | _ => false

def bounded (bounds : List Tree) : List Tree := if bounds.isEmpty then [] else marks ":" ++ bounds

def withBounds : Param → List Tree
  | lifetime as n bounds => Attribute.outer as ++ n ++ bounded bounds
  | type as n bounds _ => Attribute.outer as ++ n ++ bounded bounds
  | const as n ty _ => Attribute.outer as ++ .word "const" :: n ++ marks ":" ++ ty

def full (p : Param) : List Tree :=
  match p with
  | type _ _ _ (d :: ds) => p.withBounds ++ marks "=" ++ d :: ds
  | const _ _ _ (d :: ds) => p.withBounds ++ marks "=" ++ d :: ds
  | _ => p.withBounds

def name : Param → List Tree
  | lifetime _ n _ | type _ n _ _ | const _ n _ _ => n

end Param

structure Generics where
  params : Separated Param
  predicates : List Tree

namespace Generics

def empty : Generics := ⟨.empty, []⟩

def isEmpty (g : Generics) : Bool := g.params.items.isEmpty

def angledBy (g : Generics) (f : Param → List Tree) : List Tree :=
  if g.isEmpty then [] else angled (g.params.map fun p => ⟨f p, p.isLifetime⟩)

def declared (g : Generics) : List Tree := g.angledBy Param.full

def forImpl (g : Generics) : List Tree := g.angledBy Param.withBounds

def asArguments (g : Generics) : List Tree := g.angledBy Param.name

def whereClause (g : Generics) : List Tree :=
  if g.predicates.isEmpty then [] else .word "where" :: g.predicates

end Generics

/-- Whether an angle bracket opens generic parameters, and not a path that starts at a type. -/
def opensParams (ts : List Tree) : Bool :=
  let second := ts.drop 1
  let third := ts.drop 2
  startsMark "<" ts &&
    (startsMark ">" second || startsMark "#" second || startsWord "const" second ||
      ((startsLifetime second || startsIdentifier second) &&
        (([":", ",", ">", "="].any (startsMark · third)) && !startsMark "::" third)))

namespace Grammar

open Reader

def boundsUntil (g : Grammar) (stop : List Tree → Bool) : Reader (List Tree) := do
  let bounds ← chained "+" stop do return (← g.bound false true).2
  return bounds.trees "+" id

def lifetimesUntil (stop : List Tree → Bool) : Reader (List Tree) := do
  return (← chained "+" stop lifetime).trees "+" id

def lifetimeParam (attributes : List Attribute) : Reader Param := do
  let name ← lifetime
  let colon ← mark? ":"
  let bounds ← if colon.isEmpty then pure []
    else lifetimesUntil fun ts => ts.isEmpty || startsMark "," ts || startsMark ">" ts
  return .lifetime attributes name bounds

def typeParam (g : Grammar) (attributes : List Attribute) : Reader Param := do
  let name ← identifier
  let colon ← mark? ":"
  let bounds ← if colon.isEmpty then pure []
    else g.boundsUntil fun ts => ts.isEmpty || [",", ">", "="].any (startsMark · ts)
  let eq ← mark? "="
  let default? ← if eq.isEmpty then pure [] else pure (← g.type true).trees
  return .type attributes [.word name] bounds default?

def constParam (g : Grammar) (attributes : List Attribute) : Reader Param := do
  let _ ← keyword "const"
  let name ← identifier
  let _ ← mark ":"
  let t ← g.type true
  let eq ← mark? "="
  let default? ← if eq.isEmpty then pure [] else g.constant
  return .const attributes [.word name] t.trees default?

def declaredParam (g : Grammar) : Reader Param := do
  let attributes ← g.outerAttributes
  let ts ← ahead
  if startsLifetime ts then lifetimeParam attributes
  else if startsIdentifier ts then g.typeParam attributes
  else if startsWord "const" ts then g.constParam attributes
  else if startsWord "_" ts then return .type attributes (← advance 1) [] []
  else wanted ["lifetime", "identifier", ticked "const"]

def boundParam (g : Grammar) : Reader Param := do
  let attributes ← g.outerAttributes
  let ts ← ahead
  if startsIdentifier ts then g.typeParam attributes
  else if startsLifetime ts then lifetimeParam attributes
  else if startsWord "const" ts then g.constParam attributes
  else wanted ["identifier", "lifetime", ticked "const"]

def params (g : Grammar) : Reader Generics := do
  let _ ← mark "<"
  let params ← separated "," (startsMark ">") g.declaredParam
  let _ ← mark ">"
  return ⟨params, []⟩

def params? (g : Grammar) : Reader Generics := do
  if ← sees (startsMark "<") then g.params else return .empty

/-- What a bound or type is for all of; it may be missing, and keeps the order of its parameters. -/
def binder? (g : Grammar) : Reader (List Tree) := do
  if ← sees (startsWord "for") then
    let head ← keyword "for"
    let opening ← mark "<"
    let params ← separated "," (startsMark ">") g.boundParam
    return head ++ opening ++ params.trees "," Param.full ++ (← mark ">")
  else return []

def endsPredicates (ts : List Tree) : Bool :=
  ts.isEmpty || startsGroup .brace ts || startsMark "," ts || startsMark ";" ts ||
    (startsMark ":" ts && !startsMark "::" ts) || startsMark "=" ts

def predicate (g : Grammar) : Reader (List Tree) := do
  let ts ← ahead
  if startsLifetime ts && startsMark ":" (ts.drop 1) then
    let name ← lifetime
    let colon ← mark ":"
    return name ++ colon ++
      (← lifetimesUntil fun ts => endsPredicates ts || startsMark ":" ts)
  else
    let binder ← g.binder?
    let t ← g.type true
    let colon ← mark ":"
    return binder ++ t.trees ++ colon ++ (← g.boundsUntil endsPredicates)

def predicates? (g : Grammar) : Reader (List Tree) := do
  if ← sees (startsWord "where") then
    let _ ← keyword "where"
    if opensParams (← ahead) then throw .whereParameters
    return (← chained "," endsPredicates g.predicate).trees "," id
  else return []

end Grammar
end EventBus.Source
