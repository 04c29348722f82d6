import EventBus.Source.Data

/-!
# Implementation blocks

A block implements a trait or is inherent. Its methods are kept apart from its other members, of
which only the trees are kept. A method without a body is no method in this sense, and stays as it
was written.
-/

namespace EventBus.Source

structure MethodItem where
  attributes : List Attribute
  modifiers : List Tree
  signature : Signature
  statements : List Tree

def MethodItem.trees (m : MethodItem) : List Tree :=
  Attribute.outer m.attributes ++ m.modifiers ++ m.signature.trees ++
    [.group .brace (Attribute.inner m.attributes ++ m.statements)]

inductive Member where
  | method (m : MethodItem)
  | other (trees : List Tree)

def Member.trees : Member → List Tree
  | method m => m.trees
  | other ts => ts

structure Block where
  attributes : List Attribute
  modifiers : List Tree
  generics : Generics
  trait? : Option (List Tree)
  self : List Tree
  members : List Member

def Block.trees (b : Block) : List Tree :=
  Attribute.outer b.attributes ++ b.modifiers ++ .word "impl" :: b.generics.declared ++
    b.trait?.getD [] ++ b.self ++ b.generics.whereClause ++
    [.group .brace (Attribute.inner b.attributes ++ b.members.flatMap (·.trees))]

namespace Grammar

open Reader

/-! ## Parts that several declarations have -/

def constantName : Reader String := do
  let ts ← ahead
  if startsIdentifier ts || startsWord "_" ts then anyWord
  else wanted ["identifier", ticked "_"]

structure ConstantRest where
  trees : List Tree
  hasValue : Bool
  isGeneric : Bool

def constantRest (g : Grammar) : Reader ConstantRest := do
  let name ← constantName
  let hasParams ← sees (startsMark "<")
  let params ← g.params?
  let colon ← mark ":"
  let t ← g.type true
  let eq ← mark? "="
  let value ← if eq.isEmpty then pure [] else pure (← g.expression true).trees
  let hasClause ← sees (startsWord "where")
  let predicates ← g.predicates?
  let semicolon ← mark ";"
  let generics : Generics := { params with predicates }
  return ⟨.word name :: generics.declared ++ colon ++ t.trees ++ eq ++ value ++
    generics.whereClause ++ semicolon, !eq.isEmpty, hasParams || hasClause⟩

structure TypeAlias where
  head : List Tree
  generics : Generics
  hasColon : Bool
  bounds : List Tree
  definition : List Tree

def aliasBounds (g : Grammar) (stop : List Tree → Bool) : Reader (List Tree) := do
  return (← separated "+" stop do return (← g.bound false true).2).trees "+" id

inductive ClausePlace where
  | before
  | after
  | either
deriving DecidableEq, Repr

def typeAlias (g : Grammar) (isDefault : Bool) (place : ClausePlace) : Reader TypeAlias := do
  let default ← if isDefault then keyword? "default" else pure []
  let head ← keyword "type"
  let name ← identifier
  let generics ← g.params?
  let colon ← mark? ":"
  let bounds ← if colon.isEmpty then pure []
    else g.aliasBounds fun ts => startsWord "where" ts || startsMark "=" ts || startsMark ";" ts
  let hasClause ← sees (startsWord "where")
  let before ← if place = .after then pure [] else g.predicates?
  let eq ← mark? "="
  let definition ← if eq.isEmpty then pure [] else pure (eq ++ (← g.type true).trees)
  let after ← if place = .before || (place = .either && hasClause) then pure []
    else g.predicates?
  let _ ← mark ";"
  return ⟨default ++ head ++ [.word name], { generics with predicates := before ++ after },
    !colon.isEmpty, bounds, definition⟩

def macroCall : Reader (List Tree) := do
  let bang ← mark "!"
  let braced ← sees (startsGroup .brace)
  let arguments ← anyGroup
  if braced then return bang ++ arguments else return bang ++ arguments ++ (← mark ";")

def startsMacroPath (ts : List Tree) : Bool :=
  startsIdentifier ts || startsOneOf ["self", "super", "crate"] ts || startsMark "::" ts

def macroPathStarts : List String :=
  "identifier" :: ["self", "super", "crate", "::"].map ticked

/-! ## Members -/

def method? (g : Grammar) (attributes : List Attribute) : Reader (Option MethodItem) := do
  let visible ← visibility
  let default ← keyword? "default"
  let signature ← g.signature
  if ← sees (startsMark ";") then
    let _ ← mark ";"
    return none
  let (inner, statements) ← within .brace do
    let inner ← g.innerAttributes
    return (inner, ← g.statements)
  return some ⟨attributes ++ inner, visible ++ default, signature, statements⟩

def member? (g : Grammar) : Reader Member := do
  let start ← ahead
  let attributes ← g.outerAttributes
  let outer := Attribute.outer attributes
  let visible ← sees (startsWord "pub")
  let ts ← past visibility
  let isDefault := startsWord "default" ts && !startsMark "!" (ts.drop 1)
  let body := if isDefault then ts.drop 1 else ts
  if startsSignature body then
    match ← g.method? attributes with
    | some m => return .method m
    | none => return .other (← since start)
  else if startsWord "const" body then
    let head := (← visibility) ++ (← if isDefault then advance 1 else pure []) ++
      (← keyword "const")
    let rest ← g.constantRest
    if rest.hasValue && !rest.isGeneric then return .other (outer ++ head ++ rest.trees)
    else return .other (← since start)
  else if startsWord "type" body then
    let visible ← visibility
    let a ← g.typeAlias true .after
    if a.definition.isEmpty || a.hasColon then return .other (← since start)
    else
      return .other (outer ++ visible ++ a.head ++ a.generics.declared ++ a.definition ++
        a.generics.whereClause ++ marks ";")
  else if !visible && !isDefault && startsMacroPath body then
    return .other (outer ++ (← wordPath) ++ (← macroCall))
  else
    let words := (if isDefault then [] else ["default"]) ++ ["fn", "const", "type"]
    wantedBefore body (words.map ticked ++ if visible || isDefault then [] else macroPathStarts)

/-! ## Blocks -/

/-- An implementation block. With `lenient` also one that is visible, is constant, or implements
what is no trait; such a block is kept as it was written, and none is given. -/
def block? (g : Grammar) (lenient : Bool) (attributes : List Attribute) :
    Reader (Option Block) := do
  let visible ← if lenient then visibility else pure []
  let default ← keyword? "default"
  let safety ← keyword? "unsafe"
  let _ ← keyword "impl"
  let generics ← if ← sees opensParams then g.params else pure .empty
  let ts ← ahead
  let isConst := lenient &&
    (startsWord "const" ts || (startsMark "?" ts && startsWord "const" (ts.drop 1)))
  if isConst then
    let _ ← mark? "?"
    let _ ← keyword "const"
  let ts ← ahead
  let polarity ← if startsMark "!" ts && !startsGroup .brace (ts.drop 1) then mark "!"
    else pure []
  let first ← g.type true
  let isFor ← sees (startsWord "for")
  let (trait?, self) ← if isFor then
      let head ← keyword "for"
      let trait? ← match first with
        | .path p => pure (some (polarity ++ p.trees ++ head))
        | _ => if lenient then pure none else throw .traitPath
      pure (trait?, (← g.type true).trees)
    else if polarity.isEmpty then pure (none, first.trees)
    else throw .negativeInherent
  let predicates ← g.predicates?
  let (inner, members) ← within .brace do
    let inner ← g.innerAttributes
    return (inner, ← toEnd g.member?)
  if !visible.isEmpty || isConst || (isFor && trait?.isNone) then return none
  return some ⟨attributes ++ inner, default ++ safety, { generics with predicates }, trait?, self,
    members⟩

def implementation (g : Grammar) : Reader Block := do
  match ← g.block? false (← g.outerAttributes) with
  | some b => return b
  | none => throw .traitPath

end Grammar
end EventBus.Source
