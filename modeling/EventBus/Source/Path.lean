import EventBus.Source.Attribute

/-!
# Paths

A path is a list of words with double colons between them, each with generic arguments or none.
Among generic arguments the lifetimes are put first. In an expression the arguments need a double
colon in front.
-/

namespace EventBus.Source

/-! ## Lifetimes first -/

structure Argument where
  trees : List Tree
  isLifetime : Bool

/-- A list in which lifetimes come first. A comma is put between the two parts where the last
lifetime has none, and every item keeps its own. -/
def lifetimesFirst (args : Separated Argument) : List Tree :=
  let put (a : Argument × Bool) := a.1.trees ++ if a.2 then marks "," else []
  let lifetimes := args.withMarks.filter (·.1.isLifetime)
  let others := args.withMarks.filter (!·.1.isLifetime)
  let gap := if !others.isEmpty && lifetimes.getLast?.elim false (!·.2) then marks "," else []
  lifetimes.flatMap put ++ gap ++ others.flatMap put

def angled (args : Separated Argument) : List Tree :=
  marks "<" ++ lifetimesFirst args ++ marks ">"

/-! ## Reading -/

namespace Path

def push (p : Path) (colons : List Tree) (segment : String × List Tree) : Path where
  trees := p.trees ++ colons ++ .word segment.1 :: segment.2
  last := segment.1
  hasArguments := !segment.2.isEmpty
  anyArguments := p.anyArguments || !segment.2.isEmpty
  isSingle := false

def single (leading : List Tree) (segment : String × List Tree) : Path where
  trees := leading ++ .word segment.1 :: segment.2
  last := segment.1
  hasArguments := !segment.2.isEmpty
  anyArguments := !segment.2.isEmpty
  isSingle := leading.isEmpty

end Path

def startsArguments (inExpression : Bool) (ts : List Tree) : Bool :=
  (!inExpression && startsMark "<" ts && !startsMark "<=" ts && !startsMark "<<=" ts) ||
    (startsMark "::" ts && startsMark "<" (ts.drop 2))

namespace Grammar

open Reader

/-- A block, or in its place what stands for a whole body: attributes and statements. -/
def body (g : Grammar) : Reader (List Tree) :=
  group .brace do
    let attributes ← g.innerAttributes
    return Attribute.inner attributes ++ (← g.statements)

def block (g : Grammar) : Reader (List Tree) := group .brace g.statements

def constant (g : Grammar) : Reader (List Tree) := do
  let ts ← ahead
  if startsLiteral ts then literal
  else if startsIdentifier ts then advance 1
  else if startsGroup .brace ts then g.body
  else wanted []

def argument (g : Grammar) : Reader Argument := do
  let ts ← ahead
  if startsLifetime ts && !startsMark "+" (ts.drop 1) then return ⟨← lifetime, true⟩
  if startsLiteral ts || startsGroup .brace ts then return ⟨← g.constant, false⟩
  let t ← g.type true
  match t with
  | .path p =>
    let ts ← ahead
    if p.isSingle && startsMark "=" ts then
      let eq ← mark "="
      let ts ← ahead
      let value ← if startsLiteral ts || startsGroup .brace ts then g.constant
        else pure (← g.type true).trees
      return ⟨t.trees ++ eq ++ value, false⟩
    else if p.isSingle && startsMark ":" ts then
      let colon ← mark ":"
      let bounds ← chained "+" (fun ts => startsMark "," ts || startsMark ">" ts) do
        return (← g.bound false true).2
      return ⟨t.trees ++ colon ++ bounds.trees "+" id, false⟩
    else return ⟨t.trees, false⟩
  | t => return ⟨t.trees, false⟩

def arguments (g : Grammar) : Reader (List Tree) := do
  let colons ← mark? "::"
  let _ ← mark "<"
  let args ← separated "," (startsMark ">") g.argument
  let _ ← mark ">"
  return colons ++ angled args

def segment (g : Grammar) (inExpression : Bool) : Reader (String × List Tree) := do
  if ← sees (startsOneOf ["super", "self", "crate", "try"]) then return (← anyWord, [])
  let w ← if ← sees (startsWord "Self") then anyWord else identifier
  if startsArguments inExpression (← ahead) then return (w, ← g.arguments) else return (w, [])

/-- The segments that follow the first ones, at most `fuel` of them. Double colons in front of a
parenthesis do not belong to the path. -/
def segmentsUpTo (g : Grammar) (inExpression : Bool) : Nat → Path → Reader Path
  | 0, p => return p
  | fuel + 1, p => do
    let ts ← ahead
    if startsMark "::" ts && !startsGroup .parenthesis (ts.drop 2) then
      let colons ← mark "::"
      segmentsUpTo g inExpression fuel (p.push colons (← g.segment inExpression))
    else return p

def readPath (g : Grammar) (inExpression : Bool) : Reader Path := do
  let leading ← mark? "::"
  let first ← g.segment inExpression
  segmentsUpTo g inExpression (← ahead).length (.single leading first)

def qualifiedPath (g : Grammar) (inExpression : Bool) : Reader (List Tree) := do
  let opening ← mark "<"
  let t ← g.type true
  let trait ← if ← sees (startsWord "as") then
      pure ((← keyword "as") ++ (← g.path false).trees)
    else pure []
  let closing ← mark ">"
  let colons ← mark "::"
  let segments ← gather fun _ => do
    let (w, args) ← g.segment inExpression
    let colons ← mark? "::"
    return (.word w :: args ++ colons, !colons.isEmpty)
  return opening ++ t.trees ++ trait ++ closing ++ colons ++ segments

end Grammar
end EventBus.Source
