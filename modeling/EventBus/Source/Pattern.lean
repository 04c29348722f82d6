import EventBus.Source.Type

/-!
# Patterns

Patterns are read for the trees they are written with. A range may be written with three dots, and
is written out with two and an equals sign.
-/

namespace EventBus.Source
namespace Grammar

open Reader

def alternatives (g : Grammar) : Reader Pattern := do
  let bar ← mark? "|"
  let continues (ts : List Tree) :=
    startsMark "|" ts && !startsMark "||" ts && !startsMark "|=" ts
  let first ← g.pattern
  if bar.isEmpty && !continues (← ahead) then return first
  let more ← many continues do return (← mark "|") ++ (← g.pattern).trees
  return .plain (bar ++ first.trees ++ more.flatten)

def rangeMark (lenient : Bool) : Reader (List Tree × Bool) := do
  let ts ← ahead
  if startsMark "..=" ts then return (← mark "..=", true)
  else if startsMark "..." ts then
    if lenient then
      let _ ← mark "..."
      return (marks "..=", true)
    else wanted [ticked "..="]
  else if startsMark ".." ts then return (← mark "..", false)
  else wanted [ticked ".."]

def rangeBound? (g : Grammar) : Reader (Option (List Tree)) := do
  let ts ← ahead
  if ts.isEmpty || ["|", "=", ",", ";"].any (startsMark · ts) || startsWord "if" ts ||
      (startsMark ":" ts && !startsMark "::" ts) then return none
  else if startsLiteral ts then return some (← literal)
  else if startsMark "<" ts then return some (← g.qualifiedPath true)
  else if startsIdentifier ts || startsMark "::" ts ||
      startsOneOf ["self", "Self", "super", "crate"] ts then return some (← g.path true).trees
  else if startsWord "const" ts then return some ((← keyword "const") ++ (← g.body))
  else
    wanted (["literal", "identifier", ticked "::", ticked "<"] ++
      ["self", "Self", "super", "crate", "const"].map ticked)

def rangePattern (g : Grammar) (lenient : Bool) (start : List Tree) : Reader Pattern := do
  let (dots, closed) ← rangeMark lenient
  match ← g.rangeBound? with
  | some stop => return ⟨start ++ dots ++ stop, if start.isEmpty then .openRange else .plain⟩
  | none =>
    if closed then wanted ["range upper bound"]
    else return ⟨start ++ dots, if start.isEmpty then .rest else .openRange⟩

def patternList (g : Grammar) : Reader (List Tree) := commaList do return (← g.alternatives).trees

def member : Reader (List Tree × Bool) := do
  let ts ← ahead
  if startsIdentifier ts then return (← advance 1, true)
  else if startsInteger ts then return (← position, false)
  else wanted ["identifier or integer"]

def fieldPattern (g : Grammar) : Reader (List Tree) := do
  let boxed ← keyword? "box"
  let byRef ← keyword? "ref"
  let mutability ← keyword? "mut"
  let modifiers := boxed ++ byRef ++ mutability
  let (name, named) ← if modifiers.isEmpty then member
    else pure ([.word (← identifier)], true)
  if !named || (modifiers.isEmpty && (← sees (startsMark ":"))) then
    return name ++ (← mark ":") ++ (← g.alternatives).trees
  else return modifiers ++ name

def fieldPatterns (g : Grammar) : Reader (List Tree) :=
  gather fun _ => do
    if ← atEnd then return ([], false)
    let attributes := Attribute.outer (← g.outerAttributes)
    if ← sees (startsMark "..") then return (attributes ++ (← mark ".."), false)
    let field ← g.fieldPattern
    if ← atEnd then return (attributes ++ field, false)
    return (attributes ++ field ++ (← mark ","), true)

def pathPattern (g : Grammar) : Reader Pattern := do
  let (path, plain) ← if ← sees (startsMark "<") then
      pure (← g.qualifiedPath true, false)
    else
      let p ← g.path true
      pure (p.trees, !p.anyArguments)
  let ts ← ahead
  if plain && startsMark "!" ts && !startsMark "!=" ts then
    return .plain (path ++ (← mark "!") ++ (← anyGroup))
  else if startsGroup .brace ts then
    return .plain (path ++ (← group .brace g.fieldPatterns))
  else if startsGroup .parenthesis ts then
    return .plain (path ++ (← group .parenthesis g.patternList))
  else if startsMark ".." ts then g.rangePattern true path
  else return .plain path

def constantPattern (g : Grammar) : Reader Pattern := do
  let start ← g.rangeBound?
  let start := start.getD []
  if ← sees (startsMark "..") then g.rangePattern true start else return .plain start

def bindingPattern (g : Grammar) : Reader Pattern := do
  let byRef ← keyword? "ref"
  let mutability ← keyword? "mut"
  let name ← if ← sees (startsWord "self") then anyWord else identifier
  let sign ← mark? "@"
  let inner ← if sign.isEmpty then pure [] else pure (← g.pattern).trees
  return .plain (byRef ++ mutability ++ .word name :: sign ++ inner)

def parenPattern (g : Grammar) : Reader Pattern :=
  return .plain (← group .parenthesis g.patternList)

def slicePattern (g : Grammar) : Reader Pattern :=
  return .plain (← group .bracket do
    commaList do
      let p ← g.alternatives
      if p.kind = .openRange then throw .openRange
      return p.trees)

def patternStarts : List String :=
  ["identifier", ticked "::", ticked "<", ticked "_", "literal", ticked "const", ticked "ref",
    ticked "mut", ticked "&", "parentheses", "square brackets", ticked ".."]

def readPattern (g : Grammar) : Reader Pattern := do
  let ts ← ahead
  let next := ts.drop 1
  let pathFollows := startsMark "::" next || startsMark "!" next || startsGroup .brace next ||
    startsGroup .parenthesis next || startsMark ".." next
  if (startsIdentifier ts && pathFollows) || (startsWord "self" ts && startsMark "::" next) ||
      startsMark "::" ts || startsMark "<" ts || startsOneOf ["Self", "super", "crate"] ts then
    g.pathPattern
  else if startsWord "_" ts then return .plain (← advance 1)
  else if startsWord "box" ts then
    return ⟨← raw do
      let _ ← advance 1
      g.pattern, .verbatim⟩
  else if startsMark "-" ts || startsLiteral ts || startsWord "const" ts then g.constantPattern
  else if startsOneOf ["ref", "mut", "self"] ts || startsIdentifier ts then g.bindingPattern
  else if startsMark "&" ts then
    return .plain ((← mark "&") ++ (← keyword? "mut") ++ (← g.pattern).trees)
  else if startsGroup .parenthesis ts then g.parenPattern
  else if startsGroup .bracket ts then g.slicePattern
  else if startsMark ".." ts && !startsMark "..." ts then g.rangePattern false []
  else wanted patternStarts

end Grammar
end EventBus.Source
