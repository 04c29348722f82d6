import EventBus.Source.Block

/-!
# Declarations and statements

What stands in a module, a trait or a block. Only the trees are kept, in the form in which they are
written out: a declaration that is known in full is normalised, every other stays as it was.
-/

namespace EventBus.Source
namespace Grammar

open Reader

/-! ## Declarations -/

/-- A function after its visibility; without a body it stays as it was written from `start`. -/
def function (g : Grammar) (start : List Tree) (attributes : List Attribute) :
    Reader (List Tree) := do
  let visible ← visibility
  let signature ← g.signature
  if ← sees (startsMark ";") then
    let _ ← mark ";"
    since start
  else
    return Attribute.outer attributes ++ visible ++ signature.trees ++ (← g.body)

/-- What an import names. With the flag the names in braces may start with double colons. -/
def useTreeUpTo : Nat → Bool → Reader (List Tree)
  | 0, _ => wanted []
  | fuel + 1, rooted => do
    let ts ← ahead
    if startsIdentifier ts || startsOneOf ["self", "super", "crate", "try"] ts then
      let name ← advance 1
      let ts ← ahead
      if startsMark "::" ts then return name ++ (← mark "::") ++ (← useTreeUpTo fuel false)
      else if startsWord "as" ts then
        let sign ← keyword "as"
        let ts ← ahead
        if startsIdentifier ts || startsWord "_" ts then return name ++ sign ++ (← advance 1)
        else wanted ["identifier or underscore"]
      else return name
    else if startsMark "*" ts then mark "*"
    else if startsGroup .brace ts then
      group .brace (commaList do
        let colons ← if rooted then mark? "::" else pure []
        return colons ++ (← useTreeUpTo fuel (rooted && colons.isEmpty)))
    else
      wanted ("identifier" :: ["self", "super", "crate", "try", "*"].map ticked ++ ["curly braces"])

def importDeclaration : Reader (List Tree) := do
  let visible ← visibility
  let head ← keyword "use"
  let colons ← mark? "::"
  let names ← useTreeUpTo (weight (← ahead) + 1) colons.isEmpty
  return visible ++ head ++ colons ++ names ++ (← mark ";")

def staticDeclaration (g : Grammar) (start : List Tree) (attributes : List Attribute) :
    Reader (List Tree) := do
  let visible ← visibility
  let head ← keyword "static"
  let mutability ← keyword? "mut"
  let name ← identifier
  if ← sees (startsMark "=") then
    let _ ← mark "="
    let _ ← g.expression true
    let _ ← mark ";"
    since start
  else
    let colon ← mark ":"
    let t ← g.type true
    if ← sees (startsMark ";") then
      let _ ← mark ";"
      since start
    else
      return Attribute.outer attributes ++ visible ++ head ++ mutability ++ .word name :: colon ++
        t.trees ++ (← mark "=") ++ (← g.expression true).trees ++ (← mark ";")

def constDeclaration (g : Grammar) (start : List Tree) (attributes : List Attribute) :
    Reader (List Tree) := do
  let visible ← visibility
  let head ← keyword "const"
  let rest ← g.constantRest
  if rest.hasValue && !rest.isGeneric then
    return Attribute.outer attributes ++ visible ++ head ++ rest.trees
  else since start

def moduleDeclaration (g : Grammar) : Reader (List Tree) := do
  let visible ← visibility
  let safety ← keyword? "unsafe"
  let head ← keyword "mod"
  let name ← if ← sees (startsWord "try") then anyWord else identifier
  let ts ← ahead
  let start := visible ++ safety ++ head ++ [.word name]
  if startsMark ";" ts then return start ++ (← mark ";")
  else if startsGroup .brace ts then
    return start ++ (← group .brace do
      let attributes ← g.innerAttributes
      return Attribute.inner attributes ++ (← toEnd g.declaration).flatten)
  else wanted [ticked ";", "curly braces"]

/-- A type alias whose predicates stand before its definition. With bounds or without a definition
it stays as it was written. -/
def aliasDeclaration (g : Grammar) (start : List Tree) (attributes : List Attribute) :
    Reader (List Tree) := do
  let visible ← visibility
  let a ← g.typeAlias false .before
  if a.definition.isEmpty || a.hasColon then since start
  else
    return Attribute.outer attributes ++ visible ++ a.head ++ a.generics.declared ++
      a.generics.whereClause ++ a.definition ++ marks ";"

/-- A member of a trait; a visible or default one stays as it was written. -/
def traitMember (g : Grammar) : Reader (List Tree) := do
  let start ← ahead
  let attributes := Attribute.outer (← g.outerAttributes)
  let visible ← visibility
  let default ← keyword? "default"
  let ts ← ahead
  let hidden := visible.isEmpty && default.isEmpty
  let keep (trees : List Tree) : Reader (List Tree) :=
    if hidden then return attributes ++ trees else since start
  if startsSignature ts || (startsWord "const" ts &&
      startsOneOf ["async", "unsafe", "extern"] (ts.drop 1)) then
    let signature ← g.signature
    let ts ← ahead
    if startsGroup .brace ts then keep (signature.trees ++ (← g.body))
    else if startsMark ";" ts then keep (signature.trees ++ (← mark ";"))
    else wanted ["curly braces", ticked ";"]
  else if startsWord "const" ts then
    let head ← keyword "const"
    let ts ← ahead
    if !startsIdentifier ts && !startsWord "_" ts then
      wanted (["identifier", ticked "_"] ++ ["async", "unsafe", "extern", "fn"].map ticked)
    let rest ← g.constantRest
    if rest.isGeneric then since start else keep (head ++ rest.trees)
  else if startsWord "type" ts then
    let a ← g.typeAlias false .after
    keep (a.head ++ a.generics.declared ++ Param.bounded a.bounds ++ a.definition ++
      a.generics.whereClause ++ marks ";")
  else if hidden && startsMacroPath ts then
    return attributes ++ (← wordPath) ++ (← macroCall)
  else
    wanted (["fn", "const", "type"].map ticked ++ if hidden then macroPathStarts else [])

def traitDeclaration (g : Grammar) : Reader (List Tree) := do
  let visible ← visibility
  let safety ← keyword? "unsafe"
  let auto ← keyword? "auto"
  let head ← keyword "trait"
  let name ← identifier
  let params ← g.params?
  let start := visible ++ safety ++ auto ++ head ++ [.word name] ++ params.declared
  let ts ← ahead
  let special := !safety.isEmpty || !auto.isEmpty
  if special || startsGroup .brace ts || startsMark ":" ts || startsWord "where" ts then
    let colon ← mark? ":"
    let bounds ← if colon.isEmpty then pure []
      else g.aliasBounds fun ts => startsWord "where" ts || startsGroup .brace ts
    let predicates ← g.predicates?
    let members ← group .brace do
      let attributes ← g.innerAttributes
      return Attribute.inner attributes ++ (← toEnd g.traitMember).flatten
    return start ++ Param.bounded bounds ++ { params with predicates }.whereClause ++ members
  else if startsMark "=" ts then
    let eq ← mark "="
    let bounds ← g.aliasBounds fun ts => startsWord "where" ts || startsMark ";" ts
    let predicates ← g.predicates?
    return start ++ eq ++ bounds ++ { params with predicates }.whereClause ++ (← mark ";")
  else wanted ["curly braces", ticked ":", ticked "where", ticked "="]

def packageDeclaration : Reader (List Tree) := do
  let visible ← visibility
  let head := visible ++ (← keyword "extern") ++ (← keyword "crate")
  let name ← if ← sees (startsWord "self") then anyWord else identifier
  let sign ← keyword? "as"
  let other ← if sign.isEmpty then pure []
    else if ← sees (startsWord "_") then advance 1
    else pure [.word (← identifier)]
  return head ++ .word name :: sign ++ other ++ (← mark ";")

def startsSafe (ts : List Tree) : Bool :=
  let ts := skipWord "async" (skipWord "const" ts)
  let next := ts.drop 1
  startsWord "safe" ts && startsSignature next && !startsOneOf ["const", "async", "unsafe"] next

/-- A member of a block of foreign declarations. A safe or unsafe one stays as it was written. -/
def foreignMember (g : Grammar) : Reader (List Tree) := do
  let start ← ahead
  let attributes ← g.outerAttributes
  let outer := Attribute.outer attributes
  let hidden ← sees (!startsWord "pub" ·)
  let ts ← past visibility
  if startsSignature ts then
    let visible ← visibility
    let signature ← g.signature
    if ← sees (startsGroup .brace) then
      let _ ← g.body
      since start
    else return outer ++ visible ++ signature.trees ++ (← mark ";")
  else if startsSafe ts then
    let _ ← visibility
    let _ ← keyword? "const"
    let _ ← keyword? "async"
    let _ ← keyword "safe"
    let _ ← g.signature
    let _ ← if ← sees (startsGroup .brace) then g.body else mark ";"
    since start
  else if startsWord "static" ts || (startsOneOf ["unsafe", "safe"] ts &&
      startsWord "static" (ts.drop 1)) then
    let visible ← visibility
    let safety ← advance (if startsWord "static" ts then 0 else 1)
    let head := visible ++ (← keyword "static") ++ (← keyword? "mut")
    let name ← identifier
    let colon ← mark ":"
    let t ← g.type true
    let eq ← mark? "="
    if !eq.isEmpty then
      let _ ← g.expression true
    let semicolon ← mark ";"
    if !safety.isEmpty || !eq.isEmpty then since start
    else return outer ++ head ++ .word name :: colon ++ t.trees ++ semicolon
  else if startsWord "type" ts then
    let visible ← visibility
    let a ← g.typeAlias false .either
    if a.hasColon || !a.definition.isEmpty then since start
    else
      return outer ++ visible ++ a.head ++ a.generics.declared ++ a.generics.whereClause ++
        marks ";"
  else if hidden && startsMacroPath ts then return outer ++ (← wordPath) ++ (← macroCall)
  else
    wantedBefore ts (["fn", "static", "type"].map ticked ++ if hidden then macroPathStarts else [])

def foreignDeclarations (g : Grammar) (attributes : List Attribute) : Reader (List Tree) := do
  let safety ← keyword? "unsafe"
  let convention ← convention
  return Attribute.outer attributes ++ safety ++ convention ++ (← group .brace do
    let attributes ← g.innerAttributes
    return Attribute.inner attributes ++ (← toEnd g.foreignMember).flatten)

def macroDefinition : Reader (List Tree) := do
  let visible ← visibility
  let head ← keyword "macro"
  let name ← identifier
  let ts ← ahead
  let inputs ← if startsGroup .parenthesis ts then advance 1 else pure []
  if ← sees (startsGroup .brace) then
    return visible ++ head ++ .word name :: inputs ++ (← advance 1)
  else wanted ((if inputs.isEmpty then ["parentheses"] else []) ++ ["curly braces"])

def namedMacroCall : Reader (List Tree) := do
  let path ← wordPath
  let bang ← mark "!"
  let ts ← ahead
  let name ← if startsIdentifier ts || startsWord "try" ts then advance 1 else pure []
  let braced ← sees (startsGroup .brace)
  let arguments ← anyGroup
  return path ++ bang ++ name ++ arguments ++ (← if braced then pure [] else mark ";")

def declarationAfter (g : Grammar) (start : List Tree) (attributes : List Attribute) :
    Reader (List Tree) := do
  let outer := Attribute.outer attributes
  let visible ← sees (startsWord "pub")
  let ts ← past visibility
  let next := ts.drop 1
  let implementation : Reader (List Tree) := do
    match ← g.block? true attributes with
    | some b => return b.trees
    | none => since start
  if startsSignature ts then g.function start attributes
  else if startsWord "extern" ts then
    if startsWord "crate" next then return outer ++ (← packageDeclaration)
    else if startsGroup .brace next ||
        (startsString next && startsGroup .brace (next.drop 1)) then
      g.foreignDeclarations attributes
    else if startsString next then wantedBefore (next.drop 1) ["curly braces"]
    else wantedBefore next [ticked "crate", "curly braces", "string literal"]
  else if startsWord "use" ts then return outer ++ (← importDeclaration)
  else if startsWord "static" ts then g.staticDeclaration start attributes
  else if startsWord "const" ts then g.constDeclaration start attributes
  else if startsWord "unsafe" ts then
    if startsWord "trait" next || (startsWord "auto" next && startsWord "trait" (next.drop 1)) then
      return outer ++ (← g.traitDeclaration)
    else if startsWord "impl" next then implementation
    else if startsWord "extern" next then g.foreignDeclarations attributes
    else if startsWord "mod" next then return outer ++ (← g.moduleDeclaration)
    else wantedBefore next (["trait", "auto", "impl", "extern", "mod"].map ticked)
  else if startsWord "mod" ts then return outer ++ (← g.moduleDeclaration)
  else if startsWord "type" ts then g.aliasDeclaration start attributes
  else if startsOneOf ["struct", "enum"] ts ||
      (startsWord "union" ts && startsIdentifier next) then
    return (← g.dataType attributes).trees
  else if startsWord "trait" ts || (startsWord "auto" ts && startsWord "trait" next) then
    return outer ++ (← g.traitDeclaration)
  else if startsWord "impl" ts || (startsWord "default" ts && !startsMark "!" next) then
    implementation
  else if startsWord "macro" ts then return outer ++ (← macroDefinition)
  else if !visible && startsMacroPath ts then return outer ++ (← namedMacroCall)
  else
    wantedBefore ts (["fn", "extern", "use", "static", "const", "unsafe", "mod", "type", "struct",
      "enum", "union", "trait", "auto", "impl", "default", "macro"].map ticked ++
        if visible then [] else macroPathStarts)

def readDeclaration (g : Grammar) : Reader (List Tree) := do
  let start ← ahead
  g.declarationAfter start (← g.outerAttributes)

/-! ## Statements -/

def startsDeclaration (ts : List Tree) : Bool :=
  let next := ts.drop 1
  let third := ts.drop 2
  let braced := startsGroup .brace next
  startsOneOf ["pub", "extern", "use", "fn", "mod", "type", "struct", "enum", "trait", "impl",
    "macro"] ts ||
    (startsWord "crate" ts && !startsMark "::" next) ||
    (startsWord "static" ts && (startsWord "mut" next || startsIdentifier next)) ||
    (startsWord "const" ts && !(braced || startsWord "static" next || startsWord "move" next ||
      startsMark "|" next ||
      (startsWord "async" next && !startsOneOf ["unsafe", "extern", "fn"] third))) ||
    (startsWord "unsafe" ts && !braced) ||
    (startsWord "async" ts && startsOneOf ["unsafe", "extern", "fn"] next) ||
    (startsWord "union" ts && startsIdentifier next) ||
    (startsWord "auto" ts && startsWord "trait" next) ||
    (startsWord "default" ts && startsOneOf ["unsafe", "impl"] next)

def letStatement (g : Grammar) (attributes : List Attribute) : Reader (List Tree) := do
  let head ← keyword "let"
  let pattern ← g.pattern
  let colon ← mark? ":"
  let t ← if colon.isEmpty then pure [] else pure (← g.type true).trees
  let eq ← mark? "="
  let value ← if eq.isEmpty then pure [] else
    let e ← g.expression true
    let otherwise ← if e.endsInBrace then pure [] else keyword? "else"
    let block ← if otherwise.isEmpty then pure [] else g.block
    pure (e.trees ++ otherwise ++ block)
  return Attribute.outer attributes ++ head ++ pattern.trees ++ colon ++ t ++ eq ++ value ++
    (← mark ";")

/-- A statement, and whether a semicolon has to stand between it and a further one. -/
def statement (g : Grammar) : Reader (List Tree × Bool) := do
  let start ← ahead
  let attributes ← g.outerAttributes
  let ts ← ahead
  let call := match ← attempt (past wordPath) with
    | some after => if startsMark "!" after then after.drop 1 else []
    | none => []
  let afterCall := call.drop 1
  if startsGroup .brace call && !((startsMark "." afterCall && !startsMark ".." afterCall) ||
      startsMark "?" afterCall) then
    let trees := (← wordPath) ++ (← mark "!") ++ (← anyGroup) ++ (← mark? ";")
    return (Attribute.outer attributes ++ trees, false)
  else if startsWord "let" ts then return (← g.letStatement attributes, false)
  else if startsDeclaration ts || startsIdentifier call || startsWord "try" call then
    return (← g.declarationAfter start attributes, false)
  else
    let e ← g.statementExpression
    let semicolon ← mark? ";"
    return ((e.withAttributes attributes).trees ++ semicolon,
      semicolon.isEmpty && e.needsSemicolon)

def readStatements (g : Grammar) : Reader (List Tree) :=
  gather fun _ => do
    let empty := (← many (startsMark ";") (mark ";")).flatten
    if ← atEnd then return (empty, false)
    let (trees, open_) ← g.statement
    if ← atEnd then return (empty ++ trees, false)
    if open_ then throw .noSemicolon
    return (empty ++ trees, true)

end Grammar
end EventBus.Source
