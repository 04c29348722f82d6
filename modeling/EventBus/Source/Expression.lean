import EventBus.Source.Pattern

/-!
# Expressions

Operands are joined by operators of thirteen strengths. Of an expression its trees are kept, and
its kind, on which it depends what may follow it and whether a statement needs a semicolon.
-/

namespace EventBus.Source

namespace Expression

def withAttributes (as : List Attribute) (e : Expression) : Expression :=
  if e.kind = .verbatim then e else { e with trees := Attribute.outer as ++ e.trees }

def needsSemicolon (e : Expression) : Bool := e.kind != .block && e.kind != .braceCall

def needsComma (e : Expression) : Bool := e.kind != .block

def endsInBrace (e : Expression) : Bool :=
  match e.trees.getLast? with
  | some (.group .brace _) => true
  | _ => false

end Expression

/-! ## Operators -/

def operatorTable : List (String × Precedence) :=
  [("+=", .assign), ("-=", .assign), ("*=", .assign), ("/=", .assign), ("%=", .assign),
    ("^=", .assign), ("&=", .assign), ("|=", .assign), ("<<=", .assign), (">>=", .assign),
    ("&&", .and), ("||", .or), ("<<", .shift), (">>", .shift), ("==", .compare), ("<=", .compare),
    ("!=", .compare), (">=", .compare), ("+", .sum), ("-", .sum), ("*", .product),
    ("/", .product), ("%", .product), ("^", .bitXor), ("&", .bitAnd), ("|", .bitOr),
    ("<", .compare), (">", .compare)]

def operator? (ts : List Tree) : Option (String × Precedence) :=
  operatorTable.find? fun (s, _) => startsMark s ts

def startsAssignment (ts : List Tree) : Bool := startsMark "=" ts && !startsMark "=>" ts

def nextPrecedence (ts : List Tree) : Precedence :=
  match operator? ts with
  | some (_, p) => p
  | none =>
    if startsAssignment ts then .assign
    else if startsMark ".." ts then .range
    else if startsWord "as" ts then .cast
    else .loosest

def startsExpression (ts : List Tree) : Bool :=
  let alone (s : String) (longer : List String) := startsMark s ts && !longer.any (startsMark · ts)
  (startsAnyWord ts && !startsWord "as" ts) || startsGroup .parenthesis ts ||
    startsGroup .bracket ts || startsGroup .brace ts || startsLiteral ts || alone "!" ["!="] ||
    alone "-" ["-=", "->"] || alone "*" ["*="] || alone "|" ["|="] || alone "&" ["&="] ||
    startsMark ".." ts || alone "<" ["<=", "<<="] || startsMark "::" ts || startsLifetime ts ||
    startsMark "#" ts

def endsRange (records : Bool) (ts : List Tree) : Bool :=
  ts.isEmpty || startsMark "," ts || startsMark ";" ts ||
    (startsMark "." ts && !startsMark ".." ts) || startsMark "?" ts || startsMark "=>" ts ||
    (!records && startsGroup .brace ts) ||
    ["=", "+", "/", "%", "^", ">", "<=", "!=", "-=", "*=", "&=", "|=", "<<="].any
      (startsMark · ts) || startsWord "as" ts

def afterCast? (ts : List Tree) : Option String :=
  let next := ts.drop 1
  if startsMark "." ts && !startsMark ".." ts then
    if startsWord "await" next then some "`.await`"
    else if startsIdentifier next &&
        (startsGroup .parenthesis (next.drop 1) || startsMark "::" (next.drop 1)) then
      some "a method call"
    else some "a field access"
  else if startsMark "?" ts then some "`?`"
  else if startsGroup .bracket ts then some "indexing"
  else if startsGroup .parenthesis ts then some "a function call"
  else none

namespace Grammar

open Reader

def operandAfterUpTo (g : Grammar) (records : Bool) (p : Precedence) :
    Nat → Expression → Reader Expression
  | 0, e => return e
  | fuel + 1, e => do
    let ts ← ahead
    let next := nextPrecedence ts
    if p.rank < next.rank || (next = p && p = .assign) then
      let e ← g.operators records next e
      if (← ahead).length < ts.length then operandAfterUpTo g records p fuel e else return e
    else return e

def operandAfter (g : Grammar) (records : Bool) (p : Precedence) : Reader Expression := do
  let e ← g.operand records
  operandAfterUpTo g records p ((← ahead).length + 1) e

def rangeExpression (g : Grammar) (records : Bool) (start : List Tree) : Reader Expression := do
  let (dots, closed) ← rangeMark false
  if !closed && (← sees (endsRange records)) then return ⟨start ++ dots, .range⟩
  return ⟨start ++ dots ++ (← g.operandAfter records .range).trees, .range⟩

def operatorsUpTo (g : Grammar) (records : Bool) (least : Precedence) :
    Nat → Expression → Reader Expression
  | 0, e => return e
  | fuel + 1, e => do
    if e.kind = .range then return e
    let ts ← ahead
    match operator? ts with
    | some (s, p) =>
      if p.rank < least.rank then return e
      if p = .compare && e.kind = .comparison then throw .chainedComparison
      let sign ← mark s
      let right ← g.operandAfter records p
      operatorsUpTo g records least fuel
        ⟨e.trees ++ sign ++ right.trees, if p = .compare then .comparison else .plain⟩
    | none =>
      if least.rank ≤ Precedence.assign.rank && startsAssignment ts then
        let sign ← mark "="
        let right ← g.operandAfter records .assign
        operatorsUpTo g records least fuel (.plain (e.trees ++ sign ++ right.trees))
      else if least.rank ≤ Precedence.range.rank && startsMark ".." ts then
        g.rangeExpression records e.trees
      else if startsWord "as" ts then
        let cast ← keyword "as"
        let t ← g.type false
        match afterCast? (← ahead) with
        | some kind => throw (.afterCast kind)
        | none => operatorsUpTo g records least fuel (.plain (e.trees ++ cast ++ t.trees))
      else return e

def readOperators (g : Grammar) (records : Bool) (least : Precedence) (e : Expression) :
    Reader Expression := do
  operatorsUpTo g records least ((← ahead).length + 1) e

def readExpression (g : Grammar) (records : Bool) : Reader Expression := do
  g.operators records .loosest (← g.operand records)

/-! ## Constructs with blocks -/

def label? : Reader (List Tree) := do
  let name ← lifetime?
  if name.isEmpty then return [] else return name ++ (← mark ":")

def conditional (g : Grammar) : Reader Expression := do
  return ⟨← gather fun _ => do
    let head ← keyword "if"
    let condition ← g.expression false
    let block ← g.block
    let start := head ++ condition.trees ++ block
    let otherwise ← keyword? "else"
    if otherwise.isEmpty then return (start, false)
    let ts ← ahead
    if startsWord "if" ts then return (start ++ otherwise, true)
    else if startsGroup .brace ts then return (start ++ otherwise ++ (← g.block), false)
    else wanted [ticked "if", "curly braces"], .block⟩

def arm (g : Grammar) : Reader (List Tree) := do
  let attributes ← g.outerAttributes
  let pattern ← g.alternatives
  let guard ← if ← sees (startsWord "if") then
      pure ((← keyword "if") ++ (← g.expression true).trees)
    else pure []
  let arrow ← mark "=>"
  let body ← g.statementExpression
  let comma ← if body.needsComma && !(← atEnd) then mark "," else mark? ","
  return Attribute.outer attributes ++ pattern.trees ++ guard ++ arrow ++ body.trees ++ comma

def matchExpression (g : Grammar) : Reader Expression := do
  let head ← keyword "match"
  let scrutinee ← g.expression false
  let arms ← group .brace do
    let attributes ← g.innerAttributes
    return Attribute.inner attributes ++ (← toEnd g.arm).flatten
  return ⟨head ++ scrutinee.trees ++ arms, .block⟩

def loopExpression (g : Grammar) : Reader (List Tree) := do
  let ts ← ahead
  if startsWord "while" ts then
    return (← keyword "while") ++ (← g.expression false).trees ++ (← g.body)
  else if startsWord "for" ts then
    return (← keyword "for") ++ (← g.alternatives).trees ++ (← keyword "in") ++
      (← g.expression false).trees ++ (← g.body)
  else return (← keyword "loop") ++ (← g.body)

def startsLoop (ts : List Tree) : Bool :=
  startsOneOf ["while", "loop"] ts || (startsWord "for" ts && !opensParams (ts.drop 1))

def labelled (g : Grammar) : Reader Expression := do
  let label ← label?
  let ts ← ahead
  if startsOneOf ["while", "for", "loop"] ts then return ⟨label ++ (← g.loopExpression), .block⟩
  else if startsGroup .brace ts then return ⟨label ++ (← g.body), .block⟩
  else wanted ["loop or block expression"]

def blockExpression? (g : Grammar) : Reader (Option Expression) := do
  let ts ← ahead
  let braced := startsGroup .brace (ts.drop 1)
  if startsWord "if" ts then return some (← g.conditional)
  else if startsLoop ts then return some ⟨← g.loopExpression, .block⟩
  else if startsWord "match" ts then return some (← g.matchExpression)
  else if startsWord "try" ts && braced then return some ⟨(← advance 1) ++ (← g.block), .block⟩
  else if startsWord "unsafe" ts || (startsWord "const" ts && braced) then
    return some ⟨(← advance 1) ++ (← g.body), .block⟩
  else if startsGroup .brace ts then return some ⟨← g.body, .block⟩
  else if startsLifetime ts then return some (← g.labelled)
  else return none

/-! ## Operands -/

/-- An input of a closure. One without a type whose pattern is kept as it was written loses its
attributes. -/
def closureInput (g : Grammar) : Reader (List Tree) := do
  let attributes := Attribute.outer (← g.outerAttributes)
  let pattern ← g.pattern
  if ← sees (startsMark ":") then
    return attributes ++ pattern.trees ++ (← mark ":") ++ (← g.type true).trees
  else if pattern.kind = .verbatim then return pattern.trees
  else return attributes ++ pattern.trees

def closure (g : Grammar) (records : Bool) : Reader Expression := do
  let binder ← g.binder?
  let isConst ← keyword? "const"
  let isStatic ← keyword? "static"
  let isAsync ← keyword? "async"
  let capture ← keyword? "move"
  let opening ← mark "|"
  let inputs ← separated "," (startsMark "|") g.closureInput
  let closing ← mark "|"
  let head := binder ++ isConst ++ isStatic ++ isAsync ++ capture ++ opening ++
    inputs.trees "," id ++ closing
  let arrow ← mark? "->"
  if arrow.isEmpty then return .plain (head ++ (← g.expression records).trees)
  else return .plain (head ++ arrow ++ (← g.type true).trees ++ (← g.block))

def fieldValue (g : Grammar) : Reader (List Tree) := do
  let attributes ← g.outerAttributes
  let (name, named) ← member
  let value ← if !named || (← sees (startsMark ":")) then
      pure ((← mark ":") ++ (← g.expression true).trees)
    else pure []
  return Attribute.outer attributes ++ name ++ value

def fieldValues (g : Grammar) : Reader (List Tree) :=
  gather fun _ => do
    let ts ← ahead
    if ts.isEmpty then return ([], false)
    if startsMark ".." ts then
      let dots ← mark ".."
      if ← atEnd then return (dots, false)
      return (dots ++ (← g.expression true).trees, false)
    let field ← g.fieldValue
    if ← atEnd then return (field, false)
    return (field ++ (← mark ","), true)

def pathExpression (g : Grammar) (records : Bool) : Reader Expression := do
  let (path, plain) ← if ← sees (startsMark "<") then
      pure (← g.qualifiedPath true, false)
    else
      let p ← g.path true
      pure (p.trees, !p.anyArguments)
  let ts ← ahead
  if plain && startsMark "!" ts && !startsMark "!=" ts then
    let bang ← mark "!"
    let kind := if ← sees (startsGroup .brace) then ExpressionKind.braceCall else .plain
    return ⟨path ++ bang ++ (← anyGroup), kind⟩
  else if records && startsGroup .brace ts then
    return .plain (path ++ (← group .brace g.fieldValues))
  else return .plain path

def expressions (g : Grammar) : Reader (List Tree) :=
  commaList do return (← g.expression true).trees

def arrayExpression (g : Grammar) : Reader Expression := do
  return .plain (← group .bracket do
    if ← atEnd then return []
    let first ← g.expression true
    let ts ← ahead
    if ts.isEmpty then return first.trees
    else if startsMark "," ts then return first.trees ++ (← mark ",") ++ (← g.expressions)
    else if startsMark ";" ts then
      return first.trees ++ (← mark ";") ++ (← g.expression true).trees
    else wanted ["`,` or `;`"])

def jump (g : Grammar) (word : String) : Reader Expression := do
  let head ← keyword word
  if ← sees startsExpression then return .plain (head ++ (← g.expression true).trees)
  else return .plain head

def breakExpression (g : Grammar) (records : Bool) : Reader Expression := do
  let head ← keyword "break"
  let ts ← ahead
  if startsLifetime ts && startsMark ":" (ts.drop 1) then
    let _ ← g.expression true
    throw .labelledValue
  let label ← lifetime?
  let ts ← ahead
  if startsExpression ts && (records || !startsGroup .brace ts) then
    return .plain (head ++ label ++ (← g.expression true).trees)
  else return .plain (head ++ label)

def letExpression (g : Grammar) (records : Bool) : Reader Expression := do
  let head ← keyword "let"
  let pattern ← g.alternatives
  let eq ← mark "="
  let e ← g.operators records .compare (← g.operand records)
  return .plain (head ++ pattern.trees ++ eq ++ e.trees)

def builtinExpression : Reader Expression := do
  let head ← keyword "builtin"
  let hash ← mark "#"
  let name ← identifier
  return ⟨head ++ hash ++ .word name :: (← group .parenthesis rest), .verbatim⟩

def startsClosure (ts : List Tree) : Bool :=
  let next := ts.drop 1
  startsMark "|" ts || startsOneOf ["move", "static"] ts ||
    (startsWord "for" ts && opensParams next) ||
    (startsWord "const" ts && !startsGroup .brace next) ||
    (startsWord "async" ts && (startsMark "|" next || startsWord "move" next))

def atom (g : Grammar) (records : Bool) : Reader Expression := do
  let ts ← ahead
  let next := ts.drop 1
  if startsLiteral ts then return .plain (← literal)
  else if startsWord "async" ts && (startsGroup .brace next ||
      (startsWord "move" next && startsGroup .brace (next.drop 1))) then
    return .plain ((← keyword "async") ++ (← keyword? "move") ++ (← g.block))
  else if startsWord "try" ts && startsGroup .brace next then
    return ⟨(← advance 1) ++ (← g.block), .block⟩
  else if startsClosure ts then g.closure records
  else if startsWord "builtin" ts && startsMark "#" next then builtinExpression
  else if startsIdentifier ts || startsMark "::" ts || startsMark "<" ts ||
      startsOneOf ["self", "Self", "super", "crate"] ts ||
      (startsWord "try" ts && (startsMark "!" next || startsMark "::" next)) then
    g.pathExpression records
  else if startsGroup .parenthesis ts then
    return .plain (← group .parenthesis g.expressions)
  else if startsWord "break" ts then g.breakExpression records
  else if startsWord "continue" ts then return .plain ((← advance 1) ++ (← lifetime?))
  else if startsWord "return" ts then g.jump "return"
  else if startsWord "become" ts then
    return ⟨← raw do
      let _ ← advance 1
      g.expression true, .verbatim⟩
  else if startsGroup .bracket ts then g.arrayExpression
  else if startsWord "let" ts then g.letExpression records
  else if startsWord "yield" ts then g.jump "yield"
  else
    match ← g.blockExpression? with
    | some e => return e
    | none =>
      if startsMark ".." ts then g.rangeExpression records []
      else if startsWord "_" ts then return .plain (← advance 1)
      else wanted ["an expression"]

def selection (g : Grammar) : Reader (List Tree) := do
  if ← sees (startsWord "await") then advance 1
  else
    let (name, named) ← member
    let arguments ← if named && (← sees (startsMark "::")) then
        pure ((← mark "::") ++ (← g.arguments))
      else pure []
    if !arguments.isEmpty || (named && (← sees (startsGroup .parenthesis))) then
      return name ++ arguments ++ (← group .parenthesis g.expressions)
    else return name

/-- Positions of nested tuples that are written as one number with a point, after which a further
field may have to follow. -/
def positions : Reader (List Tree × Bool) := do
  if ← sees startsFloat then
    let (negative, number) ← signedNumber
    let ps ← positionsOf negative number
    let isOpen := number.toList.getLast? = some '.'
    return ((⟨ps, isOpen⟩ : Separated Nat).trees "." positionTree, isOpen)
  else return ([], true)

def trailersUpTo (g : Grammar) : Nat → Expression → Reader Expression
  | 0, e => return e
  | fuel + 1, e => do
    let ts ← ahead
    if startsGroup .parenthesis ts then
      trailersUpTo g fuel (.plain (e.trees ++ (← group .parenthesis g.expressions)))
    else if startsMark "." ts && !startsMark ".." ts && e.kind != .range then
      let point ← mark "."
      let (positions, isOpen) ← positions
      let field ← if isOpen then g.selection else pure []
      trailersUpTo g fuel (.plain (e.trees ++ point ++ positions ++ field))
    else if startsGroup .bracket ts then
      let index ← group .bracket do return (← g.expression true).trees
      trailersUpTo g fuel (.plain (e.trees ++ index))
    else if startsMark "?" ts && e.kind != .range then
      trailersUpTo g fuel (.plain (e.trees ++ (← mark "?")))
    else return e

def trailers (g : Grammar) (e : Expression) : Reader Expression := do
  trailersUpTo g ((← ahead).length + 1) e

def referenceSign : Reader (List Tree) := do
  let sign ← mark "&"
  let ts ← ahead
  if startsWord "raw" ts && startsOneOf ["mut", "const"] (ts.drop 1) then
    return sign ++ (← advance 2)
  else return sign ++ (← keyword? "mut")

def readOperand (g : Grammar) (records : Bool) : Reader Expression := do
  let start ← ahead
  let attributes ← g.outerAttributes
  let ts ← ahead
  let put (trees : List Tree) := Expression.withAttributes attributes (.plain trees)
  if startsMark "&" ts then
    return put ((← referenceSign) ++ (← g.operand records).trees)
  else if ["*", "!", "-"].any (startsMark · ts) then
    return put ((← advance 1) ++ (← g.operand records).trees)
  else
    let e ← g.trailers (← g.atom records)
    if e.kind = .verbatim then return { e with trees := ← since start }
    else if e.kind = .range && !attributes.isEmpty then throw .rangeAttribute
    else return e.withAttributes attributes

/-- An expression that ends where a statement may end: after a construct that ends in a block come
a field and the like, but no operator. -/
def readStatementExpression (g : Grammar) : Reader Expression := do
  let attributes ← g.outerAttributes
  match ← g.blockExpression? with
  | none => g.operators true .loosest ((← g.operand true).withAttributes attributes)
  | some e =>
    let ts ← ahead
    if (startsMark "." ts && !startsMark ".." ts) || startsMark "?" ts then
      g.operators true .loosest ((← g.trailers e).withAttributes attributes)
    else return e.withAttributes attributes

end Grammar
end EventBus.Source
