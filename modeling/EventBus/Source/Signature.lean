import EventBus.Source.Expression

/-!
# Signatures of functions

A signature keeps its inputs apart: the receiver, and each parameter with its type. What stands for
any further inputs is no input.
-/

namespace EventBus.Source

inductive Input where
  | receiver (trees : List Tree) (shared : Bool)
  | parameter (pattern : List Tree) (type : Ty)

namespace Input

def trees : Input → List Tree
  | receiver ts _ => ts
  | parameter pattern type => pattern ++ marks ":" ++ type.trees

def isReceiver : Input → Bool
  | receiver .. => true
  | parameter .. => false

end Input

structure Signature where
  modifiers : List Tree
  isAsync : Bool
  name : String
  generics : Generics
  inputs : Separated Input
  variadic : List Tree
  output : List Tree

def Signature.trees (s : Signature) : List Tree :=
  s.modifiers ++ [.word "fn", .word s.name] ++ s.generics.declared ++
    [.group .parenthesis (s.inputs.trees "," Input.trees ++ s.variadic)] ++ s.output ++
    s.generics.whereClause

def skipWord (s : String) (ts : List Tree) : List Tree := if startsWord s ts then ts.drop 1 else ts

def startsSignature (ts : List Tree) : Bool :=
  let ts := skipWord "unsafe" (skipWord "async" (skipWord "const" ts))
  let ts := if startsWord "extern" ts then
      if startsString (ts.drop 1) then ts.drop 2 else ts.drop 1
    else ts
  startsWord "fn" ts

namespace Grammar

open Reader

def receiver (g : Grammar) : Reader (List Tree × Bool) := do
  let sign ← mark? "&"
  let name ← if sign.isEmpty then pure [] else lifetime?
  let mutability ← keyword? "mut"
  let self ← keyword "self"
  let head := sign ++ name ++ mutability ++ self
  let colon ← if sign.isEmpty then mark? ":" else pure []
  if colon.isEmpty then return (head, !sign.isEmpty && mutability.isEmpty)
  else return (head ++ colon ++ (← g.type true).trees, false)

/-- An input, or what stands for any further ones. A type alone is taken for the type of a
parameter without a name. -/
def input (g : Grammar) : Reader (Input ⊕ List Tree) := do
  let attributes := Attribute.outer (← g.outerAttributes)
  if ← sees (startsMark "...") then return .inr (attributes ++ (← mark "..."))
  match ← attempt g.receiver with
  | some (ts, shared) => return .inl (.receiver (attributes ++ ts) shared)
  | none =>
    let ts ← ahead
    if startsIdentifier ts && startsMark "<" (ts.drop 1) then
      return .inl (.parameter (attributes ++ [.word "_"]) (← g.type true))
    let pattern ← g.pattern
    let colon ← mark ":"
    if ← sees (startsMark "...") then
      return .inr (attributes ++ pattern.trees ++ colon ++ (← mark "..."))
    else return .inl (.parameter (attributes ++ pattern.trees) (← g.type true))

/-- The inputs up to the end of their group, after those that were read. Only the first may be a
receiver. -/
def inputsUpTo (g : Grammar) : Nat → List Input → Reader (Separated Input × List Tree)
  | 0, done => return (⟨done.reverse, true⟩, [])
  | fuel + 1, done => do
    if ← atEnd then return (⟨done.reverse, !done.isEmpty⟩, [])
    match ← g.input with
    | .inr dots =>
      let comma ← if ← atEnd then pure [] else mark ","
      return (⟨done.reverse, !done.isEmpty⟩, dots ++ comma)
    | .inl i =>
      if i.isReceiver && !done.isEmpty then
        throw (if done.any Input.isReceiver then .secondReceiver else .lateReceiver)
      if ← atEnd then return (⟨(i :: done).reverse, false⟩, [])
      let _ ← mark ","
      inputsUpTo g fuel (i :: done)

def signature (g : Grammar) : Reader Signature := do
  let isConst ← keyword? "const"
  let isAsync ← keyword? "async"
  let safety ← keyword? "unsafe"
  let convention ← convention?
  let _ ← keyword "fn"
  let name ← identifier
  let generics ← g.params?
  let ((inputs, variadic), left) ← enter .parenthesis do
    g.inputsUpTo ((← ahead).length + 1) []
  let output ← g.result? true
  let predicates ← g.predicates?
  note .parenthesis left
  return ⟨isConst ++ isAsync ++ safety ++ convention, !isAsync.isEmpty, name,
    { generics with predicates }, inputs, variadic, output⟩

/-! ## Visibility -/

/-- Where something is visible from. Parentheses after `pub` belong to it only if they hold a
place. -/
def visibility : Reader (List Tree) := do
  let head ← keyword? "pub"
  match head, ← ahead with
  | _ :: _, .group .parenthesis ts :: _ =>
    if startsOneOf ["crate", "self", "super"] ts then
      if ts.length = 1 then return head ++ (← advance 1) else return head
    else if startsWord "in" ts then
      return head ++ (← group .parenthesis do return (← keyword "in") ++ (← wordPath))
    else return head
  | _, _ => return head

end Grammar
end EventBus.Source
