import EventBus.Source.Grammar

/-!
# Attributes

An attribute is a path, followed by nothing, by a value, or by arguments in brackets of any kind.
It goes by a name only if its path is that one word.
-/

namespace EventBus.Source

inductive AttributeBody where
  | empty
  | value (trees : List Tree)
  | arguments (delimiter : Delimiter) (trees : List Tree)

structure Attribute where
  isInner : Bool
  path : List Tree
  body : AttributeBody

namespace Attribute

def sign (a : Attribute) : String := if a.isInner then "#!" else "#"

def trees (a : Attribute) : List Tree :=
  let inner := match a.body with
    | .empty => a.path
    | .value ts => a.path ++ ts
    | .arguments d ts => a.path ++ [.group d ts]
  marks a.sign ++ [.group .bracket inner]

def isNamed (a : Attribute) (name : String) : Bool :=
  match a.path with
  | [.word w] => w == name
  | _ => false

def outer (as : List Attribute) : List Tree := (as.filter (!·.isInner)).flatMap (·.trees)

def inner (as : List Attribute) : List Tree := (as.filter (·.isInner)).flatMap (·.trees)

end Attribute

namespace Reader

def wordPath : Reader (List Tree) := do
  let leading ← mark? "::"
  let segments ← gather fun first => do
    let ts ← ahead
    if startsIdentifier ts || startsOneOf ["super", "self", "Self", "crate"] ts then
      let w ← anyWord
      let colons ← mark? "::"
      return (.word w :: colons, !colons.isEmpty)
    else if first then
      let w ← identifier
      return ([.word w], false)
    else wanted ["path segment after `::`"]
  return leading ++ segments

end Reader

namespace Grammar

open Reader

def attributeContent (g : Grammar) (isInner : Bool) : Reader Attribute := do
  let path ← if ← sees (startsWord "unsafe") then advance 1 else wordPath
  match ← ahead with
  | .group d ts :: _ =>
    let _ ← advance 1
    return ⟨isInner, path, .arguments d ts⟩
  | ts =>
    if startsMark "=" ts && !startsMark "==" ts && !startsMark "=>" ts then
      let eq ← mark "="
      let ts ← ahead
      if startsMark "#" ts && startsGroup .bracket (ts.drop 1) then throw .attributeValue
      return ⟨isInner, path, .value (eq ++ (← g.expression true).trees)⟩
    else return ⟨isInner, path, .empty⟩

def outerAttributes (g : Grammar) : Reader (List Attribute) :=
  many (startsMark "#") do
    let _ ← mark "#"
    within .bracket (g.attributeContent false)

def innerAttributes (g : Grammar) : Reader (List Attribute) :=
  many (fun ts => startsMark "#" ts && startsMark "!" (ts.drop 1)) do
    let _ ← advance 2
    within .bracket (g.attributeContent true)

end Grammar
end EventBus.Source
