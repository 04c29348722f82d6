import EventBus.Source.Signature

/-!
# Data types

A structure, an enumeration or a union, with its attributes, parameters and fields.
-/

namespace EventBus.Source

structure Field where
  attributes : List Attribute
  visibility : List Tree
  name? : Option String
  type : Ty

def Field.trees (f : Field) : List Tree :=
  Attribute.outer f.attributes ++ f.visibility ++
    f.name?.elim [] (fun n => .word n :: marks ":") ++ f.type.trees

inductive Fields where
  | named (fields : Separated Field)
  | tuple (fields : Separated Field)
  | unit

namespace Fields

def toList : Fields → List Field
  | named fs | tuple fs => fs.items
  | unit => []

def trees : Fields → List Tree
  | named fs => [.group .brace (fs.trees "," Field.trees)]
  | tuple fs => [.group .parenthesis (fs.trees "," Field.trees)]
  | unit => []

end Fields

structure Variant where
  attributes : List Attribute
  name : String
  fields : Fields
  discriminant : List Tree

def Variant.trees (v : Variant) : List Tree :=
  Attribute.outer v.attributes ++ .word v.name :: v.fields.trees ++ v.discriminant

inductive Data where
  | product (fields : Fields)
  | sum (variants : Separated Variant)
  | union (fields : Fields)

structure Item where
  attributes : List Attribute
  visibility : List Tree
  name : String
  generics : Generics
  data : Data

def Item.trees (i : Item) : List Tree :=
  let head (w : String) :=
    Attribute.outer i.attributes ++ i.visibility ++ [.word w, .word i.name] ++ i.generics.declared
  let predicates := i.generics.whereClause
  match i.data with
  | .product (.named fs) => head "struct" ++ predicates ++ (Fields.named fs).trees
  | .product fs => head "struct" ++ fs.trees ++ predicates ++ marks ";"
  | .sum vs => head "enum" ++ predicates ++ [.group .brace (vs.trees "," Variant.trees)]
  | .union fs => head "union" ++ predicates ++ fs.trees

namespace Grammar

open Reader

def namedField (g : Grammar) : Reader Field := do
  let attributes ← g.outerAttributes
  let visible ← visibility
  let anonymous ← sees (startsWord "_")
  let name ← if anonymous then anyWord else identifier
  let _ ← mark ":"
  let ts ← ahead
  let nested := startsWord "struct" ts ||
    (startsWord "union" ts && startsGroup .brace (ts.drop 1))
  let t ← if anonymous && nested then
      pure (Ty.other (← raw do
        let _ ← advance 1
        g.fields))
    else g.type true
  return ⟨attributes, visible, some name, t⟩

def tupleField (g : Grammar) : Reader Field := do
  let attributes ← g.outerAttributes
  let visible ← visibility
  return ⟨attributes, visible, none, ← g.type true⟩

def namedFields (g : Grammar) : Reader Fields :=
  return .named (← within .brace (separated "," List.isEmpty g.namedField))

def tupleFields (g : Grammar) : Reader Fields :=
  return .tuple (← within .parenthesis (separated "," List.isEmpty g.tupleField))

def variant (g : Grammar) : Reader Variant := do
  let attributes ← g.outerAttributes
  let _ ← visibility
  let name ← identifier
  let ts ← ahead
  let fields ← if startsGroup .brace ts then g.namedFields
    else if startsGroup .parenthesis ts then g.tupleFields
    else pure .unit
  let eq ← mark? "="
  let value ← if eq.isEmpty then pure [] else pure (← g.expression true).trees
  return ⟨attributes, name, fields, eq ++ value⟩

def structureBody (g : Grammar) : Reader (List Tree × Fields) := do
  let start ← ahead
  let predicates ← g.predicates?
  let hasClause := startsWord "where" start
  let ts ← ahead
  if startsGroup .parenthesis ts && !hasClause then
    let fields ← g.tupleFields
    let clause ← sees (startsWord "where")
    let predicates ← g.predicates?
    if ← sees (startsMark ";") then
      let _ ← mark ";"
      return (predicates, fields)
    else wanted (if clause then [ticked ";"] else [ticked "where", ticked ";"])
  else if startsGroup .brace ts then return (predicates, ← g.namedFields)
  else if startsMark ";" ts then
    let _ ← mark ";"
    return (predicates, .unit)
  else
    wanted (if hasClause then ["curly braces", ticked ";"]
      else [ticked "where", "parentheses", "curly braces", ticked ";"])

def dataType (g : Grammar) (attributes : List Attribute) : Reader Item := do
  let visible ← visibility
  let ts ← ahead
  if !startsOneOf ["struct", "enum", "union"] ts then
    wanted (["struct", "enum", "union"].map ticked)
  let _ ← advance 1
  let name ← identifier
  let generics ← g.params?
  let item (predicates : List Tree) (data : Data) : Item :=
    ⟨attributes, visible, name, { generics with predicates }, data⟩
  if startsWord "struct" ts then
    let (predicates, fields) ← g.structureBody
    return item predicates (.product fields)
  else
    let predicates ← g.predicates?
    if startsWord "enum" ts then
      return item predicates (.sum (← within .brace (separated "," List.isEmpty g.variant)))
    else return item predicates (.union (← g.namedFields))

def dataItem (g : Grammar) : Reader Item := do g.dataType (← g.outerAttributes)

end Grammar
end EventBus.Source
