import EventBus.Source.Nesting

/-!
# Deriving an event type

An item that derives its place in the type graph lists supertypes and markers in `event`
attributes and marks the fields that hold its supertypes' data. Each listed supertype needs a
field of its very type, and each marked field must be listed; all mismatches are reported
together. The outcome is an implementation that lists supertypes and then markers, and projects
to the item itself or through its marked fields in order.
-/

namespace EventBus.Expansion

open Source Source.Reader

/-! ## Attribute arguments -/

structure Listing where
  supertypes : List Path
  markers : List Path

namespace Listing

def empty : Listing := ⟨[], []⟩

def append (a b : Listing) : Listing := ⟨a.supertypes ++ b.supertypes, a.markers ++ b.markers⟩

def paths (g : Grammar) : Reader (List Path) :=
  return (← separated "," List.isEmpty (g.path false)).items

def part (g : Grammar) : Reader Listing := do
  let w ← identifier
  if w != "supertypes" && w != "markers" then throw (.unknownContainerArgument w)
  let ps ← within .parenthesis (paths g)
  let _ ← mark? ","
  return if w == "supertypes" then ⟨ps, []⟩ else ⟨[], ps⟩

def parts (g : Grammar) : Reader Listing := return (← toEnd (part g)).foldl append empty

def ofAttributes (as : List Attribute) : Except SyntaxError Listing := do
  let ls ← (as.filter (·.isNamed "event")).mapM fun a => a.readArguments "event" parts
  return ls.foldl append empty

end Listing

def argumentPath : Reader Bool := do
  let leading ← mark? "::"
  let ts ← ahead
  if ts.isEmpty then wanted ["nested attribute"]
  if !startsAnyWord ts then
    throw (if startsLiteral ts then .literalArgument else .nonWordArgument)
  let first ← anyWord
  let more ← many (startsMark "::") do
    let _ ← mark "::"
    anyWord
  return leading.isEmpty && more.isEmpty && first == "parent"

/-- Whether the arguments of a field mark a parent; they may say so again. -/
def marksParent : Reader Bool := do
  let arguments ← separated "," List.isEmpty do
    if !(← argumentPath) then throw .unknownFieldArgument
  return !arguments.items.isEmpty

def isParent (f : Field) : Except SyntaxError Bool := do
  let marks ← (f.attributes.filter (·.isNamed "event")).mapM fun a =>
    a.readArguments "event" fun _ => marksParent
  return marks.any id

/-! ## Derivation -/

inductive Selector where
  | named (name : String)
  | position (i : Nat)
deriving DecidableEq, Repr

def Selector.text : Selector → String
  | named n => unspaced n
  | position i => toString i

structure Parent where
  selector : Selector
  type : Ty

inductive DeriveError where
  | malformed (error : SyntaxError)
  | union
  | variantParent
  | noField (supertype : String)
  | notListed (type : String)
deriving DecidableEq, Repr

def DeriveError.message : DeriveError → String
  | malformed e => e.message
  | union => "#[derive(Event)] can only be used on structs and enums"
  | variantParent => "`#[event(parent)]` is only supported on struct fields"
  | noField t =>
    "supertype `" ++ t ++ "` has no `#[event(parent)]` field of that type; add one, or list it " ++
      "under `markers(..)` if it carries no data"
  | notListed t => "parent field type `" ++ t ++ "` must be listed in `supertypes(..)`"

def ofSyntax {β : Type} (r : Except SyntaxError β) : Except (List DeriveError) β :=
  match r with
  | .ok b => .ok b
  | .error e => .error [.malformed e]

def parentsFrom (i : Nat) : List Field → Except SyntaxError (List Parent)
  | [] => .ok []
  | f :: fs => do
    let marked ← isParent f
    let rest ← parentsFrom (i + 1) fs
    let selector := f.name?.elim (.position i) .named
    return if marked then ⟨selector, f.type⟩ :: rest else rest

def noParents : List Field → Except (List DeriveError) Unit
  | [] => .ok ()
  | f :: fs => do
    if ← ofSyntax (isParent f) then throw [.variantParent]
    noParents fs

def parentsOf : Data → Except (List DeriveError) (List Parent)
  | .product fields => ofSyntax (parentsFrom 0 fields.toList)
  | .sum variants => do
    noParents (variants.items.flatMap (·.fields.toList))
    return []
  | .union _ => .error [.union]

def pathText (p : Path) : String := text p.trees

def parentText (p : Parent) : String := text p.type.trees

/-- The supertypes without a field, and then the fields that are not listed, in order. -/
def mismatches (supertypes : List Path) (parents : List Parent) : List DeriveError :=
  let listed := supertypes.map pathText
  let held := parents.map parentText
  (listed.filter (!held.contains ·)).map .noField ++
    (held.filter (!listed.contains ·)).map .notListed

theorem mismatches_eq_nil_iff {supertypes : List Path} {parents : List Parent} :
    mismatches supertypes parents = [] ↔
      (∀ s ∈ supertypes, ∃ p ∈ parents, parentText p = pathText s) ∧
        ∀ p ∈ parents, ∃ s ∈ supertypes, pathText s = parentText p := by
  simp [mismatches, List.filter_eq_nil_iff]

structure Implementation where
  name : String
  generics : Generics
  listed : List Path
  parents : List Selector

def derive (item : Item) : Except (List DeriveError) Implementation := do
  let listing ← ofSyntax (Listing.ofAttributes item.attributes)
  let parents ← parentsOf item.data
  match mismatches listing.supertypes parents with
  | [] =>
    return ⟨item.name, item.generics, listing.supertypes ++ listing.markers,
      parents.map (·.selector)⟩
  | es => .error es

def deriveFrom (ts : List Tree) : Except (List DeriveError) Implementation := do
  derive (← ofSyntax (readWhole Grammar.dataItem ts))

namespace Implementation

def supertypesText (i : Implementation) : String :=
  ",".intercalate (i.listed.map fun p => "::eventide::EventType::of::<" ++ pathText p ++ ">()")

def selectionText (s : Selector) : String :=
  "iflet::core::option::Option::Some(found)=::eventide::Hierarchy::project(&self." ++ s.text ++
    ",target)\x7breturn::core::option::Option::Some(found);\x7d"

def projectionText (i : Implementation) : String :=
  if i.parents.isEmpty then ""
  else
    "fnproject(&self,target:::std::any::TypeId,)->::core::option::Option<&dyn::std::any::Any>" ++
      "\x7biftarget==::std::any::TypeId::of::<Self>()" ++
      "\x7breturn::core::option::Option::Some(self);\x7d" ++
      String.join (i.parents.map selectionText) ++ "::core::option::Option::None\x7d"

def text (i : Implementation) : String :=
  "impl" ++ Source.text i.generics.forImpl ++ "::eventide::Hierarchyfor" ++ unspaced i.name ++
    Source.text i.generics.asArguments ++ Source.text i.generics.whereClause ++
    "\x7bfnsupertypes()->::std::vec::Vec<::eventide::EventType>\x7b::std::vec![" ++
    i.supertypesText ++ "]\x7d" ++ i.projectionText ++ "\x7d"

end Implementation
end EventBus.Expansion
