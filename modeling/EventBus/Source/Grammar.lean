import EventBus.Source.Reader

/-!
# What is kept of paths, types, patterns and expressions

Of each is kept how it is written out and what later stages ask for. A grammar is a choice of
readers for the four; a reader of something larger takes one as an argument and uses it for the
parts, so that nesting is bounded where the choice is made.
-/

namespace EventBus.Source

structure Path where
  trees : List Tree
  last : String
  hasArguments : Bool
  anyArguments : Bool
  isSingle : Bool

inductive Bound where
  | lifetime
  | capture
  | trait (name : String)
  | moded
deriving DecidableEq, Repr

inductive Ty where
  | path (path : Path)
  | reference (trees : List Tree) (isMut : Bool) (referent : Ty)
  /-- A trait object; it is bare without `dyn` in front and a plus at its end. -/
  | object (trees : List Tree) (bounds : List Bound) (bare : Bool)
  | paren (trees : List Tree) (inner : Ty)
  | other (trees : List Tree)

namespace Ty

def trees : Ty → List Tree
  | path p => p.trees
  | reference ts _ _ | object ts _ _ | paren ts _ | other ts => ts

def isDynEvent : Ty → Bool
  | object _ bs _ => bs.contains (.trait "Event")
  | paren _ t => t.isDynEvent
  | _ => false

end Ty

inductive PatternKind where
  | rest
  | openRange
  | verbatim
  | plain
deriving DecidableEq, Repr

structure Pattern where
  trees : List Tree
  kind : PatternKind

def Pattern.plain (ts : List Tree) : Pattern := ⟨ts, .plain⟩

inductive ExpressionKind where
  | block
  | braceCall
  | range
  | comparison
  | verbatim
  | plain
deriving DecidableEq, Repr

structure Expression where
  trees : List Tree
  kind : ExpressionKind

def Expression.plain (ts : List Tree) : Expression := ⟨ts, .plain⟩

inductive Precedence where
  | loosest
  | assign
  | range
  | or
  | and
  | binding
  | compare
  | bitOr
  | bitXor
  | bitAnd
  | shift
  | sum
  | product
  | cast
deriving DecidableEq, Repr

def Precedence.rank : Precedence → Nat
  | loosest => 0
  | assign => 1
  | range => 2
  | or => 3
  | and => 4
  | binding => 5
  | compare => 6
  | bitOr => 7
  | bitXor => 8
  | bitAnd => 9
  | shift => 10
  | sum => 11
  | product => 12
  | cast => 13

structure Grammar where
  path : Bool → Reader Path
  bound : Bool → Bool → Reader (Bound × List Tree)
  type : Bool → Reader Ty
  pattern : Reader Pattern
  expression : Bool → Reader Expression
  operand : Bool → Reader Expression
  /-- What follows a first operand, with operators that bind at least as tightly as given. -/
  operators : Bool → Precedence → Expression → Reader Expression
  statementExpression : Reader Expression
  statements : Reader (List Tree)
  declaration : Reader (List Tree)
  fields : Reader (List Tree)

def Grammar.flat : Grammar where
  path _ := Reader.wanted []
  bound _ _ := Reader.wanted []
  type _ := Reader.wanted []
  pattern := Reader.wanted []
  expression _ := Reader.wanted []
  operand _ := Reader.wanted []
  operators _ _ _ := Reader.wanted []
  statementExpression := Reader.wanted []
  statements := Reader.wanted []
  declaration := Reader.wanted []
  fields := Reader.wanted []

end EventBus.Source
