import EventBus.Source.Declaration

/-!
# Nested syntax

The grammar for trees of any depth: at each depth the readers use those of the depth below for the
parts. The trees themselves bound how deep they are nested.
-/

namespace EventBus.Source

def Grammar.upTo : Nat → Grammar
  | 0 => .flat
  | depth + 1 =>
    let g := Grammar.upTo depth
    { path := g.readPath
      bound := g.readBound
      type := g.readType
      pattern := g.readPattern
      expression := g.readExpression
      operand := g.readOperand
      operators := g.readOperators
      statementExpression := g.readStatementExpression
      statements := g.readStatements
      declaration := g.readDeclaration
      fields := return (← g.namedFields).trees }

def Grammar.of (ts : List Tree) : Grammar := .upTo (8 * weight ts + 8)

def readWhole {α : Type} (r : Grammar → Reader α) (ts : List Tree) : Except SyntaxError α :=
  (r (.of ts)).readAll ts

def Attribute.readArguments {α : Type} (a : Attribute) (name : String) (r : Grammar → Reader α) :
    Except SyntaxError α :=
  match a.body with
  | .empty => .error (.noArguments a.sign name)
  | .value _ => .error (.notParenthesized a.sign name)
  | .arguments _ ts => readWhole r ts

end EventBus.Source
