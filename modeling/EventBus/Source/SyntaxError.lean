import EventBus.Source.Token

/-!
# Syntax errors

What can be wrong with trees that are read, and how each error is worded.
-/

namespace EventBus.Source

inductive SyntaxError where
  /-- One of the alternatives was expected, at the end of the input or before it. There may be none
  that can be named. -/
  | expected (alternatives : List String) (atEnd : Bool)
  | mark (text : String)
  | keyword (word : String)
  | leftover (group? : Option Delimiter)
  | noObjectTrait
  | noOpaqueTrait
  | bound (kind : String)
  | relaxedBinder
  | whereParameters
  | traitPath
  | secondReceiver
  | lateReceiver
  | attributeValue
  | noSemicolon
  | chainedComparison
  | afterCast (kind : String)
  | labelledValue
  | rangeAttribute
  | openRange
  | negativeInherent
  | floatPosition
  | suffixedPosition
  | negativePosition
  | largePosition
  | noArguments (sign name : String)
  | notParenthesized (sign name : String)
  | literalArgument
  | nonWordArgument
  | unknownContainerArgument (name : String)
  | unknownFieldArgument
deriving DecidableEq, Repr

def ticked (s : String) : String := "`" ++ s ++ "`"

def alternativesText : List String → String
  | [a] => a
  | [a, b] => a ++ " or " ++ b
  | as => "one of: " ++ ", ".intercalate as

namespace SyntaxError

def message : SyntaxError → String
  | expected [] true => "unexpected end of input"
  | expected [] false => "unexpected token"
  | expected as true => "unexpected end of input, expected " ++ alternativesText as
  | expected as false => "expected " ++ alternativesText as
  | mark s => "expected " ++ ticked s
  | keyword w => "expected identifier, found keyword " ++ ticked w
  | leftover none => "unexpected token"
  | leftover (some d) => "unexpected token, expected " ++ ticked d.closing
  | noObjectTrait => "at least one trait is required for an object type"
  | noOpaqueTrait => "at least one trait must be specified"
  | bound k => k ++ " is not allowed here"
  | relaxedBinder => "`for<...>` binder not allowed with `?` trait polarity modifier"
  | whereParameters => "generic parameters on `where` clauses are reserved for future use"
  | traitPath => "expected trait path"
  | secondReceiver => "unexpected second method receiver"
  | lateReceiver => "unexpected method receiver"
  | attributeValue => "unexpected attribute inside of attribute"
  | noSemicolon => "unexpected token, expected `;`"
  | chainedComparison => "comparison operators cannot be chained"
  | afterCast k => "casts cannot be followed by " ++ k
  | labelledValue => "parentheses required"
  | rangeAttribute => "attributes are not allowed on range expressions starting with `..`"
  | openRange => "range pattern is not allowed unparenthesized inside slice pattern"
  | negativeInherent => "inherent impls cannot be negative"
  | floatPosition => "expected integer literal"
  | suffixedPosition => "expected unsuffixed integer"
  | negativePosition => "invalid digit found in string"
  | largePosition => "number too large to fit in target type"
  | noArguments s a => "expected attribute arguments in parentheses: " ++ s ++ "[" ++ a ++ "(...)]"
  | notParenthesized s a => "expected parentheses: " ++ s ++ "[" ++ a ++ "(...)]"
  | literalArgument => "unexpected literal in nested attribute, expected ident"
  | nonWordArgument => "unexpected token in nested attribute, expected ident"
  | unknownContainerArgument n => "unknown event attribute: " ++ n
  | unknownFieldArgument => "unknown field attribute, expected `parent`"

end SyntaxError
end EventBus.Source
