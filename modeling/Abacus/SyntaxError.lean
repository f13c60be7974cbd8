import Abacus.Token

/-!
# Syntax errors

A text that is no program is refused at a position and for a cause. The first error ends the reading.
-/

namespace Abacus

namespace SyntaxError

/-- Where in the grammar a token of one kind is the only possible one. -/
inductive Place where
  | variableName | variableValue | variableEnd
  | functionName | parameterList | parameterName | parametersEnd | functionBody | functionEnd
  | loopVariable | loopValues | blockStart | blockEnd | returnEnd
  | assignmentTarget | assignmentValue | assignmentEnd | expressionEnd
  | argumentsEnd | arrayEnd | groupEnd
  deriving DecidableEq, Repr

def Place.phrase : Place → String
  | variableName => "after 'var'"
  | variableValue => "in variable declaration"
  | variableEnd => "after variable declaration"
  | functionName => "as function name"
  | parameterList => "after function name"
  | parameterName => "as parameter name"
  | parametersEnd => "after parameters"
  | functionBody => "before function body"
  | functionEnd => "after function body"
  | loopVariable => "after 'for'"
  | loopValues => "after loop variable"
  | blockStart => "to open block"
  | blockEnd => "to close block"
  | returnEnd => "after return value"
  | assignmentTarget => "as assignment target"
  | assignmentValue => "in assignment"
  | assignmentEnd => "after assignment"
  | expressionEnd => "after expression"
  | argumentsEnd => "to close argument list"
  | arrayEnd => "to close array literal"
  | groupEnd => "to close grouping"

inductive Cause where
  | unexpectedCharacter (c : Char)
  | integerTooLarge (digits : String)
  | expected (kind : Token.Kind) (place : Place) (found : Token)
  | expectedType (found : Token)
  | expectedExpression (found : Token)
  | malformedLiteral
  | calleeNotNamed
  | chained (operator : Token.Kind)
  | returnOutside
  deriving DecidableEq, Repr

def Cause.message : Cause → String
  | unexpectedCharacter c => s!"unexpected character '{c}'"
  | integerTooLarge digits => s!"integer literal '{digits}' is too large"
  | expected kind place found => s!"expected {kind.title} {place.phrase}, found {found.describe}"
  | expectedType found => s!"expected type name, found {found.describe}"
  | expectedExpression found => s!"expected expression, found {found.describe}"
  | malformedLiteral => "malformed literal token"
  | calleeNotNamed => "only named functions can be called"
  | chained operator => s!"{operator.title} cannot be chained"
  | returnOutside => "'return' outside function"

end SyntaxError

structure SyntaxError where
  cause : SyntaxError.Cause
  pos : Position
  deriving DecidableEq, Repr

end Abacus
