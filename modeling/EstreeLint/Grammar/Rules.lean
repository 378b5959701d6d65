import EstreeLint.Syntax.Kind

/-!
Classes of token and node that the grammar refers to.
-/

namespace EstreeLint.Grammar

/-- Modifiers that turn a parameter into a property. -/
def isParameterPropertyModifier (k : TokenKind) : Bool :=
  [TokenKind.publicKw, .privateKw, .protectedKw, .readonlyKw, .overrideKw].contains k

/-- How tightly a binary operator binds; 0 for any other token. -/
def binaryPrecedence : TokenKind → Nat
  | .questionQuestion => 4
  | .barBar => 5
  | .ampersandAmpersand => 6
  | .bar => 7
  | .caret => 8
  | .ampersand => 9
  | .equalsEquals | .exclamationEquals | .equalsEqualsEquals | .exclamationEqualsEquals => 10
  | .lessThan | .greaterThan | .lessThanEquals | .greaterThanEquals | .instanceOfKw | .inKw
  | .asKw | .satisfiesKw => 11
  | .lessThanLessThan | .greaterThanGreaterThan | .greaterThanGreaterThanGreaterThan => 12
  | .plus | .minus => 13
  | .asterisk | .slash | .percent => 14
  | .asteriskAsterisk => 15
  | _ => 0

/-- A token that can begin an expression. -/
def isExpressionStart (k : TokenKind) : Bool :=
  [TokenKind.thisKw, .superKw, .nullKw, .trueKw, .falseKw, .numericLiteral, .bigIntLiteral,
    .stringLiteral, .noSubstitutionTemplateLiteral, .templateHead, .openParen, .openBracket,
    .openBrace, .functionKw, .classKw, .newKw, .slash, .slashEquals, .identifier,
    .privateIdentifier, .plus, .minus, .tilde, .exclamation, .deleteKw, .typeOfKw, .voidKw,
    .plusPlus, .minusMinus, .lessThan, .awaitKw, .yieldKw, .importKw, .at, .dotDotDot].contains k
    || (k.isIdentifierOrKeyword && !k.isReservedWord)

/-- A token that can begin a type. -/
def isTypeStart (k : TokenKind) : Bool :=
  [TokenKind.openBrace, .openBracket, .openParen, .lessThan, .bar, .ampersand, .newKw,
    .stringLiteral, .numericLiteral, .bigIntLiteral, .trueKw, .falseKw, .nullKw, .voidKw,
    .thisKw, .typeOfKw, .importKw, .minus, .noSubstitutionTemplateLiteral, .templateHead,
    .dotDotDot, .asterisk, .question, .exclamation].contains k
    || k.isIdentifierOrKeyword

/-- A node that can be assigned to, called, or have a member. -/
def isLeftHandSide : NodeKind → Bool
  | .token k => [TokenKind.identifier, .privateIdentifier, .thisKw, .superKw].contains k
  | .form f =>
    [Form.propertyAccessExpression, .elementAccessExpression, .callExpression, .newExpression,
      .taggedTemplateExpression, .parenthesizedExpression, .arrayLiteralExpression,
      .objectLiteralExpression, .nonNullExpression, .metaProperty, .expressionWithTypeArguments,
      .asExpression, .satisfiesExpression, .typeAssertionExpression].contains f

end EstreeLint.Grammar
