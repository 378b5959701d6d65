import EstreeLint.Token.Kind

/-!
Syntax errors: what was wrong, where, and how it is worded.
-/

namespace EstreeLint

/-- What is wrong at a place. -/
inductive SyntaxFault where
  | expected (k : TokenKind)
  | identifierExpected
  | reservedWordAsIdentifier
  | nestingTooDeep
  | statementExpected
  | superAlone
  | elementAccessWithoutArgument
  | optionalChainAfterNew
  | expressionExpected
  | unclosedElement
  | unclosedElementNamed (name : String)
  | otherClosingTag (name : String)
  | attributeValueExpected
  | caseExpected
  | lineBreak
  | declarationExpected
  | stringExpected
  | classMemberExpected
  | typeMemberExpected
  | initializedTypeMember
  | typeExpected
  | memberInMappedType
  | unterminatedString
  | unterminatedRegularExpression
  | unterminatedTemplate
deriving DecidableEq, Repr

namespace SyntaxFault

def message : SyntaxFault → String
  | .expected k => "'" ++ k.text?.getD "token" ++ "' expected."
  | .identifierExpected => "Identifier expected."
  | .reservedWordAsIdentifier => "Identifier expected. A reserved word cannot be used here."
  | .nestingTooDeep => "Maximum nesting depth exceeded."
  | .statementExpected => "Declaration or statement expected."
  | .superAlone => "'super' must be followed by an argument list or member access."
  | .elementAccessWithoutArgument => "An element access expression should take an argument."
  | .optionalChainAfterNew =>
    "Invalid optional chain from new expression. Did you mean to call 'new a()'?"
  | .expressionExpected => "Expression expected."
  | .unclosedElement => "JSX element has no corresponding closing tag."
  | .unclosedElementNamed name => "JSX element '" ++ name ++ "' has no corresponding closing tag."
  | .otherClosingTag name => "Expected corresponding JSX closing tag for '" ++ name ++ "'."
  | .attributeValueExpected => "'\x7b' or JSX element expected."
  | .caseExpected => "'case' or 'default' expected."
  | .lineBreak => "Line break not permitted here."
  | .declarationExpected => "Declaration expected."
  | .stringExpected => "String literal expected."
  | .classMemberExpected =>
    "Unexpected token. A constructor, method, accessor, or property was expected."
  | .typeMemberExpected => "Property or signature expected."
  | .initializedTypeMember => "An interface property cannot have an initializer."
  | .typeExpected => "Type expected."
  | .memberInMappedType => "A mapped type may not declare properties or methods."
  | .unterminatedString => "Unterminated string literal."
  | .unterminatedRegularExpression => "Unterminated regular expression literal."
  | .unterminatedTemplate => "Unterminated template literal."

/-- The number under which a fault is documented. -/
def code : SyntaxFault → Nat
  | .expected _ | .caseExpected | .stringExpected => 1005
  | .identifierExpected | .reservedWordAsIdentifier => 1003
  | .nestingTooDeep => 90001
  | .statementExpected => 1128
  | .superAlone | .optionalChainAfterNew | .initializedTypeMember | .memberInMappedType => 1012
  | .elementAccessWithoutArgument | .expressionExpected | .attributeValueExpected => 1109
  | .unclosedElement | .unclosedElementNamed _ => 17008
  | .otherClosingTag _ => 17002
  | .lineBreak => 1142
  | .declarationExpected => 1146
  | .classMemberExpected => 1068
  | .typeMemberExpected => 1131
  | .typeExpected => 1110
  | .unterminatedString => 1002
  | .unterminatedRegularExpression => 1161
  | .unterminatedTemplate => 1160

end SyntaxFault

/-- A fault and the bytes it is reported on. -/
structure SyntaxError where
  start : Nat
  length : Nat
  fault : SyntaxFault
deriving DecidableEq, Repr

end EstreeLint
