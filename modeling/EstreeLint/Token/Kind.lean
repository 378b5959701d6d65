/-!
Kinds of token.

The kinds are listed in groups, so that a class of tokens is an interval of the listing; the
place of a kind in the listing is its number. `keywords` and `punctuators` give the spelling
of the kinds that have just one.
-/

namespace EstreeLint

inductive TokenKind where
  -- no text, trivia
  | unknown | endOfFile | singleLineCommentTrivia | multiLineCommentTrivia | newLineTrivia
  | whitespaceTrivia | shebangTrivia | conflictMarkerTrivia | nonTextFileMarkerTrivia
  -- literals
  | numericLiteral | bigIntLiteral | stringLiteral | jsxText | jsxTextAllWhiteSpaces
  | regularExpressionLiteral | noSubstitutionTemplateLiteral
  -- pieces of a template
  | templateHead | templateMiddle | templateTail
  -- punctuation
  | openBrace | closeBrace | openParen | closeParen | openBracket | closeBracket | dot | dotDotDot
  | semicolon | comma | questionDot | lessThan | lessThanSlash | greaterThan | lessThanEquals
  | greaterThanEquals | equalsEquals | exclamationEquals | equalsEqualsEquals
  | exclamationEqualsEquals | equalsGreaterThan | plus | minus | asterisk | asteriskAsterisk
  | slash | percent | plusPlus | minusMinus | lessThanLessThan | greaterThanGreaterThan
  | greaterThanGreaterThanGreaterThan | ampersand | bar | caret | exclamation | tilde
  | ampersandAmpersand | barBar | question | colon | at | questionQuestion | backtick | hash
  -- assignment operators
  | equals | plusEquals | minusEquals | asteriskEquals | asteriskAsteriskEquals | slashEquals
  | percentEquals | lessThanLessThanEquals | greaterThanGreaterThanEquals
  | greaterThanGreaterThanGreaterThanEquals | ampersandEquals | barEquals | barBarEquals
  | ampersandAmpersandEquals | questionQuestionEquals | caretEquals
  -- names
  | identifier | privateIdentifier
  -- reserved words
  | breakKw | caseKw | catchKw | classKw | constKw | continueKw | debuggerKw | defaultKw
  | deleteKw | doKw | elseKw | enumKw | exportKw | extendsKw | falseKw | finallyKw | forKw
  | functionKw | ifKw | importKw | inKw | instanceOfKw | newKw | nullKw | returnKw | superKw
  | switchKw | thisKw | throwKw | trueKw | tryKw | typeOfKw | varKw | voidKw | whileKw | withKw
  -- words reserved in strict code
  | implementsKw | interfaceKw | letKw | packageKw | privateKw | protectedKw | publicKw | staticKw
  | yieldKw
  -- words with a meaning in some places
  | abstractKw | accessorKw | asKw | assertsKw | assertKw | anyKw | asyncKw | awaitKw | booleanKw
  | constructorKw | declareKw | getKw | inferKw | intrinsicKw | isKw | keyOfKw | moduleKw
  | namespaceKw | neverKw | outKw | readonlyKw | requireKw | numberKw | objectKw | satisfiesKw
  | setKw | stringKw | symbolKw | typeKw | undefinedKw | uniqueKw | unknownKw | usingKw | fromKw
  | globalKw | bigIntKw | overrideKw | ofKw
deriving DecidableEq, Repr

namespace TokenKind

/-- Every kind, in the order of the listing. -/
def all : List TokenKind := [
  .unknown, .endOfFile, .singleLineCommentTrivia, .multiLineCommentTrivia, .newLineTrivia,
  .whitespaceTrivia, .shebangTrivia, .conflictMarkerTrivia, .nonTextFileMarkerTrivia,
  .numericLiteral, .bigIntLiteral, .stringLiteral, .jsxText, .jsxTextAllWhiteSpaces,
  .regularExpressionLiteral, .noSubstitutionTemplateLiteral, .templateHead, .templateMiddle,
  .templateTail, .openBrace, .closeBrace, .openParen, .closeParen, .openBracket, .closeBracket,
  .dot, .dotDotDot, .semicolon, .comma, .questionDot, .lessThan, .lessThanSlash, .greaterThan,
  .lessThanEquals, .greaterThanEquals, .equalsEquals, .exclamationEquals, .equalsEqualsEquals,
  .exclamationEqualsEquals, .equalsGreaterThan, .plus, .minus, .asterisk, .asteriskAsterisk,
  .slash, .percent, .plusPlus, .minusMinus, .lessThanLessThan, .greaterThanGreaterThan,
  .greaterThanGreaterThanGreaterThan, .ampersand, .bar, .caret, .exclamation, .tilde,
  .ampersandAmpersand, .barBar, .question, .colon, .at, .questionQuestion, .backtick, .hash,
  .equals, .plusEquals, .minusEquals, .asteriskEquals, .asteriskAsteriskEquals, .slashEquals,
  .percentEquals, .lessThanLessThanEquals, .greaterThanGreaterThanEquals,
  .greaterThanGreaterThanGreaterThanEquals, .ampersandEquals, .barEquals, .barBarEquals,
  .ampersandAmpersandEquals, .questionQuestionEquals, .caretEquals, .identifier,
  .privateIdentifier, .breakKw, .caseKw, .catchKw, .classKw, .constKw, .continueKw, .debuggerKw,
  .defaultKw, .deleteKw, .doKw, .elseKw, .enumKw, .exportKw, .extendsKw, .falseKw, .finallyKw,
  .forKw, .functionKw, .ifKw, .importKw, .inKw, .instanceOfKw, .newKw, .nullKw, .returnKw,
  .superKw, .switchKw, .thisKw, .throwKw, .trueKw, .tryKw, .typeOfKw, .varKw, .voidKw, .whileKw,
  .withKw, .implementsKw, .interfaceKw, .letKw, .packageKw, .privateKw, .protectedKw, .publicKw,
  .staticKw, .yieldKw, .abstractKw, .accessorKw, .asKw, .assertsKw, .assertKw, .anyKw, .asyncKw,
  .awaitKw, .booleanKw, .constructorKw, .declareKw, .getKw, .inferKw, .intrinsicKw, .isKw,
  .keyOfKw, .moduleKw, .namespaceKw, .neverKw, .outKw, .readonlyKw, .requireKw, .numberKw,
  .objectKw, .satisfiesKw, .setKw, .stringKw, .symbolKw, .typeKw, .undefinedKw, .uniqueKw,
  .unknownKw, .usingKw, .fromKw, .globalKw, .bigIntKw, .overrideKw, .ofKw]

/-- The place of a kind in the listing. -/
def number (k : TokenKind) : Nat := k.ctorIdx

def ofNumber? (n : Nat) : Option TokenKind := all[n]?

/-- The name under which a kind is shown. -/
def name : TokenKind → String
  | .unknown => "Unknown"
  | .endOfFile => "EndOfFileToken"
  | .singleLineCommentTrivia => "SingleLineCommentTrivia"
  | .multiLineCommentTrivia => "MultiLineCommentTrivia"
  | .newLineTrivia => "NewLineTrivia"
  | .whitespaceTrivia => "WhitespaceTrivia"
  | .shebangTrivia => "ShebangTrivia"
  | .conflictMarkerTrivia => "ConflictMarkerTrivia"
  | .nonTextFileMarkerTrivia => "NonTextFileMarkerTrivia"
  | .numericLiteral => "NumericLiteral"
  | .bigIntLiteral => "BigIntLiteral"
  | .stringLiteral => "StringLiteral"
  | .jsxText => "JsxText"
  | .jsxTextAllWhiteSpaces => "JsxTextAllWhiteSpaces"
  | .regularExpressionLiteral => "RegularExpressionLiteral"
  | .noSubstitutionTemplateLiteral => "NoSubstitutionTemplateLiteral"
  | .templateHead => "TemplateHead"
  | .templateMiddle => "TemplateMiddle"
  | .templateTail => "TemplateTail"
  | .openBrace => "OpenBraceToken"
  | .closeBrace => "CloseBraceToken"
  | .openParen => "OpenParenToken"
  | .closeParen => "CloseParenToken"
  | .openBracket => "OpenBracketToken"
  | .closeBracket => "CloseBracketToken"
  | .dot => "DotToken"
  | .dotDotDot => "DotDotDotToken"
  | .semicolon => "SemicolonToken"
  | .comma => "CommaToken"
  | .questionDot => "QuestionDotToken"
  | .lessThan => "LessThanToken"
  | .lessThanSlash => "LessThanSlashToken"
  | .greaterThan => "GreaterThanToken"
  | .lessThanEquals => "LessThanEqualsToken"
  | .greaterThanEquals => "GreaterThanEqualsToken"
  | .equalsEquals => "EqualsEqualsToken"
  | .exclamationEquals => "ExclamationEqualsToken"
  | .equalsEqualsEquals => "EqualsEqualsEqualsToken"
  | .exclamationEqualsEquals => "ExclamationEqualsEqualsToken"
  | .equalsGreaterThan => "EqualsGreaterThanToken"
  | .plus => "PlusToken"
  | .minus => "MinusToken"
  | .asterisk => "AsteriskToken"
  | .asteriskAsterisk => "AsteriskAsteriskToken"
  | .slash => "SlashToken"
  | .percent => "PercentToken"
  | .plusPlus => "PlusPlusToken"
  | .minusMinus => "MinusMinusToken"
  | .lessThanLessThan => "LessThanLessThanToken"
  | .greaterThanGreaterThan => "GreaterThanGreaterThanToken"
  | .greaterThanGreaterThanGreaterThan => "GreaterThanGreaterThanGreaterThanToken"
  | .ampersand => "AmpersandToken"
  | .bar => "BarToken"
  | .caret => "CaretToken"
  | .exclamation => "ExclamationToken"
  | .tilde => "TildeToken"
  | .ampersandAmpersand => "AmpersandAmpersandToken"
  | .barBar => "BarBarToken"
  | .question => "QuestionToken"
  | .colon => "ColonToken"
  | .at => "AtToken"
  | .questionQuestion => "QuestionQuestionToken"
  | .backtick => "BacktickToken"
  | .hash => "HashToken"
  | .equals => "EqualsToken"
  | .plusEquals => "PlusEqualsToken"
  | .minusEquals => "MinusEqualsToken"
  | .asteriskEquals => "AsteriskEqualsToken"
  | .asteriskAsteriskEquals => "AsteriskAsteriskEqualsToken"
  | .slashEquals => "SlashEqualsToken"
  | .percentEquals => "PercentEqualsToken"
  | .lessThanLessThanEquals => "LessThanLessThanEqualsToken"
  | .greaterThanGreaterThanEquals => "GreaterThanGreaterThanEqualsToken"
  | .greaterThanGreaterThanGreaterThanEquals => "GreaterThanGreaterThanGreaterThanEqualsToken"
  | .ampersandEquals => "AmpersandEqualsToken"
  | .barEquals => "BarEqualsToken"
  | .barBarEquals => "BarBarEqualsToken"
  | .ampersandAmpersandEquals => "AmpersandAmpersandEqualsToken"
  | .questionQuestionEquals => "QuestionQuestionEqualsToken"
  | .caretEquals => "CaretEqualsToken"
  | .identifier => "Identifier"
  | .privateIdentifier => "PrivateIdentifier"
  | .breakKw => "BreakKeyword"
  | .caseKw => "CaseKeyword"
  | .catchKw => "CatchKeyword"
  | .classKw => "ClassKeyword"
  | .constKw => "ConstKeyword"
  | .continueKw => "ContinueKeyword"
  | .debuggerKw => "DebuggerKeyword"
  | .defaultKw => "DefaultKeyword"
  | .deleteKw => "DeleteKeyword"
  | .doKw => "DoKeyword"
  | .elseKw => "ElseKeyword"
  | .enumKw => "EnumKeyword"
  | .exportKw => "ExportKeyword"
  | .extendsKw => "ExtendsKeyword"
  | .falseKw => "FalseKeyword"
  | .finallyKw => "FinallyKeyword"
  | .forKw => "ForKeyword"
  | .functionKw => "FunctionKeyword"
  | .ifKw => "IfKeyword"
  | .importKw => "ImportKeyword"
  | .inKw => "InKeyword"
  | .instanceOfKw => "InstanceOfKeyword"
  | .newKw => "NewKeyword"
  | .nullKw => "NullKeyword"
  | .returnKw => "ReturnKeyword"
  | .superKw => "SuperKeyword"
  | .switchKw => "SwitchKeyword"
  | .thisKw => "ThisKeyword"
  | .throwKw => "ThrowKeyword"
  | .trueKw => "TrueKeyword"
  | .tryKw => "TryKeyword"
  | .typeOfKw => "TypeOfKeyword"
  | .varKw => "VarKeyword"
  | .voidKw => "VoidKeyword"
  | .whileKw => "WhileKeyword"
  | .withKw => "WithKeyword"
  | .implementsKw => "ImplementsKeyword"
  | .interfaceKw => "InterfaceKeyword"
  | .letKw => "LetKeyword"
  | .packageKw => "PackageKeyword"
  | .privateKw => "PrivateKeyword"
  | .protectedKw => "ProtectedKeyword"
  | .publicKw => "PublicKeyword"
  | .staticKw => "StaticKeyword"
  | .yieldKw => "YieldKeyword"
  | .abstractKw => "AbstractKeyword"
  | .accessorKw => "AccessorKeyword"
  | .asKw => "AsKeyword"
  | .assertsKw => "AssertsKeyword"
  | .assertKw => "AssertKeyword"
  | .anyKw => "AnyKeyword"
  | .asyncKw => "AsyncKeyword"
  | .awaitKw => "AwaitKeyword"
  | .booleanKw => "BooleanKeyword"
  | .constructorKw => "ConstructorKeyword"
  | .declareKw => "DeclareKeyword"
  | .getKw => "GetKeyword"
  | .inferKw => "InferKeyword"
  | .intrinsicKw => "IntrinsicKeyword"
  | .isKw => "IsKeyword"
  | .keyOfKw => "KeyOfKeyword"
  | .moduleKw => "ModuleKeyword"
  | .namespaceKw => "NamespaceKeyword"
  | .neverKw => "NeverKeyword"
  | .outKw => "OutKeyword"
  | .readonlyKw => "ReadonlyKeyword"
  | .requireKw => "RequireKeyword"
  | .numberKw => "NumberKeyword"
  | .objectKw => "ObjectKeyword"
  | .satisfiesKw => "SatisfiesKeyword"
  | .setKw => "SetKeyword"
  | .stringKw => "StringKeyword"
  | .symbolKw => "SymbolKeyword"
  | .typeKw => "TypeKeyword"
  | .undefinedKw => "UndefinedKeyword"
  | .uniqueKw => "UniqueKeyword"
  | .unknownKw => "UnknownKeyword"
  | .usingKw => "UsingKeyword"
  | .fromKw => "FromKeyword"
  | .globalKw => "GlobalKeyword"
  | .bigIntKw => "BigIntKeyword"
  | .overrideKw => "OverrideKeyword"
  | .ofKw => "OfKeyword"

/-- Words with a kind of their own. -/
def keywords : List (String × TokenKind) := [
  ("abstract", .abstractKw), ("accessor", .accessorKw), ("any", .anyKw), ("as", .asKw),
  ("asserts", .assertsKw), ("assert", .assertKw), ("bigint", .bigIntKw), ("boolean", .booleanKw),
  ("break", .breakKw), ("case", .caseKw), ("catch", .catchKw), ("class", .classKw),
  ("continue", .continueKw), ("const", .constKw), ("constructor", .constructorKw),
  ("debugger", .debuggerKw), ("declare", .declareKw), ("default", .defaultKw),
  ("delete", .deleteKw), ("do", .doKw), ("else", .elseKw), ("enum", .enumKw),
  ("export", .exportKw), ("extends", .extendsKw), ("false", .falseKw), ("finally", .finallyKw),
  ("for", .forKw), ("from", .fromKw), ("function", .functionKw), ("get", .getKw), ("if", .ifKw),
  ("implements", .implementsKw), ("import", .importKw), ("in", .inKw), ("infer", .inferKw),
  ("instanceof", .instanceOfKw), ("interface", .interfaceKw), ("intrinsic", .intrinsicKw),
  ("is", .isKw), ("keyof", .keyOfKw), ("let", .letKw), ("module", .moduleKw),
  ("namespace", .namespaceKw), ("never", .neverKw), ("new", .newKw), ("null", .nullKw),
  ("number", .numberKw), ("object", .objectKw), ("package", .packageKw), ("private", .privateKw),
  ("protected", .protectedKw), ("public", .publicKw), ("override", .overrideKw), ("out", .outKw),
  ("readonly", .readonlyKw), ("require", .requireKw), ("global", .globalKw),
  ("return", .returnKw), ("satisfies", .satisfiesKw), ("set", .setKw), ("static", .staticKw),
  ("string", .stringKw), ("super", .superKw), ("switch", .switchKw), ("symbol", .symbolKw),
  ("this", .thisKw), ("throw", .throwKw), ("true", .trueKw), ("try", .tryKw), ("type", .typeKw),
  ("typeof", .typeOfKw), ("undefined", .undefinedKw), ("unique", .uniqueKw),
  ("unknown", .unknownKw), ("using", .usingKw), ("var", .varKw), ("void", .voidKw),
  ("while", .whileKw), ("with", .withKw), ("yield", .yieldKw), ("async", .asyncKw),
  ("await", .awaitKw), ("of", .ofKw)]

/-- Spellings of punctuation. -/
def punctuators : List (TokenKind × String) := [
  (.openBrace, "\x7b"), (.closeBrace, "\x7d"), (.openParen, "("), (.closeParen, ")"),
  (.openBracket, "["), (.closeBracket, "]"), (.dot, "."), (.dotDotDot, "..."), (.semicolon, ";"),
  (.comma, ","), (.questionDot, "?."), (.lessThan, "<"), (.lessThanSlash, "</"),
  (.greaterThan, ">"), (.lessThanEquals, "<="), (.greaterThanEquals, ">="), (.equalsEquals, "=="),
  (.exclamationEquals, "!="), (.equalsEqualsEquals, "==="), (.exclamationEqualsEquals, "!=="),
  (.equalsGreaterThan, "=>"), (.plus, "+"), (.minus, "-"), (.asterisk, "*"),
  (.asteriskAsterisk, "**"), (.slash, "/"), (.percent, "%"), (.plusPlus, "++"),
  (.minusMinus, "--"), (.lessThanLessThan, "<<"), (.greaterThanGreaterThan, ">>"),
  (.greaterThanGreaterThanGreaterThan, ">>>"), (.ampersand, "&"), (.bar, "|"), (.caret, "^"),
  (.exclamation, "!"), (.tilde, "~"), (.ampersandAmpersand, "&&"), (.barBar, "||"),
  (.question, "?"), (.colon, ":"), (.at, "@"), (.questionQuestion, "??"), (.backtick, "\x60"),
  (.hash, "#"), (.equals, "="), (.plusEquals, "+="), (.minusEquals, "-="),
  (.asteriskEquals, "*="), (.asteriskAsteriskEquals, "**="), (.slashEquals, "/="),
  (.percentEquals, "%="), (.lessThanLessThanEquals, "<<="),
  (.greaterThanGreaterThanEquals, ">>="), (.greaterThanGreaterThanGreaterThanEquals, ">>>="),
  (.ampersandEquals, "&="), (.barEquals, "|="), (.barBarEquals, "||="),
  (.ampersandAmpersandEquals, "&&="), (.questionQuestionEquals, "??="), (.caretEquals, "^=")]

/-- The keyword spelled by a word. -/
def ofWord? (word : String) : Option TokenKind := keywords.lookup word

/-- The kind of a word: its keyword, or an identifier. -/
def ofWord (word : String) : TokenKind := (ofWord? word).getD .identifier

def keywordText? (k : TokenKind) : Option String :=
  (keywords.find? fun entry => entry.2 == k).map Prod.fst

def punctuationText? (k : TokenKind) : Option String := punctuators.lookup k

/-- The spelling of a keyword or of punctuation. -/
def text? (k : TokenKind) : Option String := k.keywordText? <|> k.punctuationText?

/-- The kind stands in the listing from `first` to `last`. -/
def within (first last k : TokenKind) : Bool := first.number ≤ k.number && k.number ≤ last.number

def isKeyword : TokenKind → Bool := within .breakKw .ofKw

def isReservedWord : TokenKind → Bool := within .breakKw .withKw

def isFutureReservedWord : TokenKind → Bool := within .implementsKw .yieldKw

def isContextualKeyword : TokenKind → Bool := within .abstractKw .ofKw

def isIdentifierOrKeyword (k : TokenKind) : Bool := k == .identifier || k.isKeyword

def isPunctuation : TokenKind → Bool := within .openBrace .caretEquals

def isAssignment : TokenKind → Bool := within .equals .caretEquals

def isTemplate : TokenKind → Bool := within .noSubstitutionTemplateLiteral .templateTail

def isLiteral : TokenKind → Bool := within .numericLiteral .noSubstitutionTemplateLiteral

def isTrivia : TokenKind → Bool := within .singleLineCommentTrivia .nonTextFileMarkerTrivia

/-- Words that may stand before a declaration or class member. -/
def modifiers : List TokenKind := [
  .abstractKw, .accessorKw, .asyncKw, .constKw, .declareKw, .defaultKw, .exportKw, .inKw,
  .publicKw, .privateKw, .protectedKw, .readonlyKw, .staticKw, .outKw, .overrideKw]

def isModifier (k : TokenKind) : Bool := modifiers.contains k

end TokenKind

end EstreeLint
