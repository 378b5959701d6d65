/-!
The fields of nodes in an ESTree, in the order of their names. A node's children are walked in
this order.
-/

namespace EstreeLint.Estree

inductive Field where
  | isAbstract | accessibility | alternate | argument | arguments | asserts | isAsync
  | attributes | isAwait | bigint | block | body | callee | cases | checkType | children
  | closingElement | closingFragment | isComputed | consequent | isConst | constraint
  | declaration | declarations | isDeclared | decorators | default | definite | delegate
  | directive | discriminant | elementType | elementTypes | elements | exportKind | exported
  | exprName | expression | expressions | extended | extendsType | falseType | finalizer
  | generator | isGlobal | handler | id | implements | importKind | imported | isIn | indexType
  | init | initializer | key | kind | label | left | literal | localName | members | metaName
  | isMethod | moduleReference | name | nameType | namespaceName | object | objectType
  | openingElement | openingFragment | operator | optional | options | isOut | isOverride | param
  | parameter | parameterName | parameters | params | before | properties | property | qualifier
  | quasi | quasis | raw | readonly | regex | returnType | right | selfClosing | shorthand
  | source | sourceType | specifiers | isStatic | superClass | superTypeArguments | tag | tail
  | test | trueType | type | typeArguments | typeName | typeParameter | typeParameters | types
  | update | value
deriving DecidableEq, Repr

namespace Field

/-- The place of a field in the listing. -/
def number (f : Field) : Nat := f.ctorIdx

/-- The name under which a field is shown. -/
def shown : Field → String
  | .isAbstract => "abstract"
  | .accessibility => "accessibility"
  | .alternate => "alternate"
  | .argument => "argument"
  | .arguments => "arguments"
  | .asserts => "asserts"
  | .isAsync => "async"
  | .attributes => "attributes"
  | .isAwait => "await"
  | .bigint => "bigint"
  | .block => "block"
  | .body => "body"
  | .callee => "callee"
  | .cases => "cases"
  | .checkType => "checkType"
  | .children => "children"
  | .closingElement => "closingElement"
  | .closingFragment => "closingFragment"
  | .isComputed => "computed"
  | .consequent => "consequent"
  | .isConst => "const"
  | .constraint => "constraint"
  | .declaration => "declaration"
  | .declarations => "declarations"
  | .isDeclared => "declare"
  | .decorators => "decorators"
  | .default => "default"
  | .definite => "definite"
  | .delegate => "delegate"
  | .directive => "directive"
  | .discriminant => "discriminant"
  | .elementType => "elementType"
  | .elementTypes => "elementTypes"
  | .elements => "elements"
  | .exportKind => "exportKind"
  | .exported => "exported"
  | .exprName => "exprName"
  | .expression => "expression"
  | .expressions => "expressions"
  | .extended => "extends"
  | .extendsType => "extendsType"
  | .falseType => "falseType"
  | .finalizer => "finalizer"
  | .generator => "generator"
  | .isGlobal => "global"
  | .handler => "handler"
  | .id => "id"
  | .implements => "implements"
  | .importKind => "importKind"
  | .imported => "imported"
  | .isIn => "in"
  | .indexType => "indexType"
  | .init => "init"
  | .initializer => "initializer"
  | .key => "key"
  | .kind => "kind"
  | .label => "label"
  | .left => "left"
  | .literal => "literal"
  | .localName => "local"
  | .members => "members"
  | .metaName => "meta"
  | .isMethod => "method"
  | .moduleReference => "moduleReference"
  | .name => "name"
  | .nameType => "nameType"
  | .namespaceName => "namespace"
  | .object => "object"
  | .objectType => "objectType"
  | .openingElement => "openingElement"
  | .openingFragment => "openingFragment"
  | .operator => "operator"
  | .optional => "optional"
  | .options => "options"
  | .isOut => "out"
  | .isOverride => "override"
  | .param => "param"
  | .parameter => "parameter"
  | .parameterName => "parameterName"
  | .parameters => "parameters"
  | .params => "params"
  | .before => "prefix"
  | .properties => "properties"
  | .property => "property"
  | .qualifier => "qualifier"
  | .quasi => "quasi"
  | .quasis => "quasis"
  | .raw => "raw"
  | .readonly => "readonly"
  | .regex => "regex"
  | .returnType => "returnType"
  | .right => "right"
  | .selfClosing => "selfClosing"
  | .shorthand => "shorthand"
  | .source => "source"
  | .sourceType => "sourceType"
  | .specifiers => "specifiers"
  | .isStatic => "static"
  | .superClass => "superClass"
  | .superTypeArguments => "superTypeArguments"
  | .tag => "tag"
  | .tail => "tail"
  | .test => "test"
  | .trueType => "trueType"
  | .type => "typeAnnotation"
  | .typeArguments => "typeArguments"
  | .typeName => "typeName"
  | .typeParameter => "typeParameter"
  | .typeParameters => "typeParameters"
  | .types => "types"
  | .update => "update"
  | .value => "value"

end Field

end EstreeLint.Estree
