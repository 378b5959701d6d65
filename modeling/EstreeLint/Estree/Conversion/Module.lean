import EstreeLint.Estree.Conversion.Expression

/-!
Conversion of imports, exports and namespaces.
-/

namespace EstreeLint.Estree.Convert

/-! ### Exported declarations -/

def kindText (typeOnly : Bool) : String := if typeOnly then "type" else "value"

/-- Puts an export around a declaration whose first modifier is `export`. The declaration then
starts after that word, and after `default` if that comes next; the export starts at the token
after the word. -/
def wrapExport (n : Node) (declaration : EsNode) : Convert EsNode := do
  match words n with
  | (.exportKw, exportWord) :: rest =>
    let (_, after) ← tokenAt exportWord.stop
    let default? := match rest with
      | (.defaultKw, word) :: _ => some word
      | _ => none
    let start ← match default? with
      | some word => do pure (← tokenAt word.stop).2.start
      | none => pure after.start
    let inner ← restart declaration start
    let r := Span.between after.start inner.range.stop
    if default?.isSome then
      make (some n) r .exportDefaultDeclaration
        [.one .declaration inner, .text .exportKind "value"]
    else
      let typeOnly := inner.type == .tsInterfaceDeclaration ||
        inner.type == .tsTypeAliasDeclaration || hasWord n .declareKw
      make (some n) r .exportNamedDeclaration
        [.list .attributes [], .one .declaration inner, .text .exportKind (kindText typeOnly),
          .value .source .null, .list .specifiers []]
  | _ => return declaration

/-! ### Bodies -/

/-- The text of a string that stands alone as a statement. -/
def directiveText? (n : Node) : Convert (Option String) := do
  if !n.isForm .expressionStatement then return none
  let some e := n.part? .expression | return none
  if !e.isToken .stringLiteral then return none
  let r ← tokensOf e
  return some (← sourceOf (Span.between (r.start + 1) (r.stop - 1)))

/-- Converts statements. While `prologue` is set, strings that stand alone are directives. -/
def bodyFrom (n : Node) (prologue : Bool) : List Node → Convert (List EsNode)
  | [] => return []
  | statement :: rest => do
    let converted ← convertPart n statement
    let text? ← if prologue then directiveText? statement else pure none
    let first := match text? with
      | some text =>
        if converted.type == .expressionStatement then converted.setValue .directive (.text text)
        else converted
      | none => converted
    return first :: (← bodyFrom n text?.isSome rest)

def body (n : Node) (r : Role) (prologue : Bool) : Convert (List EsNode) :=
  bodyFrom n prologue (n.partsOf r)

/-! ### Namespaces -/

/-- The declarations that a dotted name nests in one another as bodies, the outermost first and
`n` itself left out. -/
def innerDeclarations : Nat → Node → List Node
  | 0, _ => []
  | depth + 1, n =>
    match n.part? .body with
    | some inner =>
      if inner.isForm .moduleDeclaration then inner :: innerDeclarations depth inner else []
    | none => []

/-- Joins the names of nested declarations to a name, to the left. -/
def qualify (id : EsNode) : List Node → Convert EsNode
  | [] => return id
  | inner :: rest => do
    let right ← child inner .name
    let joined ← make none (Span.between id.range.start right.range.stop) .tsQualifiedName
      [.one .left id, .one .right right]
    qualify joined rest

/-- A namespace, a module or the global scope. A dotted name is one declaration, with the body of
the innermost. -/
def moduleDeclaration (n : Node) : Convert EsNode := do
  let name ← require n .name
  let inner :=
    if n.flags.globalAugmentation || name.isToken .stringLiteral then []
    else innerDeclarations n.height n
  let id ← qualify (← child n .name) inner
  let body ← child? (inner.getLastD n) .body
  let kind :=
    if n.flags.globalAugmentation then "global"
    else if name.isToken .stringLiteral || !n.flags.namespaceWord then "module"
    else "namespace"
  let declaration ← finish n .tsModuleDeclaration
    [.one? .body body, .flag .isDeclared ((n :: inner).any (hasWord · .declareKw)),
      .flag .isGlobal n.flags.globalAugmentation, .one .id id, .text .kind kind]
  wrapExport n declaration

def moduleBlock (n : Node) : Convert EsNode := do
  let statements ← body n .element true
  finish n .tsModuleBlock [.list .body statements]

/-! ### Imports -/

/-- The names that an import clause brings in. -/
def importSpecifiers (n clause : Node) : Convert (List EsNode) := do
  let default? ←
    if (clause.part? .name).isSome then pure [← convertPart n clause] else pure []
  let bindings ← match clause.part? .namedBindings with
    | none => pure []
    | some bindings =>
      if bindings.isForm .namespaceImport then pure [← convertPart clause bindings]
      else children bindings .element
  return default? ++ bindings

/-- The attributes of the module that an import or an export names. -/
def moduleAttributes (n : Node) : Convert (List EsNode) :=
  match n.part? .attributes with
  | some attributes => children attributes .element
  | none => return []

def importDeclaration (n : Node) : Convert EsNode := do
  let clause? := n.part? .importClause
  let specifiers ← match clause? with
    | some clause => importSpecifiers n clause
    | none => pure []
  let source ← child n .moduleSpecifier
  let attributes ← moduleAttributes n
  finish n .importDeclaration
    [.list .attributes attributes, .text .importKind (kindText (clause?.any (·.isFlagged))),
      .one .source source, .list .specifiers specifiers]

/-- The default name of an import clause, without the rest of the clause. -/
def importDefault (n : Node) : Convert EsNode := do
  let localName ← child n .name
  make (some n) localName.range .importDefaultSpecifier [.one .localName localName]

def namespaceImport (n : Node) : Convert EsNode := do
  let localName ← child n .name
  finish n .importNamespaceSpecifier [.one .localName localName]

/-- The name that a specifier gives away: the one before `as`, or the only one. -/
def givenName (n : Node) : Convert EsNode :=
  child n (if (n.part? .propertyName).isSome then .propertyName else .name)

def importSpecifier (n : Node) : Convert EsNode := do
  let imported ← givenName n
  let localName ← child n .name
  finish n .importSpecifier
    [.text .importKind (kindText n.isFlagged), .one .imported imported,
      .one .localName localName]

def importAttribute (n : Node) : Convert EsNode := do
  let key ← child n .name
  let value ← child n .value
  finish n .importAttribute [.one .key key, .one .value value]

/-- The attributes in the type of an import, as an object that starts at its brace. -/
def attributesObject (n : Node) : Convert EsNode := do
  let properties ← (n.partsOf .element).mapM fun element => do
    let key ← child element .name
    let value ← child element .value
    finish element .property
      (propertyParts (.flag .isComputed false) key "init" false false false value)
  let opening ← findToken (← tokensOf n).start .openBrace
  make (some n) (Span.between opening.start n.stop) .objectExpression
    [.list .properties properties]

def importEquals (n : Node) : Convert EsNode := do
  let id ← child n .name
  let reference ← child n .moduleReference
  let declaration ← finish n .tsImportEqualsDeclaration
    [.one .id id, .text .importKind (kindText n.isFlagged), .one .moduleReference reference]
  wrapExport n declaration

/-- A node with one expression in it. -/
def wrappedExpression (n : Node) (type : NodeType) (f : Field) : Convert EsNode := do
  let e ← child n .expression
  finish n type [.one f e]

/-! ### Exports -/

/-- Exported names, which may come from another module. -/
def namedExports (n clause : Node) : Convert EsNode := do
  let specifiers ← children clause .element
  let source ← child? n .moduleSpecifier
  let attributes ← moduleAttributes n
  finish n .exportNamedDeclaration
    [.list .attributes attributes, .value .declaration .null,
      .text .exportKind (kindText n.isFlagged), .one? .source source,
      .list .specifiers specifiers]

/-- All names of another module, or one name for all of them. -/
def exportAll (n : Node) : Convert EsNode := do
  let exported ← (n.part? .exportClause).mapM (child · .name)
  let source ← child n .moduleSpecifier
  let attributes ← moduleAttributes n
  finish n .exportAllDeclaration
    [.list .attributes attributes, .text .exportKind (kindText n.isFlagged),
      .one? .exported exported, .one .source source]

def exportDeclaration (n : Node) : Convert EsNode :=
  match n.part? .exportClause with
  | some clause => if clause.isForm .namedExports then namedExports n clause else exportAll n
  | none => exportAll n

def exportSpecifier (n : Node) : Convert EsNode := do
  let localName ← givenName n
  let exported ← child n .name
  finish n .exportSpecifier
    [.text .exportKind (kindText n.isFlagged), .one .exported exported,
      .one .localName localName]

/-- An exported value: the whole module with an equals sign, or its default. -/
def exportAssignment (n : Node) : Convert EsNode := do
  let e ← child n .expression
  if n.isFlagged then finish n .tsExportAssignment [.one .expression e]
  else finish n .exportDefaultDeclaration [.one .declaration e, .text .exportKind "value"]

def namespaceExport (n : Node) : Convert EsNode := do
  let id ← child n .name
  finish n .tsNamespaceExportDeclaration [.one .id id]

end EstreeLint.Estree.Convert
