/-! # Kinds of syntax nodes

A node of a module's syntax tree is told apart by its *kind* and holds named fields. The kinds
listed here are the forms of modules, statements, expressions, patterns and JSX that the library
gives a meaning to; every other form is kept under its tag. Three kinds share the tag `Identifier`:
a variable reference, a name that binds a variable or is assigned to, and a plain property or
attribute name that refers to no variable. `Kind.layout` fixes the order in which the parts of a
node are visited. -/

namespace JsxTracking

/-- The form of a syntax node. -/
inductive Kind where
  /-- A reference to a variable, or the name of a declared function, class or import. -/
  | identifier
  /-- A name in a pattern or at the left of an assignment. -/
  | binding
  /-- A property, key or attribute name. -/
  | name
  /-- One argument of a call or element of an array, possibly a spread one. -/
  | argument
  /-- Parameters and body of a class method. -/
  | function
  /-- A call that continues an optional chain. -/
  | optionalCall
  /-- A stretch of the source text. -/
  | position
  | arrayExpression | arrayPattern | arrowFunctionExpression | assignmentExpression
  | assignmentPattern | assignmentPatternProperty | assignmentProperty | awaitExpression
  | bigIntLiteral | binaryExpression | blockStatement | booleanLiteral | breakStatement
  | callExpression | catchClause | classDeclaration | classExpression | classMethod
  | classProperty | computed | conditionalExpression | constructor | continueStatement
  | doWhileStatement | emptyStatement | exportAllDeclaration | exportDeclaration
  | exportDefaultDeclaration | exportDefaultExpression | exportNamedDeclaration
  | exportNamespaceSpecifier | exportSpecifier | expressionStatement | forInStatement
  | forOfStatement | forStatement | functionDeclaration | functionExpression | getterProperty
  | ifStatement | importDeclaration | importDefaultSpecifier | importNamespaceSpecifier
  | importSpecifier | jsxAttribute | jsxClosingElement | jsxClosingFragment | jsxElement
  | jsxEmptyExpression | jsxExpressionContainer | jsxFragment | jsxMemberExpression
  | jsxNamespacedName | jsxOpeningElement | jsxOpeningFragment | jsxSpreadChild | jsxText
  | keyValuePatternProperty | keyValueProperty | labeledStatement | memberExpression
  | metaProperty | methodProperty | newExpression | nullLiteral | numericLiteral
  | objectExpression | objectPattern | optionalChainingExpression | parameter
  | parenthesisExpression | privateMethod | privateProperty | regExpLiteral | restElement
  | returnStatement | sequenceExpression | setterProperty | spreadElement | staticBlock
  | stringLiteral | superPropExpression | switchCase | switchStatement
  | taggedTemplateExpression | templateElement | templateLiteral | thisExpression
  | throwStatement | tryStatement | tsArrayType | tsAsExpression | tsConstAssertion
  | tsEnumDeclaration | tsEnumMember | tsInterfaceBody | tsInterfaceDeclaration | tsKeywordType
  | tsModuleDeclaration | tsNonNullExpression | tsPropertySignature | tsSatisfiesExpression
  | tsTypeAliasDeclaration | tsAscription | tsTypeAssertion | tsTypeLiteral | tsTypeReference
  | unaryExpression | updateExpression | variableDeclaration | variableDeclarator
  | whileStatement | withStatement | yieldExpression
  /-- A form that is only carried along. -/
  | other (tag : String)
  deriving DecidableEq, Repr, Inhabited

/-- The name of a part of a node. -/
inductive Field where
  | elements | ascription | params | body | typeParameters | returnType | left | right | key
  | value | argument | stmts | label | callee | arguments | typeArguments | param | identifier
  | decorators | superClass | typeParams | superTypeParams | implements | function | expression
  | test | consequent | alternate | source | withClause | declaration | decl | specifiers
  | name | orig | exported | initializer | update | localName | imported | opening | children
  | closing | object | property | namespacePart | attributes | properties | base | pat
  | expressions | obj | discriminant | cases | tag | template | quasis | block | handler
  | finalizer | elemType | id | members | extendsClause | typeName | declarations | operator
  | kind | raw | cooked | spread | optional | selfClosing | phase | async | generator
  | typeOnly | span | start | stop | leading | trailing
  /-- A part that is only carried along. -/
  | other (key : String)
  deriving DecidableEq, Repr, Inhabited

namespace Kind

/-- The type tag a node carries outside the library; arguments, the functions of class methods and
positions carry none. -/
def tag? : Kind → Option String
  | identifier | binding | name => some "Identifier"
  | argument | function | position => none
  | optionalCall => some "CallExpression"
  | arrayExpression => some "ArrayExpression"
  | arrayPattern => some "ArrayPattern"
  | arrowFunctionExpression => some "ArrowFunctionExpression"
  | assignmentExpression => some "AssignmentExpression"
  | assignmentPattern => some "AssignmentPattern"
  | assignmentPatternProperty => some "AssignmentPatternProperty"
  | assignmentProperty => some "AssignmentProperty"
  | awaitExpression => some "AwaitExpression"
  | bigIntLiteral => some "BigIntLiteral"
  | binaryExpression => some "BinaryExpression"
  | blockStatement => some "BlockStatement"
  | booleanLiteral => some "BooleanLiteral"
  | breakStatement => some "BreakStatement"
  | callExpression => some "CallExpression"
  | catchClause => some "CatchClause"
  | classDeclaration => some "ClassDeclaration"
  | classExpression => some "ClassExpression"
  | classMethod => some "ClassMethod"
  | classProperty => some "ClassProperty"
  | computed => some "Computed"
  | conditionalExpression => some "ConditionalExpression"
  | constructor => some "Constructor"
  | continueStatement => some "ContinueStatement"
  | doWhileStatement => some "DoWhileStatement"
  | emptyStatement => some "EmptyStatement"
  | exportAllDeclaration => some "ExportAllDeclaration"
  | exportDeclaration => some "ExportDeclaration"
  | exportDefaultDeclaration => some "ExportDefaultDeclaration"
  | exportDefaultExpression => some "ExportDefaultExpression"
  | exportNamedDeclaration => some "ExportNamedDeclaration"
  | exportNamespaceSpecifier => some "ExportNamespaceSpecifier"
  | exportSpecifier => some "ExportSpecifier"
  | expressionStatement => some "ExpressionStatement"
  | forInStatement => some "ForInStatement"
  | forOfStatement => some "ForOfStatement"
  | forStatement => some "ForStatement"
  | functionDeclaration => some "FunctionDeclaration"
  | functionExpression => some "FunctionExpression"
  | getterProperty => some "GetterProperty"
  | ifStatement => some "IfStatement"
  | importDeclaration => some "ImportDeclaration"
  | importDefaultSpecifier => some "ImportDefaultSpecifier"
  | importNamespaceSpecifier => some "ImportNamespaceSpecifier"
  | importSpecifier => some "ImportSpecifier"
  | jsxAttribute => some "JSXAttribute"
  | jsxClosingElement => some "JSXClosingElement"
  | jsxClosingFragment => some "JSXClosingFragment"
  | jsxElement => some "JSXElement"
  | jsxEmptyExpression => some "JSXEmptyExpression"
  | jsxExpressionContainer => some "JSXExpressionContainer"
  | jsxFragment => some "JSXFragment"
  | jsxMemberExpression => some "JSXMemberExpression"
  | jsxNamespacedName => some "JSXNamespacedName"
  | jsxOpeningElement => some "JSXOpeningElement"
  | jsxOpeningFragment => some "JSXOpeningFragment"
  | jsxSpreadChild => some "JSXSpreadChild"
  | jsxText => some "JSXText"
  | keyValuePatternProperty => some "KeyValuePatternProperty"
  | keyValueProperty => some "KeyValueProperty"
  | labeledStatement => some "LabeledStatement"
  | memberExpression => some "MemberExpression"
  | metaProperty => some "MetaProperty"
  | methodProperty => some "MethodProperty"
  | newExpression => some "NewExpression"
  | nullLiteral => some "NullLiteral"
  | numericLiteral => some "NumericLiteral"
  | objectExpression => some "ObjectExpression"
  | objectPattern => some "ObjectPattern"
  | optionalChainingExpression => some "OptionalChainingExpression"
  | parameter => some "Parameter"
  | parenthesisExpression => some "ParenthesisExpression"
  | privateMethod => some "PrivateMethod"
  | privateProperty => some "PrivateProperty"
  | regExpLiteral => some "RegExpLiteral"
  | restElement => some "RestElement"
  | returnStatement => some "ReturnStatement"
  | sequenceExpression => some "SequenceExpression"
  | setterProperty => some "SetterProperty"
  | spreadElement => some "SpreadElement"
  | staticBlock => some "StaticBlock"
  | stringLiteral => some "StringLiteral"
  | superPropExpression => some "SuperPropExpression"
  | switchCase => some "SwitchCase"
  | switchStatement => some "SwitchStatement"
  | taggedTemplateExpression => some "TaggedTemplateExpression"
  | templateElement => some "TemplateElement"
  | templateLiteral => some "TemplateLiteral"
  | thisExpression => some "ThisExpression"
  | throwStatement => some "ThrowStatement"
  | tryStatement => some "TryStatement"
  | tsArrayType => some "TsArrayType"
  | tsAsExpression => some "TsAsExpression"
  | tsConstAssertion => some "TsConstAssertion"
  | tsEnumDeclaration => some "TsEnumDeclaration"
  | tsEnumMember => some "TsEnumMember"
  | tsInterfaceBody => some "TsInterfaceBody"
  | tsInterfaceDeclaration => some "TsInterfaceDeclaration"
  | tsKeywordType => some "TsKeywordType"
  | tsModuleDeclaration => some "TsModuleDeclaration"
  | tsNonNullExpression => some "TsNonNullExpression"
  | tsPropertySignature => some "TsPropertySignature"
  | tsSatisfiesExpression => some "TsSatisfiesExpression"
  | tsTypeAliasDeclaration => some "TsTypeAliasDeclaration"
  | tsAscription => some "TsTypeAnnotation"
  | tsTypeAssertion => some "TsTypeAssertion"
  | tsTypeLiteral => some "TsTypeLiteral"
  | tsTypeReference => some "TsTypeReference"
  | unaryExpression => some "UnaryExpression"
  | updateExpression => some "UpdateExpression"
  | variableDeclaration => some "VariableDeclaration"
  | variableDeclarator => some "VariableDeclarator"
  | whileStatement => some "WhileStatement"
  | withStatement => some "WithStatement"
  | yieldExpression => some "YieldExpression"
  | other tag => some tag

/-- The kinds that are recognised by their tag alone. -/
def tagged : List Kind := [
    arrayExpression, arrayPattern, arrowFunctionExpression, assignmentExpression,
    assignmentPattern, assignmentPatternProperty, assignmentProperty, awaitExpression,
    bigIntLiteral, binaryExpression, blockStatement, booleanLiteral, breakStatement,
    callExpression, catchClause, classDeclaration, classExpression, classMethod, classProperty,
    computed, conditionalExpression, constructor, continueStatement, doWhileStatement,
    emptyStatement, exportAllDeclaration, exportDeclaration, exportDefaultDeclaration,
    exportDefaultExpression, exportNamedDeclaration, exportNamespaceSpecifier, exportSpecifier,
    expressionStatement, forInStatement, forOfStatement, forStatement, functionDeclaration,
    functionExpression, getterProperty, ifStatement, importDeclaration, importDefaultSpecifier,
    importNamespaceSpecifier, importSpecifier, jsxAttribute, jsxClosingElement,
    jsxClosingFragment, jsxElement, jsxEmptyExpression, jsxExpressionContainer, jsxFragment,
    jsxMemberExpression, jsxNamespacedName, jsxOpeningElement, jsxOpeningFragment,
    jsxSpreadChild, jsxText, keyValuePatternProperty, keyValueProperty, labeledStatement,
    memberExpression, metaProperty, methodProperty, newExpression, nullLiteral, numericLiteral,
    objectExpression, objectPattern, optionalChainingExpression, parameter,
    parenthesisExpression, privateMethod, privateProperty, regExpLiteral, restElement,
    returnStatement, sequenceExpression, setterProperty, spreadElement, staticBlock,
    stringLiteral, superPropExpression, switchCase, switchStatement, taggedTemplateExpression,
    templateElement, templateLiteral, thisExpression, throwStatement, tryStatement,
    tsArrayType, tsAsExpression, tsConstAssertion, tsEnumDeclaration, tsEnumMember,
    tsInterfaceBody, tsInterfaceDeclaration, tsKeywordType, tsModuleDeclaration,
    tsNonNullExpression, tsPropertySignature, tsSatisfiesExpression, tsTypeAliasDeclaration,
    tsAscription, tsTypeAssertion, tsTypeLiteral, tsTypeReference, unaryExpression,
    updateExpression, variableDeclaration, variableDeclarator, whileStatement, withStatement,
    yieldExpression]

/-- The kind a tag stands for where the surroundings say nothing more. -/
def ofTag (tag : String) : Kind :=
  (tagged.find? fun kind => kind.tag? = some tag).getD (other tag)

/-- The parts of a node that hold nodes, in visiting order. -/
def layout : Kind → List Field
  | binding => [.ascription]
  | argument => [.expression]
  | function => [.params, .decorators, .body, .typeParameters, .returnType]
  | optionalCall => [.callee, .arguments, .typeArguments]
  | arrayExpression => [.elements]
  | arrayPattern => [.elements, .ascription]
  | arrowFunctionExpression => [.params, .body, .typeParameters, .returnType]
  | assignmentExpression | assignmentPattern | binaryExpression => [.left, .right]
  | assignmentPatternProperty | assignmentProperty | keyValuePatternProperty | keyValueProperty =>
    [.key, .value]
  | awaitExpression | returnStatement | throwStatement | unaryExpression | updateExpression
  | yieldExpression => [.argument]
  | blockStatement => [.stmts]
  | breakStatement | continueStatement => [.label]
  | callExpression | newExpression => [.callee, .arguments, .typeArguments]
  | catchClause => [.param, .body]
  | classDeclaration | classExpression =>
    [.identifier, .decorators, .body, .superClass, .typeParams, .superTypeParams, .implements]
  | classMethod | privateMethod => [.key, .function]
  | classProperty | privateProperty => [.key, .value, .ascription, .decorators]
  | computed | exportDefaultExpression | expressionStatement | jsxExpressionContainer
  | jsxSpreadChild | parenthesisExpression | tsConstAssertion | tsNonNullExpression =>
    [.expression]
  | conditionalExpression | ifStatement => [.test, .consequent, .alternate]
  | constructor => [.key, .params, .body]
  | doWhileStatement | whileStatement => [.test, .body]
  | exportAllDeclaration => [.source, .withClause]
  | exportDeclaration => [.declaration]
  | exportDefaultDeclaration => [.decl]
  | exportNamedDeclaration | importDeclaration => [.specifiers, .source, .withClause]
  | exportNamespaceSpecifier | jsxClosingElement => [.name]
  | exportSpecifier => [.orig, .exported]
  | forInStatement | forOfStatement => [.left, .right, .body]
  | forStatement => [.initializer, .test, .update, .body]
  | functionDeclaration | functionExpression =>
    [.identifier, .params, .decorators, .body, .typeParameters, .returnType]
  | getterProperty => [.key, .ascription, .body]
  | importDefaultSpecifier | importNamespaceSpecifier => [.localName]
  | importSpecifier => [.localName, .imported]
  | jsxAttribute => [.name, .value]
  | jsxElement | jsxFragment => [.opening, .children, .closing]
  | jsxMemberExpression | memberExpression => [.object, .property]
  | jsxNamespacedName => [.namespacePart, .name]
  | jsxOpeningElement => [.name, .attributes, .typeArguments]
  | labeledStatement => [.label, .body]
  | methodProperty => [.key, .params, .decorators, .body, .typeParameters, .returnType]
  | objectExpression => [.properties]
  | objectPattern => [.properties, .ascription]
  | optionalChainingExpression => [.base]
  | parameter => [.decorators, .pat]
  | restElement => [.argument, .ascription]
  | sequenceExpression => [.expressions]
  | setterProperty => [.key, .param, .body]
  | spreadElement => [.arguments]
  | staticBlock | tsInterfaceBody => [.body]
  | superPropExpression => [.obj, .property]
  | switchCase => [.test, .consequent]
  | switchStatement => [.discriminant, .cases]
  | taggedTemplateExpression => [.tag, .typeParameters, .template]
  | templateLiteral => [.expressions, .quasis]
  | tryStatement => [.block, .handler, .finalizer]
  | tsArrayType => [.elemType]
  | tsAsExpression | tsSatisfiesExpression | tsTypeAssertion => [.expression, .ascription]
  | tsEnumDeclaration => [.id, .members]
  | tsEnumMember | variableDeclarator => [.id, .initializer]
  | tsInterfaceDeclaration => [.id, .typeParams, .extendsClause, .body]
  | tsModuleDeclaration => [.id, .body]
  | tsPropertySignature => [.key, .ascription]
  | tsTypeAliasDeclaration => [.id, .typeParams, .ascription]
  | tsAscription => [.ascription]
  | tsTypeLiteral => [.members]
  | tsTypeReference => [.typeName, .typeParams]
  | variableDeclaration => [.declarations]
  | withStatement => [.object, .body]
  | _ => []

end Kind

namespace Field

/-- The key of a part outside the library. -/
def toKey : Field → String
  | elements => "elements"
  | ascription => "typeAnnotation"
  | params => "params"
  | body => "body"
  | typeParameters => "typeParameters"
  | returnType => "returnType"
  | left => "left"
  | right => "right"
  | key => "key"
  | value => "value"
  | argument => "argument"
  | stmts => "stmts"
  | label => "label"
  | callee => "callee"
  | arguments => "arguments"
  | typeArguments => "typeArguments"
  | param => "param"
  | identifier => "identifier"
  | decorators => "decorators"
  | superClass => "superClass"
  | typeParams => "typeParams"
  | superTypeParams => "superTypeParams"
  | implements => "implements"
  | function => "function"
  | expression => "expression"
  | test => "test"
  | consequent => "consequent"
  | alternate => "alternate"
  | source => "source"
  | withClause => "with"
  | declaration => "declaration"
  | decl => "decl"
  | specifiers => "specifiers"
  | name => "name"
  | orig => "orig"
  | exported => "exported"
  | initializer => "init"
  | update => "update"
  | localName => "local"
  | imported => "imported"
  | opening => "opening"
  | children => "children"
  | closing => "closing"
  | object => "object"
  | property => "property"
  | namespacePart => "namespace"
  | attributes => "attributes"
  | properties => "properties"
  | base => "base"
  | pat => "pat"
  | expressions => "expressions"
  | obj => "obj"
  | discriminant => "discriminant"
  | cases => "cases"
  | tag => "tag"
  | template => "template"
  | quasis => "quasis"
  | block => "block"
  | handler => "handler"
  | finalizer => "finalizer"
  | elemType => "elemType"
  | id => "id"
  | members => "members"
  | extendsClause => "extends"
  | typeName => "typeName"
  | declarations => "declarations"
  | operator => "operator"
  | kind => "kind"
  | raw => "raw"
  | cooked => "cooked"
  | spread => "spread"
  | optional => "optional"
  | selfClosing => "selfClosing"
  | phase => "phase"
  | async => "async"
  | generator => "generator"
  | typeOnly => "typeOnly"
  | span => "span"
  | start => "start"
  | stop => "end"
  | leading => "leading"
  | trailing => "trailing"
  | other text => text

/-- The parts with a name of their own. -/
def named : List Field := [
    elements, ascription, params, body, typeParameters, returnType, left, right, key, value,
    argument, stmts, label, callee, arguments, typeArguments, param, identifier, decorators,
    superClass, typeParams, superTypeParams, implements, function, expression, test,
    consequent, alternate, source, withClause, declaration, decl, specifiers, name, orig,
    exported, initializer, update, localName, imported, opening, children, closing, object,
    property, namespacePart, attributes, properties, base, pat, expressions, obj, discriminant,
    cases, tag, template, quasis, block, handler, finalizer, elemType, id, members,
    extendsClause, typeName, declarations, operator, kind, raw, cooked, spread, optional,
    selfClosing, phase, async, generator, typeOnly, span, start, stop, leading, trailing]

/-- The part a key stands for. -/
def ofKey (text : String) : Field :=
  (named.find? fun field => field.toKey = text).getD (other text)

end Field

end JsxTracking
