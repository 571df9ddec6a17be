/-!
# Kinds of syntax nodes

The named nodes of a script's tree, with and without types. `Kind.name` is the name by which a
dump of a tree and the messages of the evaluator call a kind.
-/

namespace OptionTypes.Syntax

/-- The kind of a named node. -/
inductive Kind where
  | program | comment | hashBangLine | exportStatement | exportClause | exportSpecifier
  | namespaceExport | importStatement | importClause | importSpecifier | importAttribute
  | importAlias | importRequireClause | namedImports | namespaceImport | debuggerStatement
  | expressionStatement | variableDeclaration | lexicalDeclaration | variableDeclarator
  | statementBlock | ifStatement | elseClause | switchStatement | switchBody | switchCase
  | switchDefault | forStatement | forInStatement | whileStatement | doStatement | tryStatement
  | catchClause | finallyClause | withStatement | breakStatement | continueStatement
  | returnStatement | throwStatement | emptyStatement | labeledStatement | statementIdentifier
  | functionDeclaration | generatorFunctionDeclaration | classDeclaration | classBody
  | classHeritage | classStaticBlock | fieldDefinition | methodDefinition | decorator
  | formalParameters | identifier | propertyIdentifier | privatePropertyIdentifier
  | shorthandPropertyIdentifier | shorthandPropertyIdentifierPattern | number | string
  | stringFragment | escapeSequence | templateString | templateSubstitution | regex
  | regexPattern | regexFlags | object | pair | spreadElement | computedPropertyName | array
  | objectPattern | pairPattern | objectAssignmentPattern | arrayPattern | assignmentPattern
  | restPattern | parenthesizedExpression | sequenceExpression | assignmentExpression
  | augmentedAssignmentExpression | ternaryExpression | binaryExpression | unaryExpression
  | updateExpression | awaitExpression | yieldExpression | newExpression | callExpression
  | arguments | memberExpression | subscriptExpression | optionalChain | metaProperty
  | arrowFunction | functionExpression | generatorFunction | jsxElement | jsxOpeningElement
  | jsxClosingElement | jsxSelfClosingElement | jsxAttribute | jsxNamespaceName | jsxExpression
  | jsxText | htmlCharacterReference | typeClause | assertsClause | predicateClause
  | typeParameters | typeArguments | typeAliasDeclaration | interfaceDeclaration
  | ambientDeclaration | implementsClause | extendsClause | accessibilityModifier
  | overrideModifier | requiredParameter | optionalParameter | publicFieldDefinition
  | abstractClassDeclaration | abstractMethodSignature | methodSignature | functionSignature
  | indexSignature | enumDeclaration | enumBody | enumAssignment | moduleDeclaration
  | internalModule | nestedIdentifier | asExpression | satisfiesExpression | nonNullExpression
  | instantiationExpression | typeAssertion | typeIdentifier | typeExpression | thisExpression
  | superExpression | importCallee | classExpression | trueLiteral | falseLiteral | nullLiteral
  | undefinedLiteral
  deriving DecidableEq

namespace Kind

/-- The name of a kind. -/
def name : Kind → String
  | program => "program"
  | comment => "comment"
  | hashBangLine => "hash_bang_line"
  | exportStatement => "export_statement"
  | exportClause => "export_clause"
  | exportSpecifier => "export_specifier"
  | namespaceExport => "namespace_export"
  | importStatement => "import_statement"
  | importClause => "import_clause"
  | importSpecifier => "import_specifier"
  | importAttribute => "import_attribute"
  | importAlias => "import_alias"
  | importRequireClause => "import_require_clause"
  | namedImports => "named_imports"
  | namespaceImport => "namespace_import"
  | debuggerStatement => "debugger_statement"
  | expressionStatement => "expression_statement"
  | variableDeclaration => "variable_declaration"
  | lexicalDeclaration => "lexical_declaration"
  | variableDeclarator => "variable_declarator"
  | statementBlock => "statement_block"
  | ifStatement => "if_statement"
  | elseClause => "else_clause"
  | switchStatement => "switch_statement"
  | switchBody => "switch_body"
  | switchCase => "switch_case"
  | switchDefault => "switch_default"
  | forStatement => "for_statement"
  | forInStatement => "for_in_statement"
  | whileStatement => "while_statement"
  | doStatement => "do_statement"
  | tryStatement => "try_statement"
  | catchClause => "catch_clause"
  | finallyClause => "finally_clause"
  | withStatement => "with_statement"
  | breakStatement => "break_statement"
  | continueStatement => "continue_statement"
  | returnStatement => "return_statement"
  | throwStatement => "throw_statement"
  | emptyStatement => "empty_statement"
  | labeledStatement => "labeled_statement"
  | statementIdentifier => "statement_identifier"
  | functionDeclaration => "function_declaration"
  | generatorFunctionDeclaration => "generator_function_declaration"
  | classDeclaration => "class_declaration"
  | classBody => "class_body"
  | classHeritage => "class_heritage"
  | classStaticBlock => "class_static_block"
  | fieldDefinition => "field_definition"
  | methodDefinition => "method_definition"
  | decorator => "decorator"
  | formalParameters => "formal_parameters"
  | identifier => "identifier"
  | propertyIdentifier => "property_identifier"
  | privatePropertyIdentifier => "private_property_identifier"
  | shorthandPropertyIdentifier => "shorthand_property_identifier"
  | shorthandPropertyIdentifierPattern => "shorthand_property_identifier_pattern"
  | number => "number"
  | string => "string"
  | stringFragment => "string_fragment"
  | escapeSequence => "escape_sequence"
  | templateString => "template_string"
  | templateSubstitution => "template_substitution"
  | regex => "regex"
  | regexPattern => "regex_pattern"
  | regexFlags => "regex_flags"
  | object => "object"
  | pair => "pair"
  | spreadElement => "spread_element"
  | computedPropertyName => "computed_property_name"
  | array => "array"
  | objectPattern => "object_pattern"
  | pairPattern => "pair_pattern"
  | objectAssignmentPattern => "object_assignment_pattern"
  | arrayPattern => "array_pattern"
  | assignmentPattern => "assignment_pattern"
  | restPattern => "rest_pattern"
  | parenthesizedExpression => "parenthesized_expression"
  | sequenceExpression => "sequence_expression"
  | assignmentExpression => "assignment_expression"
  | augmentedAssignmentExpression => "augmented_assignment_expression"
  | ternaryExpression => "ternary_expression"
  | binaryExpression => "binary_expression"
  | unaryExpression => "unary_expression"
  | updateExpression => "update_expression"
  | awaitExpression => "await_expression"
  | yieldExpression => "yield_expression"
  | newExpression => "new_expression"
  | callExpression => "call_expression"
  | arguments => "arguments"
  | memberExpression => "member_expression"
  | subscriptExpression => "subscript_expression"
  | optionalChain => "optional_chain"
  | metaProperty => "meta_property"
  | arrowFunction => "arrow_function"
  | functionExpression => "function_expression"
  | generatorFunction => "generator_function"
  | jsxElement => "jsx_element"
  | jsxOpeningElement => "jsx_opening_element"
  | jsxClosingElement => "jsx_closing_element"
  | jsxSelfClosingElement => "jsx_self_closing_element"
  | jsxAttribute => "jsx_attribute"
  | jsxNamespaceName => "jsx_namespace_name"
  | jsxExpression => "jsx_expression"
  | jsxText => "jsx_text"
  | htmlCharacterReference => "html_character_reference"
  | typeClause => "type_annotation"
  | assertsClause => "asserts_annotation"
  | predicateClause => "type_predicate_annotation"
  | typeParameters => "type_parameters"
  | typeArguments => "type_arguments"
  | typeAliasDeclaration => "type_alias_declaration"
  | interfaceDeclaration => "interface_declaration"
  | ambientDeclaration => "ambient_declaration"
  | implementsClause => "implements_clause"
  | extendsClause => "extends_clause"
  | accessibilityModifier => "accessibility_modifier"
  | overrideModifier => "override_modifier"
  | requiredParameter => "required_parameter"
  | optionalParameter => "optional_parameter"
  | publicFieldDefinition => "public_field_definition"
  | abstractClassDeclaration => "abstract_class_declaration"
  | abstractMethodSignature => "abstract_method_signature"
  | methodSignature => "method_signature"
  | functionSignature => "function_signature"
  | indexSignature => "index_signature"
  | enumDeclaration => "enum_declaration"
  | enumBody => "enum_body"
  | enumAssignment => "enum_assignment"
  | moduleDeclaration => "module"
  | internalModule => "internal_module"
  | nestedIdentifier => "nested_identifier"
  | asExpression => "as_expression"
  | satisfiesExpression => "satisfies_expression"
  | nonNullExpression => "non_null_expression"
  | instantiationExpression => "instantiation_expression"
  | typeAssertion => "type_assertion"
  | typeIdentifier => "type_identifier"
  | typeExpression => "type"
  | thisExpression => "this"
  | superExpression => "super"
  | importCallee => "import"
  | classExpression => "class"
  | trueLiteral => "true"
  | falseLiteral => "false"
  | nullLiteral => "null"
  | undefinedLiteral => "undefined"

end Kind

/-- The part that a node plays in its parent. -/
inductive Field where
  | alternative | alternativeName | argument | arguments | body | callee | condition | consequence
  | constructed | declaration | decorator | finalizer | flags | handler | increment | index
  | initializer | key | kind | label | left | member | name | object | operator | optionalChain
  | parameter | parameters | pattern | property | returnType | right | source | type
  | typeArguments | typeParameters | value | jsxAttribute | openTag | closeTag
  deriving DecidableEq

namespace Field

/-- The name by which a dump calls a field. -/
def word : Field → String
  | alternative => "alternative"
  | alternativeName => "alias"
  | argument => "argument"
  | arguments => "arguments"
  | body => "body"
  | callee => "function"
  | condition => "condition"
  | consequence => "consequence"
  | constructed => "constructor"
  | declaration => "declaration"
  | decorator => "decorator"
  | finalizer => "finalizer"
  | flags => "flags"
  | handler => "handler"
  | increment => "increment"
  | index => "index"
  | initializer => "initializer"
  | key => "key"
  | kind => "kind"
  | label => "label"
  | left => "left"
  | member => "member"
  | name => "name"
  | object => "object"
  | operator => "operator"
  | optionalChain => "optional_chain"
  | parameter => "parameter"
  | parameters => "parameters"
  | pattern => "pattern"
  | property => "property"
  | returnType => "return_type"
  | right => "right"
  | source => "source"
  | type => "type"
  | typeArguments => "type_arguments"
  | typeParameters => "type_parameters"
  | value => "value"
  | jsxAttribute => "attribute"
  | openTag => "open_tag"
  | closeTag => "close_tag"

end Field

end OptionTypes.Syntax
