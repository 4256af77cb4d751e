import SolidityAudit.Solidity.Token

/-!
# The grammar of Solidity sources

One category for each kind of phrase, and one rule for each category. Repetition is the rule of a
category of its own. Chains of operators are flat: an expression is a sequence of operands with
infix operators between them, and an operand is a base with prefix operators before it and
suffixes after it.

The order of alternatives is the order of preference, and an optional part is present if possible.
`Category.everyCategory` lists the categories so that a rule begins only with categories that come
later in the list; no rule begins with its own category.
-/

namespace SolidityAudit.Solidity

/-- The kinds of phrases. -/
inductive Category
  -- the file
  | sourceItems | sourceItem
  | pragmaDirective | pragmaValue | version | moreConstraints | moreConstraint | versionConstraint
  | importDirective | moreImports | moreImport | importDeclaration | importPath
  | contractDefinition | moreInheritance | moreInherited | inheritanceSpecifier
  -- declarations
  | contractParts | contractPart
  | stateVariableDeclaration | stateVariableMarks | stateVariableMark
  | fileLevelConstant | customErrorDefinition | typeDefinition | usingForDeclaration
  | structDefinition | structMembers | structMember
  | modifierDefinition | modifierMarks | modifierMark
  | functionDefinition | functionDescriptor | returnParameters
  | modifierList | functionMark | modifierInvocation
  | eventDefinition | enumDefinition | moreEnumValues | moreEnumValue | enumValue
  | parameterList | moreParameters | moreParameter | parameter
  | eventParameterList | moreEventParameters | moreEventParameter | eventParameter
  | variableDeclarationStatement
  | variableDeclarationList | moreDeclarations | moreDeclaration | variableDeclaration
  | identifierList | identifierSlots | identifierSlot
  -- statements
  | statements | statement
  | ifStatement | tryStatement | moreCatches | catchClause | whileStatement
  | forStatement | forInit | forCondition | simpleStatement | expressionStatement
  | uncheckedStatement | inlineAssemblyStatement | doWhileStatement
  | continueStatement | breakStatement | returnStatement | throwStatement
  | emitStatement | revertStatement | functionCall | block
  -- expressions
  | expressionList | moreExpressions | moreExpression
  | expression | infixOperands | infixOperand | infixOperator
  | operand | prefixOperators | prefixOperator
  | suffixes | suffix | index | slice | callOptions | call
  | functionCallArguments | nameValueList | moreNameValues | moreNameValue | nameValue
  | base | newExpression | tupleExpression | moreSlots | moreSlot
  -- types
  | typeName | arraySuffixes | arraySuffix | mapping
  | functionTypeName | functionTypeMarks | functionTypeMark
  | functionTypeParameterList | moreTypeParameters | moreTypeParameter | functionTypeParameter
  | overrideSpecifier | moreOverrides | moreOverride
  | storageLocation | stateMutability | elementaryTypeName
  | userDefinedTypeName | moreNames | moreName
  -- assembly
  | assemblyItems | assemblyItem | assemblyBlock
  | assemblyLocalDefinition | assemblyAssignment | assemblyStackAssignment | labelDefinition
  | assemblySwitch | assemblyCases | assemblyCase | assemblyFunctionDefinition
  | assemblyFunctionReturns | assemblyFor | assemblyIf | subAssembly
  | assemblyExpression | assemblyMember | assemblyCall | assemblyArguments | assemblyArgument
  | assemblyLiteral | assemblyIdentifierOrList | assemblyIdentifierList
  | moreAssemblyIdentifiers | moreAssemblyIdentifier
  -- words and literals
  | identifier | numberLiteral
  | hexLiteral | hexFragments | hexFragment | stringLiteral | stringFragments | stringFragment
deriving DecidableEq, Repr

/-- What a rule asks of one token. -/
inductive Terminal
  /-- the literal with this text -/
  | word (text : String)
  /-- any token of this kind -/
  | kind (k : TokenKind)
deriving DecidableEq, Repr

/-- Whether a token is of the asked sort. -/
def Terminal.accepts : Terminal → Token → Bool
  | word text, t => t.kind = .literal && t.text = text
  | kind k, t => t.kind = k

/-- The right side of a rule. -/
inductive Form
  | nothing
  | token (t : Terminal)
  | part (c : Category)
  | both (first second : Form)
  | either (first second : Form)
deriving Repr

/-- A rule: a form, or any number of phrases of one category. -/
inductive Rule
  | form (f : Form)
  | repeated (c : Category)
deriving Repr

namespace Form

instance : Coe String Form := ⟨fun s => .token (.word s)⟩

instance : Coe TokenKind Form := ⟨fun k => .token (.kind k)⟩

instance : Coe Category Form := ⟨.part⟩

/-- One form after the other. -/
def all : List Form → Form
  | [] => nothing
  | [f] => f
  | f :: rest => both f (all rest)

/-- One of the forms, earlier ones preferred. -/
def any : List Form → Form
  | [] => nothing
  | [f] => f
  | f :: rest => either f (any rest)

/-- The form, or nothing. -/
def opt (f : Form) : Form := either f nothing

/-- One of the words. -/
def words (texts : List String) : Form :=
  any (texts.map fun s => .token (.word s))

end Form

open Form Category

namespace Category

/-- The rule of a category. -/
def rule : Category → Rule
  -- the file
  | sourceItems => .repeated sourceItem
  | sourceItem =>
    .form <| any [pragmaDirective, importDirective, contractDefinition, enumDefinition,
      structDefinition, functionDefinition, fileLevelConstant, customErrorDefinition,
      typeDefinition]
  | pragmaDirective => .form <| all ["pragma", identifier, pragmaValue, ";"]
  | pragmaValue => .form <| any [version, expression]
  | version => .form <| all [versionConstraint, moreConstraints]
  | moreConstraints => .repeated moreConstraint
  | moreConstraint => .form <| all [opt "||", versionConstraint]
  | versionConstraint =>
    .form <| all [opt (words ["^", "~", ">=", ">", "<", "<=", "="]),
      any [TokenKind.version, TokenKind.decimalNumber]]
  | importDirective =>
    .form <| any [
      all ["import", importPath, opt (all ["as", identifier]), ";"],
      all ["import", any ["*", identifier], opt (all ["as", identifier]), "from", importPath, ";"],
      all ["import", "\x7b", importDeclaration, moreImports, "\x7d", "from", importPath, ";"]]
  | moreImports => .repeated moreImport
  | moreImport => .form <| all [",", importDeclaration]
  | importDeclaration => .form <| all [identifier, opt (all ["as", identifier])]
  | importPath => .form TokenKind.string
  | contractDefinition =>
    .form <| all [opt "abstract", words ["contract", "interface", "library"], identifier,
      opt (all ["is", inheritanceSpecifier, moreInheritance]), "\x7b", contractParts, "\x7d"]
  | moreInheritance => .repeated moreInherited
  | moreInherited => .form <| all [",", inheritanceSpecifier]
  | inheritanceSpecifier =>
    .form <| all [userDefinedTypeName, opt (all ["(", opt expressionList, ")"])]
  -- declarations
  | contractParts => .repeated contractPart
  | contractPart =>
    .form <| any [stateVariableDeclaration, usingForDeclaration, structDefinition,
      modifierDefinition, functionDefinition, eventDefinition, enumDefinition,
      customErrorDefinition, typeDefinition]
  | stateVariableDeclaration =>
    .form <| all [typeName, stateVariableMarks, identifier, opt (all ["=", expression]), ";"]
  | stateVariableMarks => .repeated stateVariableMark
  | stateVariableMark =>
    .form <| any [words ["public", "internal", "private", "constant", "immutable"],
      overrideSpecifier]
  | fileLevelConstant => .form <| all [typeName, "constant", identifier, "=", expression, ";"]
  | customErrorDefinition => .form <| all ["error", identifier, parameterList, ";"]
  | typeDefinition => .form <| all ["type", identifier, "is", elementaryTypeName, ";"]
  | usingForDeclaration => .form <| all ["using", identifier, "for", any ["*", typeName], ";"]
  | structDefinition => .form <| all ["struct", identifier, "\x7b", structMembers, "\x7d"]
  | structMembers => .repeated structMember
  | structMember => .form <| all [variableDeclaration, ";"]
  | modifierDefinition =>
    .form <| all ["modifier", identifier, opt parameterList, modifierMarks, any [";", block]]
  | modifierMarks => .repeated modifierMark
  | modifierMark => .form <| any ["virtual", overrideSpecifier]
  | functionDefinition =>
    .form <| all [functionDescriptor, parameterList, modifierList, opt returnParameters,
      any [";", block]]
  | functionDescriptor =>
    .form <| any [all ["function", opt identifier], words ["constructor", "fallback", "receive"]]
  | returnParameters => .form <| all ["returns", parameterList]
  | modifierList => .repeated functionMark
  | functionMark =>
    .form <| any [words ["external", "public", "internal", "private", "virtual"], stateMutability,
      modifierInvocation, overrideSpecifier]
  | modifierInvocation => .form <| all [identifier, opt (all ["(", opt expressionList, ")"])]
  | eventDefinition =>
    .form <| all ["event", identifier, eventParameterList, opt "anonymous", ";"]
  | enumDefinition =>
    .form <| all ["enum", identifier, "\x7b", opt enumValue, moreEnumValues, "\x7d"]
  | moreEnumValues => .repeated moreEnumValue
  | moreEnumValue => .form <| all [",", enumValue]
  | enumValue => .form identifier
  | parameterList => .form <| all ["(", opt (all [parameter, moreParameters]), ")"]
  | moreParameters => .repeated moreParameter
  | moreParameter => .form <| all [",", parameter]
  | parameter => .form <| all [typeName, opt storageLocation, opt identifier]
  | eventParameterList =>
    .form <| all ["(", opt (all [eventParameter, moreEventParameters]), ")"]
  | moreEventParameters => .repeated moreEventParameter
  | moreEventParameter => .form <| all [",", eventParameter]
  | eventParameter => .form <| all [typeName, opt "indexed", opt identifier]
  | variableDeclarationStatement =>
    .form <| all [
      any [all ["var", identifierList], variableDeclaration,
        all ["(", variableDeclarationList, ")"]],
      opt (all ["=", expression]), ";"]
  | variableDeclarationList => .form <| all [opt variableDeclaration, moreDeclarations]
  | moreDeclarations => .repeated moreDeclaration
  | moreDeclaration => .form <| all [",", opt variableDeclaration]
  | variableDeclaration => .form <| all [typeName, opt storageLocation, identifier]
  | identifierList => .form <| all ["(", identifierSlots, opt identifier, ")"]
  | identifierSlots => .repeated identifierSlot
  | identifierSlot => .form <| all [opt identifier, ","]
  -- statements
  | statements => .repeated statement
  | statement =>
    .form <| any [ifStatement, tryStatement, whileStatement, forStatement, block,
      inlineAssemblyStatement, doWhileStatement, continueStatement, breakStatement,
      returnStatement, throwStatement, emitStatement, simpleStatement, uncheckedStatement,
      revertStatement]
  | ifStatement =>
    .form <| all ["if", "(", expression, ")", statement, opt (all ["else", statement])]
  | tryStatement =>
    .form <| all ["try", expression, opt returnParameters, block, catchClause, moreCatches]
  | moreCatches => .repeated catchClause
  | catchClause => .form <| all ["catch", opt (all [opt identifier, parameterList]), block]
  | whileStatement => .form <| all ["while", "(", expression, ")", statement]
  | forStatement =>
    .form <| all ["for", "(", forInit, forCondition, opt expression, ")", statement]
  | forInit => .form <| any [simpleStatement, ";"]
  | forCondition => .form <| any [expressionStatement, ";"]
  | simpleStatement => .form <| any [variableDeclarationStatement, expressionStatement]
  | expressionStatement => .form <| all [expression, ";"]
  | uncheckedStatement => .form <| all ["unchecked", block]
  | inlineAssemblyStatement =>
    .form <| all ["assembly", opt TokenKind.string, assemblyBlock]
  | doWhileStatement => .form <| all ["do", statement, "while", "(", expression, ")", ";"]
  | continueStatement => .form <| all ["continue", ";"]
  | breakStatement => .form <| all ["break", ";"]
  | returnStatement => .form <| all ["return", opt expression, ";"]
  | throwStatement => .form <| all ["throw", ";"]
  | emitStatement => .form <| all ["emit", functionCall, ";"]
  | revertStatement => .form <| all ["revert", functionCall, ";"]
  | functionCall => .form <| all [expression, call]
  | block => .form <| all ["\x7b", statements, "\x7d"]
  -- expressions
  | expressionList => .form <| all [expression, moreExpressions]
  | moreExpressions => .repeated moreExpression
  | moreExpression => .form <| all [",", expression]
  | expression => .form <| all [operand, infixOperands]
  | infixOperands => .repeated infixOperand
  | infixOperand => .form <| all [infixOperator, operand]
  | infixOperator =>
    .form <| any [
      words ["**", "*", "/", "%", "+", "-", "<<", ">>", "&", "^", "|", ">=", ">", "<", "<=", "==",
        "!=", "&&", "||"],
      all ["?", expression, ":"],
      words ["=", "|=", "^=", "&=", "<<=", ">>=", "+=", "-=", "*=", "/=", "%="]]
  | operand => .form <| all [prefixOperators, base, suffixes]
  | prefixOperators => .repeated prefixOperator
  | prefixOperator => .form <| words ["++", "--", "+", "-", "after", "delete", "!", "~"]
  | suffixes => .repeated suffix
  | suffix =>
    .form <| any [words ["++", "--"], index, slice, all [".", identifier], callOptions, call]
  | index => .form <| all ["[", expression, "]"]
  | slice => .form <| all ["[", opt expression, ":", opt expression, "]"]
  | callOptions => .form <| all ["\x7b", nameValueList, "\x7d"]
  | call => .form <| all ["(", functionCallArguments, ")"]
  | functionCallArguments =>
    .form <| any [all ["\x7b", opt nameValueList, "\x7d"], opt expressionList]
  | nameValueList => .form <| all [nameValue, moreNameValues, opt ","]
  | moreNameValues => .repeated moreNameValue
  | moreNameValue => .form <| all [",", nameValue]
  | nameValue => .form <| all [identifier, ":", expression]
  | base =>
    .form <| any [newExpression, TokenKind.boolean, numberLiteral, hexLiteral, stringLiteral,
      all [userDefinedTypeName, "[", "]"], identifier, "type", tupleExpression,
      all [elementaryTypeName, opt (all ["[", "]"])]]
  | newExpression => .form <| all ["new", typeName]
  | tupleExpression =>
    .form <| any [all ["(", opt expression, moreSlots, ")"], all ["[", opt expressionList, "]"]]
  | moreSlots => .repeated moreSlot
  | moreSlot => .form <| all [",", opt expression]
  -- types
  | typeName =>
    .form <| all [
      any [elementaryTypeName, userDefinedTypeName, mapping, functionTypeName,
        all ["address", "payable"]],
      arraySuffixes]
  | arraySuffixes => .repeated arraySuffix
  | arraySuffix => .form <| all ["[", opt expression, "]"]
  | mapping =>
    .form <| all ["mapping", "(", any [elementaryTypeName, userDefinedTypeName], "=>", typeName,
      ")"]
  | functionTypeName =>
    .form <| all ["function", functionTypeParameterList, functionTypeMarks,
      opt (all ["returns", functionTypeParameterList])]
  | functionTypeMarks => .repeated functionTypeMark
  | functionTypeMark => .form <| any [words ["internal", "external"], stateMutability]
  | functionTypeParameterList =>
    .form <| all ["(", opt (all [functionTypeParameter, moreTypeParameters]), ")"]
  | moreTypeParameters => .repeated moreTypeParameter
  | moreTypeParameter => .form <| all [",", functionTypeParameter]
  | functionTypeParameter => .form <| all [typeName, opt storageLocation]
  | overrideSpecifier =>
    .form <| all ["override", opt (all ["(", userDefinedTypeName, moreOverrides, ")"])]
  | moreOverrides => .repeated moreOverride
  | moreOverride => .form <| all [",", userDefinedTypeName]
  | storageLocation => .form <| words ["memory", "storage", "calldata"]
  | stateMutability => .form <| words ["constant", "payable", "pure", "view"]
  | elementaryTypeName =>
    .form <| any [words ["address", "var", "bool", "string", "byte"], TokenKind.intType,
      TokenKind.uintType, TokenKind.bytesType, TokenKind.fixedType, TokenKind.ufixedType]
  | userDefinedTypeName => .form <| all [identifier, moreNames]
  | moreNames => .repeated moreName
  | moreName => .form <| all [".", identifier]
  -- assembly
  | assemblyItems => .repeated assemblyItem
  | assemblyItem =>
    .form <| any [identifier, assemblyBlock, assemblyExpression, assemblyLocalDefinition,
      assemblyAssignment, assemblyStackAssignment, labelDefinition, assemblySwitch,
      assemblyFunctionDefinition, assemblyFor, assemblyIf, words ["break", "continue", "leave"],
      subAssembly, numberLiteral, stringLiteral, hexLiteral]
  | assemblyBlock => .form <| all ["\x7b", assemblyItems, "\x7d"]
  | assemblyLocalDefinition =>
    .form <| all ["let", assemblyIdentifierOrList, opt (all [":=", assemblyExpression])]
  | assemblyAssignment => .form <| all [assemblyIdentifierOrList, ":=", assemblyExpression]
  | assemblyStackAssignment => .form <| all ["=:", identifier]
  | labelDefinition => .form <| all [identifier, ":"]
  | assemblySwitch => .form <| all ["switch", assemblyExpression, assemblyCases]
  | assemblyCases => .repeated assemblyCase
  | assemblyCase =>
    .form <| any [all ["case", assemblyLiteral, assemblyBlock], all ["default", assemblyBlock]]
  | assemblyFunctionDefinition =>
    .form <| all ["function", identifier, "(", opt assemblyIdentifierList, ")",
      opt assemblyFunctionReturns, assemblyBlock]
  | assemblyFunctionReturns => .form <| all ["->", assemblyIdentifierList]
  | assemblyFor =>
    .form <| all ["for", any [assemblyBlock, assemblyExpression], assemblyExpression,
      any [assemblyBlock, assemblyExpression], assemblyBlock]
  | assemblyIf => .form <| all ["if", assemblyExpression, assemblyBlock]
  | subAssembly => .form <| all ["assembly", identifier, assemblyBlock]
  | assemblyExpression => .form <| any [assemblyCall, assemblyLiteral, assemblyMember]
  | assemblyMember => .form <| all [identifier, ".", identifier]
  | assemblyCall =>
    .form <| all [any [words ["return", "address", "byte"], identifier],
      opt (all ["(", opt assemblyExpression, assemblyArguments, ")"])]
  | assemblyArguments => .repeated assemblyArgument
  | assemblyArgument => .form <| all [",", assemblyExpression]
  | assemblyLiteral =>
    .form <| any [stringLiteral, TokenKind.decimalNumber, TokenKind.hexNumber, hexLiteral]
  | assemblyIdentifierOrList =>
    .form <| any [identifier, assemblyMember, all ["(", assemblyIdentifierList, ")"]]
  | assemblyIdentifierList => .form <| all [identifier, moreAssemblyIdentifiers]
  | moreAssemblyIdentifiers => .repeated moreAssemblyIdentifier
  | moreAssemblyIdentifier => .form <| all [",", identifier]
  -- words and literals
  | identifier =>
    .form <| any [words ["from", "error", "calldata", "revert", "callback", "leave", "payable",
      "constructor", "receive"], TokenKind.identifier]
  | numberLiteral =>
    .form <| all [any [TokenKind.decimalNumber, TokenKind.hexNumber], opt TokenKind.numberUnit]
  | hexLiteral => .form <| all [hexFragment, hexFragments]
  | hexFragments => .repeated hexFragment
  | hexFragment => .form TokenKind.hexString
  | stringLiteral => .form <| all [stringFragment, stringFragments]
  | stringFragments => .repeated stringFragment
  | stringFragment => .form TokenKind.string

/-- All categories, each before those that its rule may begin with. -/
def everyCategory : List Category :=
  [sourceItems, sourceItem, pragmaDirective, pragmaValue, version, moreConstraints,
   moreConstraint, versionConstraint, importDirective, moreImports, moreImport,
   importDeclaration, importPath, contractDefinition, moreInheritance, moreInherited,
   inheritanceSpecifier, contractParts, contractPart, stateVariableDeclaration,
   stateVariableMarks, stateVariableMark, fileLevelConstant, customErrorDefinition,
   typeDefinition, usingForDeclaration, structDefinition, structMembers, structMember,
   modifierDefinition, modifierMarks, modifierMark, functionDefinition, functionDescriptor,
   returnParameters, modifierList, functionMark, modifierInvocation, eventDefinition,
   enumDefinition, moreEnumValues, moreEnumValue, enumValue, parameterList, moreParameters,
   moreParameter, parameter, eventParameterList, moreEventParameters, moreEventParameter,
   eventParameter, statements, statement, ifStatement, tryStatement, moreCatches, catchClause,
   whileStatement, forStatement, forInit, forCondition, simpleStatement,
   variableDeclarationStatement, variableDeclarationList, moreDeclarations, moreDeclaration,
   variableDeclaration, identifierList, identifierSlots, identifierSlot, expressionStatement,
   uncheckedStatement, inlineAssemblyStatement, doWhileStatement, continueStatement,
   breakStatement, returnStatement, throwStatement, emitStatement, revertStatement,
   functionCall, block, functionCallArguments, expressionList, moreExpressions, moreExpression,
   expression, infixOperands, infixOperand, infixOperator, operand, prefixOperators,
   prefixOperator, suffixes, suffix, index, slice, callOptions, call, nameValueList,
   moreNameValues, moreNameValue, nameValue, base, newExpression, tupleExpression, moreSlots,
   moreSlot, functionTypeParameter, typeName, arraySuffixes, arraySuffix, mapping,
   functionTypeName, functionTypeMarks, functionTypeMark, functionTypeParameterList,
   moreTypeParameters, moreTypeParameter, overrideSpecifier, moreOverrides, moreOverride,
   storageLocation, stateMutability, elementaryTypeName, userDefinedTypeName, moreNames,
   moreName, assemblyItems, assemblyItem, assemblyBlock, assemblyLocalDefinition,
   assemblyAssignment, assemblyStackAssignment, labelDefinition, assemblySwitch, assemblyCases,
   assemblyCase, assemblyFunctionDefinition, assemblyFunctionReturns, assemblyFor, assemblyIf,
   subAssembly, assemblyIdentifierOrList, assemblyExpression, assemblyMember, assemblyCall,
   assemblyArguments, assemblyArgument, assemblyLiteral, assemblyIdentifierList,
   moreAssemblyIdentifiers, moreAssemblyIdentifier, identifier, numberLiteral, hexLiteral,
   hexFragments, hexFragment, stringLiteral, stringFragments, stringFragment]

end Category

end SolidityAudit.Solidity
