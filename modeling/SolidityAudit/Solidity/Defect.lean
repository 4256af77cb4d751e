import SolidityAudit.Solidity.Tree

/-!
# Phrases without an outline

Some phrases of the grammar have no place in the outline of a file. A file that holds one has no
outline at all, and the phrase found first decides the message. The search goes through a phrase
in the order of its parts, with the exceptions listed in `searched`.
-/

namespace SolidityAudit.Solidity

/-- What is wrong with a phrase. -/
inductive Defect
  /-- call options, or a slice with a bound -/
  | expression
  /-- a member of a variable as a value in assembly -/
  | assemblyMember
  /-- a member as the target of an assignment in assembly, or an assembly function without
  parameters -/
  | assemblyTarget
  /-- an assembly function without results -/
  | assemblyResults
deriving DecidableEq, Repr

namespace Defect

/-- The wording of a defect. -/
def message : Defect → String
  | expression => "Exception: unrecognized expression"
  | assemblyMember => "AttributeError: 'list' object has no attribute 'getText'"
  | assemblyTarget => "AttributeError: 'NoneType' object has no attribute 'identifier'"
  | assemblyResults => "AttributeError: 'NoneType' object has no attribute 'assemblyIdentifierList'"

/-- What is wrong with a phrase itself, whatever its parts hold. -/
def own? (c : Category) (children : List Tree) : Option Defect :=
  let has (d : Category) : Bool := children.any (·.isA d)
  match c with
  | .callOptions => some expression
  | .slice => if has .expression then some expression else none
  | .assemblyMember => some assemblyMember
  | .assemblyIdentifierOrList => if has .assemblyMember then some assemblyTarget else none
  | .assemblyFunctionDefinition =>
    if !has .assemblyIdentifierList then some assemblyTarget
    else if !has .assemblyFunctionReturns then some assemblyResults
    else none
  | _ => none

/-- The parts with those of the category at the end. -/
def moveLast {α : Type} (c : Category) (parts : List (Tree × α)) : List (Tree × α) :=
  parts.filter (!·.1.isA c) ++ parts.filter (·.1.isA c)

/-- The parts with those of the category at the front. -/
def moveFirst {α : Type} (c : Category) (parts : List (Tree × α)) : List (Tree × α) :=
  parts.filter (·.1.isA c) ++ parts.filter (!·.1.isA c)

/-- The parts of a phrase that are searched, in the order of the search. -/
def searched {α : Type} (c : Category) (parts : List (Tree × α)) : List (Tree × α) :=
  match c with
  | .functionDefinition => moveLast .modifierList parts
  | .ifStatement => moveLast .expression parts
  | .doWhileStatement => moveLast .statement parts
  | .forStatement => moveFirst .forCondition parts
  | .tryStatement => moveFirst .expression (moveFirst .block parts)
  | .pragmaDirective => []
  | .fileLevelConstant => parts.filter (!·.1.isA .expression)
  | .variableDeclarationList =>
    match parts with
    | (first, _) :: _ => if first.isA .variableDeclaration then parts else []
    | [] => []
  | .moreDeclarations => parts.takeWhile fun p => (p.1.part? .variableDeclaration).isSome
  | _ => parts

mutual

/-- The first defect of a tree. -/
def find? : Tree → Option Defect
  | .leaf _ => none
  | .node c children =>
    match own? c children with
    | some d => some d
    | none => (searched c (findIn children)).findSome? (·.2)

/-- The trees, each with its first defect. -/
def findIn : List Tree → List (Tree × Option Defect)
  | [] => []
  | t :: ts => (t, find? t) :: findIn ts

end

end Defect

end SolidityAudit.Solidity
