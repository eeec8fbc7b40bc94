/-! The closed set of node kinds, twelve of expressions and two of declarations. -/

set_option autoImplicit false

namespace TigerTree

inductive NodeKind where
  | integerLiteral
  | stringLiteral
  | binaryOperator
  | sequence
  | letIn
  | identifier
  | ifThenElse
  | varDecl
  | funDecl
  | funCall
  | whileLoop
  | forLoop
  | breakLoop
  | assign
  deriving DecidableEq

namespace NodeKind

def all : List NodeKind :=
  [.integerLiteral, .stringLiteral, .binaryOperator, .sequence, .letIn, .identifier, .ifThenElse,
    .varDecl, .funDecl, .funCall, .whileLoop, .forLoop, .breakLoop, .assign]

def tag : NodeKind → String
  | .integerLiteral => "IntegerLiteral"
  | .stringLiteral => "StringLiteral"
  | .binaryOperator => "BinaryOperator"
  | .sequence => "Sequence"
  | .letIn => "Let"
  | .identifier => "Identifier"
  | .ifThenElse => "IfThenElse"
  | .varDecl => "VarDecl"
  | .funDecl => "FunDecl"
  | .funCall => "FunCall"
  | .whileLoop => "WhileLoop"
  | .forLoop => "ForLoop"
  | .breakLoop => "Break"
  | .assign => "Assign"

def ofTag? (tag : String) : Option NodeKind :=
  all.find? (fun kind => kind.tag == tag)

def construct : NodeKind → String
  | .integerLiteral => "integer literal"
  | .stringLiteral => "string literal"
  | .binaryOperator => "binary operator"
  | .sequence => "sequence expression"
  | .letIn => "let expression"
  | .identifier => "identifier"
  | .ifThenElse => "if-then-else expression"
  | .varDecl => "variable declaration"
  | .funDecl => "function declaration"
  | .funCall => "function call"
  | .whileLoop => "while loop"
  | .forLoop => "for loop"
  | .breakLoop => "break statement"
  | .assign => "assignment"

end NodeKind
end TigerTree
