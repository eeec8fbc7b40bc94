import TigerTree.Location
import TigerTree.NodeKind
import TigerTree.Operator
import TigerTree.SemanticType

/-! Nodes of a flat tree. Children are indices into the tables of an arena; lists of children are
ranges of a flattened index list. A link (identifier or call to its declaration, break to its
loop) is a lookup and owns nothing, so links may form cycles where ownership may not. -/

set_option autoImplicit false

namespace TigerTree

structure Name where
  index : UInt32
  deriving DecidableEq, Inhabited

/-- The name that every table gives to the empty text. -/
def Name.empty : Name := ⟨0⟩

structure ExprId where
  index : UInt32
  deriving DecidableEq, Inhabited

structure DeclId where
  index : UInt32
  deriving DecidableEq, Inhabited

inductive NodeId where
  | expr (id : ExprId)
  | decl (id : DeclId)
  deriving DecidableEq

structure ListRange (Id : Type) where
  start : UInt32
  length : UInt32
  deriving DecidableEq, Inhabited

namespace ListRange

variable {Id : Type}

def empty : ListRange Id := ⟨0, 0⟩

def isEmpty (range : ListRange Id) : Bool := range.length == 0

/-- The position just past the range, in unbounded arithmetic. -/
def stop (range : ListRange Id) : Nat := range.start.toNat + range.length.toNat

end ListRange

/-- The twelve forms of an expression. The forms of a stored expression hold ranges where those of
a resolved one hold the listed indices; `Exprs` and `Decls` say which. -/
inductive ExprForm (Exprs Decls : Type) where
  | int (value : Int32)
  | string (contents : Name)
  | binary (operator : Operator) (left right : ExprId)
  | sequence (elements : Exprs)
  | letIn (decls : Decls) (body : Exprs)
  /-- The depth is that of the use, not of the declaration. -/
  | identifier (name : Name) (link : Option DeclId) (depth : UInt32)
  | ifThenElse (condition thenBranch elseBranch : ExprId)
  | call (function : Name) (arguments : Exprs) (link : Option DeclId)
  | whileLoop (condition body : ExprId)
  /-- The lower bound is the initializer of the loop variable. -/
  | forLoop (loopVariable : DeclId) (high body : ExprId)
  | breakLoop (target : Option ExprId)
  | assign (target value : ExprId)
  deriving DecidableEq

namespace ExprForm

variable {Exprs Decls : Type}

def nodeKind : ExprForm Exprs Decls → NodeKind
  | .int _ => .integerLiteral
  | .string _ => .stringLiteral
  | .binary _ _ _ => .binaryOperator
  | .sequence _ => .sequence
  | .letIn _ _ => .letIn
  | .identifier _ _ _ => .identifier
  | .ifThenElse _ _ _ => .ifThenElse
  | .call _ _ _ => .funCall
  | .whileLoop _ _ => .whileLoop
  | .forLoop _ _ _ => .forLoop
  | .breakLoop _ => .breakLoop
  | .assign _ _ => .assign

def isLoop : ExprForm Exprs Decls → Bool
  | .whileLoop _ _ | .forLoop _ _ _ => true
  | _ => false

end ExprForm

abbrev StoredForm := ExprForm (ListRange ExprId) (ListRange DeclId)

abbrev Shape := ExprForm (List ExprId) (List DeclId)

structure Expr where
  form : StoredForm
  location : Location
  deriving DecidableEq

namespace Expr

def withLink? (target : DeclId) (expr : Expr) : Option Expr :=
  match expr.form with
  | .identifier name _ depth => some { expr with form := .identifier name (some target) depth }
  | .call function arguments _ => some { expr with form := .call function arguments (some target) }
  | _ => none

def withLoop? (target : ExprId) (expr : Expr) : Option Expr :=
  match expr.form with
  | .breakLoop _ => some { expr with form := .breakLoop (some target) }
  | _ => none

end Expr

inductive DeclForm where
  | value (initializer : Option ExprId)
  | function (parameters : ListRange DeclId) (body : ExprId) (loweredName : Option Name)
  deriving DecidableEq

def DeclForm.nodeKind : DeclForm → NodeKind
  | .value _ => .varDecl
  | .function _ _ _ => .funDecl

structure Decl where
  name : Name
  location : Location
  depth : UInt32
  /-- The type name written in the program; for a function, of its result. -/
  typeName : Option Name
  type : SemanticType
  escapes : Bool
  form : DeclForm
  deriving DecidableEq

def Decl.withLoweredName? (symbol : Name) (decl : Decl) : Option Decl :=
  match decl.form with
  | .function parameters body _ =>
      some { decl with form := .function parameters body (some symbol) }
  | .value _ => none

end TigerTree
