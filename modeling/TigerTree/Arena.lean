import TigerTree.NameTable

/-! The tables of one tree and the lookups every walk makes. An index past its table and a range
past its list are faults, also for an empty range; nothing is checked when an entry is stored, so
an arena may hold dangling indices. -/

set_option autoImplicit false

namespace TigerTree

structure Arena where
  exprs : Array Expr
  exprLists : Array ExprId
  decls : Array Decl
  declLists : Array DeclId
  names : NameTable
  deriving DecidableEq

namespace Arena

def initial : Arena := ⟨#[], #[], #[], #[], NameTable.initial⟩

instance : Inhabited Arena := ⟨initial⟩

def expr (arena : Arena) (id : ExprId) : Except Fault Expr :=
  match arena.exprs[id.index.toNat]? with
  | some expr => .ok expr
  | none => .error .indexOutOfBounds

def decl (arena : Arena) (id : DeclId) : Except Fault Decl :=
  match arena.decls[id.index.toNat]? with
  | some decl => .ok decl
  | none => .error .indexOutOfBounds

def exprList (arena : Arena) (range : ListRange ExprId) : Except Fault (List ExprId) :=
  if range.stop ≤ arena.exprLists.size then
    .ok (arena.exprLists.extract range.start.toNat range.stop).toList
  else .error .rangeOutOfBounds

def declList (arena : Arena) (range : ListRange DeclId) : Except Fault (List DeclId) :=
  if range.stop ≤ arena.declLists.size then
    .ok (arena.declLists.extract range.start.toNat range.stop).toList
  else .error .rangeOutOfBounds

def text (arena : Arena) (name : Name) : Except Fault String :=
  arena.names.text name

/-- The form of an expression with its lists looked up. Function parameters are not among them:
they belong to a declaration. -/
def shape (arena : Arena) : StoredForm → Except Fault Shape
  | .int value => .ok (.int value)
  | .string contents => .ok (.string contents)
  | .binary operator left right => .ok (.binary operator left right)
  | .sequence elements => do
      let elements ← arena.exprList elements
      .ok (.sequence elements)
  | .letIn decls body => do
      let decls ← arena.declList decls
      let body ← arena.exprList body
      .ok (.letIn decls body)
  | .identifier name link depth => .ok (.identifier name link depth)
  | .ifThenElse condition thenBranch elseBranch =>
      .ok (.ifThenElse condition thenBranch elseBranch)
  | .call function arguments link => do
      let arguments ← arena.exprList arguments
      .ok (.call function arguments link)
  | .whileLoop condition body => .ok (.whileLoop condition body)
  | .forLoop loopVariable high body => .ok (.forLoop loopVariable high body)
  | .breakLoop target => .ok (.breakLoop target)
  | .assign target value => .ok (.assign target value)

def nodeKind (arena : Arena) : NodeId → Except Fault NodeKind
  | .expr id => do
      let expr ← arena.expr id
      .ok expr.form.nodeKind
  | .decl id => do
      let decl ← arena.decl id
      .ok decl.form.nodeKind

/-- A path from parent to child that repeats no node has at most as many nodes as the tables
hold, and one dangling index at its end. -/
def pathBound (arena : Arena) : Nat :=
  arena.exprs.size + arena.decls.size + 1

end Arena

/-- A change to the tables. One that fails keeps what it had already done. -/
abbrev ArenaM := EStateM Fault Arena

namespace Arena

def addExpr (expr : Expr) : ArenaM ExprId := fun arena =>
  if arena.exprs.size < wordLimit then
    .ok ⟨arena.exprs.size.toUInt32⟩ { arena with exprs := arena.exprs.push expr }
  else .error .capacityExceeded arena

def addDecl (decl : Decl) : ArenaM DeclId := fun arena =>
  if arena.decls.size < wordLimit then
    .ok ⟨arena.decls.size.toUInt32⟩ { arena with decls := arena.decls.push decl }
  else .error .capacityExceeded arena

/-- Appends a list to its flattened table. The range starts where the table ended, also when nothing
is added. A list that runs past the last index stays in the table, which takes no list after it. -/
def addList {Id : Type} (ids : List Id) : EStateM Fault (Array Id) (ListRange Id) := fun lists =>
  if lists.size < wordLimit then
    if lists.size + ids.length < wordLimit then
      .ok ⟨lists.size.toUInt32, ids.length.toUInt32⟩ (lists.appendList ids)
    else .error .capacityExceeded (lists.appendList ids)
  else .error .capacityExceeded lists

def addExprList (ids : List ExprId) : ArenaM (ListRange ExprId) := fun arena =>
  match arena with
  | ⟨exprs, exprLists, decls, declLists, names⟩ =>
      match addList ids exprLists with
      | .ok range exprLists => .ok range ⟨exprs, exprLists, decls, declLists, names⟩
      | .error fault exprLists => .error fault ⟨exprs, exprLists, decls, declLists, names⟩

def addDeclList (ids : List DeclId) : ArenaM (ListRange DeclId) := fun arena =>
  match arena with
  | ⟨exprs, exprLists, decls, declLists, names⟩ =>
      match addList ids declLists with
      | .ok range declLists => .ok range ⟨exprs, exprLists, decls, declLists, names⟩
      | .error fault declLists => .error fault ⟨exprs, exprLists, decls, declLists, names⟩

def intern (text : String) : ArenaM Name := fun arena =>
  match arena with
  | ⟨exprs, exprLists, decls, declLists, names⟩ =>
      match NameTable.intern text names with
      | .ok name names => .ok name ⟨exprs, exprLists, decls, declLists, names⟩
      | .error _ names => .error .capacityExceeded ⟨exprs, exprLists, decls, declLists, names⟩

/-- Replaces an expression by its amendment, and answers whether there was one. -/
def amendExpr (id : ExprId) (amendment : Expr → Option Expr) : ArenaM Bool := fun arena =>
  match arena.expr id with
  | .error fault => .error fault arena
  | .ok expr =>
      match amendment expr with
      | none => .ok false arena
      | some expr => .ok true { arena with exprs := arena.exprs.setIfInBounds id.index.toNat expr }

def amendDecl (id : DeclId) (amendment : Decl → Option Decl) : ArenaM Bool := fun arena =>
  match arena.decl id with
  | .error fault => .error fault arena
  | .ok decl =>
      match amendment decl with
      | none => .ok false arena
      | some decl => .ok true { arena with decls := arena.decls.setIfInBounds id.index.toNat decl }

def setExpr (id : ExprId) (expr : Expr) : ArenaM Bool :=
  amendExpr id (fun _ => some expr)

def setDecl (id : DeclId) (decl : Decl) : ArenaM Bool :=
  amendDecl id (fun _ => some decl)

end Arena
end TigerTree
