import TigerTree.Fault
import TigerTree.Node

/-! Nodes as they are shown to a person who debugs a tree: indices, ranges and links as they are
stored, nothing looked up. A range whose end exceeds 32 bits cannot be shown. -/

set_option autoImplicit false

namespace TigerTree

def inspectRecord (tag : String) (fields : List (String × String)) : String :=
  tag ++ " \x7b " ++
    ", ".intercalate (fields.map (fun (label, shown) => label ++ ": " ++ shown)) ++ " \x7d"

def inspectOption {Shown : Type} (inspect : Shown → String) : Option Shown → String
  | none => "None"
  | some shown => "Some(" ++ inspect shown ++ ")"

def Name.inspect (name : Name) : String := "Name(" ++ toString name.index.toNat ++ ")"

def ExprId.inspect (id : ExprId) : String := "ExprId(" ++ toString id.index.toNat ++ ")"

def DeclId.inspect (id : DeclId) : String := "DeclId(" ++ toString id.index.toNat ++ ")"

def NodeId.inspect : NodeId → String
  | .expr id => "Expr(" ++ id.inspect ++ ")"
  | .decl id => "Decl(" ++ id.inspect ++ ")"

def ListRange.inspect? {Id : Type} (sort : String) (range : ListRange Id) :
    Except Fault String :=
  if range.stop < wordLimit then
    .ok (sort ++ "(" ++ toString range.start.toNat ++ ".." ++ toString range.stop ++ ")")
  else .error .arithmeticOverflow

def inspectExprRange (range : ListRange ExprId) : Except Fault String :=
  range.inspect? "ExprRange"

def inspectDeclRange (range : ListRange DeclId) : Except Fault String :=
  range.inspect? "DeclRange"

def ExprForm.inspect : StoredForm → Except Fault String
  | .int value => .ok ("Int(" ++ toString value.toInt ++ ")")
  | .string contents => .ok ("String(" ++ contents.inspect ++ ")")
  | .binary operator left right =>
      .ok (inspectRecord "Binary"
        [("op", operator.tag), ("left", left.inspect), ("right", right.inspect)])
  | .sequence elements => do
      let elements ← inspectExprRange elements
      .ok ("Sequence(" ++ elements ++ ")")
  | .letIn decls body => do
      let decls ← inspectDeclRange decls
      let body ← inspectExprRange body
      .ok (inspectRecord "Let" [("decls", decls), ("body", body)])
  | .identifier name link depth =>
      .ok (inspectRecord "Ident"
        [("name", name.inspect), ("decl", inspectOption DeclId.inspect link),
          ("depth", toString depth.toNat)])
  | .ifThenElse condition thenBranch elseBranch =>
      .ok (inspectRecord "If"
        [("cond", condition.inspect), ("then_branch", thenBranch.inspect),
          ("else_branch", elseBranch.inspect)])
  | .call function arguments link => do
      let arguments ← inspectExprRange arguments
      .ok (inspectRecord "Call"
        [("func", function.inspect), ("args", arguments),
          ("decl", inspectOption DeclId.inspect link)])
  | .whileLoop condition body =>
      .ok (inspectRecord "While" [("cond", condition.inspect), ("body", body.inspect)])
  | .forLoop loopVariable high body =>
      .ok (inspectRecord "For"
        [("var", loopVariable.inspect), ("high", high.inspect), ("body", body.inspect)])
  | .breakLoop target =>
      .ok (inspectRecord "Break" [("target", inspectOption ExprId.inspect target)])
  | .assign target value =>
      .ok (inspectRecord "Assign" [("lhs", target.inspect), ("rhs", value.inspect)])

def Expr.inspect (expr : Expr) : Except Fault String := do
  let form ← expr.form.inspect
  .ok (form ++ " @ " ++ expr.location.text)

def DeclForm.inspect : DeclForm → Except Fault String
  | .value initializer =>
      .ok ("Var(" ++
        inspectRecord "VarDecl" [("init", inspectOption ExprId.inspect initializer)] ++ ")")
  | .function parameters body loweredName => do
      let parameters ← inspectDeclRange parameters
      .ok ("Fun(" ++
        inspectRecord "FunDecl"
          [("params", parameters), ("body", body.inspect),
            ("external_name", inspectOption Name.inspect loweredName)] ++ ")")

def Decl.inspect (decl : Decl) : Except Fault String := do
  let form ← decl.form.inspect
  .ok (inspectRecord "Decl"
    [("name", decl.name.inspect), ("loc", decl.location.text),
      ("depth", toString decl.depth.toNat),
      ("type_name", inspectOption Name.inspect decl.typeName), ("ty", decl.type.tag),
      ("escapes", toString decl.escapes), ("kind", form)])

end TigerTree
