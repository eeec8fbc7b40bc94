import TigerTree.Arena
import TigerTree.Interchange.Value

/-! The value of each part of a tree. Records are objects with all their fields, absent parts are
null, a variant that holds something is an object with its tag as the only field. -/

set_option autoImplicit false

namespace TigerTree

def Name.toValue (name : Name) : Value := .ofWord name.index

def ExprId.toValue (id : ExprId) : Value := .ofWord id.index

def DeclId.toValue (id : DeclId) : Value := .ofWord id.index

def Location.toValue (location : Location) : Value :=
  .object [("line", .ofWord location.line), ("column", .ofWord location.column)]

def ListRange.toValue {Id : Type} (range : ListRange Id) : Value :=
  .object [("start", .ofWord range.start), ("len", .ofWord range.length)]

def Operator.toValue (operator : Operator) : Value := .string operator.tag

def SemanticType.toValue (type : SemanticType) : Value := .string type.tag

def ExprForm.toValue : StoredForm → Value
  | .int value => .ofVariant "Int" (.ofInt32 value)
  | .string contents => .ofVariant "String" contents.toValue
  | .binary operator left right =>
      .ofVariant "Binary"
        (.object [("op", operator.toValue), ("left", left.toValue), ("right", right.toValue)])
  | .sequence elements => .ofVariant "Sequence" elements.toValue
  | .letIn decls body =>
      .ofVariant "Let" (.object [("decls", decls.toValue), ("body", body.toValue)])
  | .identifier name link depth =>
      .ofVariant "Ident"
        (.object [("name", name.toValue), ("decl", .ofOption DeclId.toValue link),
          ("depth", .ofWord depth)])
  | .ifThenElse condition thenBranch elseBranch =>
      .ofVariant "If"
        (.object [("cond", condition.toValue), ("then_branch", thenBranch.toValue),
          ("else_branch", elseBranch.toValue)])
  | .call function arguments link =>
      .ofVariant "Call"
        (.object [("func", function.toValue), ("args", arguments.toValue),
          ("decl", .ofOption DeclId.toValue link)])
  | .whileLoop condition body =>
      .ofVariant "While" (.object [("cond", condition.toValue), ("body", body.toValue)])
  | .forLoop loopVariable high body =>
      .ofVariant "For"
        (.object [("var", loopVariable.toValue), ("high", high.toValue),
          ("body", body.toValue)])
  | .breakLoop target =>
      .ofVariant "Break" (.object [("target", .ofOption ExprId.toValue target)])
  | .assign target value =>
      .ofVariant "Assign" (.object [("lhs", target.toValue), ("rhs", value.toValue)])

def Expr.toValue (expr : Expr) : Value :=
  .object [("kind", expr.form.toValue), ("loc", expr.location.toValue)]

def initializerToValue (initializer : Option ExprId) : Value :=
  .object [("init", .ofOption ExprId.toValue initializer)]

def functionToValue (parameters : ListRange DeclId) (body : ExprId)
    (loweredName : Option Name) : Value :=
  .object [("params", parameters.toValue), ("body", body.toValue),
    ("external_name", .ofOption Name.toValue loweredName)]

def DeclForm.toValue : DeclForm → Value
  | .value initializer => .ofVariant "Var" (initializerToValue initializer)
  | .function parameters body loweredName =>
      .ofVariant "Fun" (functionToValue parameters body loweredName)

def Decl.toValue (decl : Decl) : Value :=
  .object [("name", decl.name.toValue), ("loc", decl.location.toValue),
    ("depth", .ofWord decl.depth), ("type_name", .ofOption Name.toValue decl.typeName),
    ("ty", decl.type.toValue), ("escapes", .bool decl.escapes), ("kind", decl.form.toValue)]

def NameTable.toValue (table : NameTable) : Value :=
  .object
    [("map", .object (table.index.map (fun (text, name) => (text, name.toValue)))),
      ("strings", .list (table.texts.toList.map .string))]

def Arena.toValue (arena : Arena) : Value :=
  .object
    [("exprs", .list (arena.exprs.toList.map Expr.toValue)),
      ("expr_lists", .list (arena.exprLists.toList.map ExprId.toValue)),
      ("decls", .list (arena.decls.toList.map Decl.toValue)),
      ("decl_lists", .list (arena.declLists.toList.map DeclId.toValue)),
      ("interner", arena.names.toValue)]

end TigerTree
