import TigerTree.Arena
import TigerTree.Interchange.Value

/-! Reading a part of a tree from its value. Any field that is missing, of the wrong sort or out
of range makes the whole unreadable; whether indices dangle, or an index of names agrees with its
texts, is not asked. -/

set_option autoImplicit false

namespace TigerTree

def Name.ofValue? (value : Value) : Option Name := value.word?.map Name.mk

def ExprId.ofValue? (value : Value) : Option ExprId := value.word?.map ExprId.mk

def DeclId.ofValue? (value : Value) : Option DeclId := value.word?.map DeclId.mk

def Location.ofValue? (value : Value) : Option Location := do
  let line ← value.field? "line" Value.word?
  let column ← value.field? "column" Value.word?
  some ⟨line, column⟩

def ListRange.ofValue? {Id : Type} (value : Value) : Option (ListRange Id) := do
  let start ← value.field? "start" Value.word?
  let length ← value.field? "len" Value.word?
  some ⟨start, length⟩

def Operator.ofValue? (value : Value) : Option Operator :=
  value.bareVariant?.bind Operator.ofTag?

def SemanticType.ofValue? (value : Value) : Option SemanticType :=
  value.bareVariant?.bind SemanticType.ofTag?

def ExprForm.ofVariant? (tag : String) (payload : Value) : Option StoredForm :=
  match tag with
  | "Int" => payload.int32?.map .int
  | "String" => (Name.ofValue? payload).map .string
  | "Binary" => do
      let operator ← payload.field? "op" Operator.ofValue?
      let left ← payload.field? "left" ExprId.ofValue?
      let right ← payload.field? "right" ExprId.ofValue?
      some (.binary operator left right)
  | "Sequence" => (ListRange.ofValue? payload).map .sequence
  | "Let" => do
      let decls ← payload.field? "decls" ListRange.ofValue?
      let body ← payload.field? "body" ListRange.ofValue?
      some (.letIn decls body)
  | "Ident" => do
      let name ← payload.field? "name" Name.ofValue?
      let link ← payload.optionalField? "decl" DeclId.ofValue?
      let depth ← payload.field? "depth" Value.word?
      some (.identifier name link depth)
  | "If" => do
      let condition ← payload.field? "cond" ExprId.ofValue?
      let thenBranch ← payload.field? "then_branch" ExprId.ofValue?
      let elseBranch ← payload.field? "else_branch" ExprId.ofValue?
      some (.ifThenElse condition thenBranch elseBranch)
  | "Call" => do
      let function ← payload.field? "func" Name.ofValue?
      let arguments ← payload.field? "args" ListRange.ofValue?
      let link ← payload.optionalField? "decl" DeclId.ofValue?
      some (.call function arguments link)
  | "While" => do
      let condition ← payload.field? "cond" ExprId.ofValue?
      let body ← payload.field? "body" ExprId.ofValue?
      some (.whileLoop condition body)
  | "For" => do
      let loopVariable ← payload.field? "var" DeclId.ofValue?
      let high ← payload.field? "high" ExprId.ofValue?
      let body ← payload.field? "body" ExprId.ofValue?
      some (.forLoop loopVariable high body)
  | "Break" => do
      let target ← payload.optionalField? "target" ExprId.ofValue?
      some (.breakLoop target)
  | "Assign" => do
      let target ← payload.field? "lhs" ExprId.ofValue?
      let assigned ← payload.field? "rhs" ExprId.ofValue?
      some (.assign target assigned)
  | _ => none

def ExprForm.ofValue? (value : Value) : Option StoredForm := do
  let (tag, payload) ← value.variant?
  ExprForm.ofVariant? tag payload

def Expr.ofValue? (value : Value) : Option Expr := do
  let form ← value.field? "kind" ExprForm.ofValue?
  let location ← value.field? "loc" Location.ofValue?
  some ⟨form, location⟩

def DeclForm.ofVariant? (tag : String) (payload : Value) : Option DeclForm :=
  match tag with
  | "Var" => (payload.optionalField? "init" ExprId.ofValue?).map .value
  | "Fun" => do
      let parameters ← payload.field? "params" ListRange.ofValue?
      let body ← payload.field? "body" ExprId.ofValue?
      let loweredName ← payload.optionalField? "external_name" Name.ofValue?
      some (.function parameters body loweredName)
  | _ => none

def DeclForm.ofValue? (value : Value) : Option DeclForm := do
  let (tag, payload) ← value.variant?
  DeclForm.ofVariant? tag payload

def Decl.ofValue? (value : Value) : Option Decl := do
  let name ← value.field? "name" Name.ofValue?
  let location ← value.field? "loc" Location.ofValue?
  let depth ← value.field? "depth" Value.word?
  let typeName ← value.optionalField? "type_name" Name.ofValue?
  let type ← value.field? "ty" SemanticType.ofValue?
  let escapes ← value.field? "escapes" Value.bool?
  let form ← value.field? "kind" DeclForm.ofValue?
  some
    { name := name
      location := location
      depth := depth
      typeName := typeName
      type := type
      escapes := escapes
      form := form }

def Value.listOf? {Item : Type} (read : Value → Option Item) (value : Value) :
    Option (List Item) := do
  let items ← value.list?
  items.mapM read

def NameTable.indexOfValue? (value : Value) : Option (List (String × Name)) := do
  let fields ← value.object?
  fields.mapM (fun (text, number) => do
    let name ← Name.ofValue? number
    some (text, name))

def NameTable.ofValue? (value : Value) : Option NameTable := do
  let index ← value.field? "map" NameTable.indexOfValue?
  let texts ← value.field? "strings" (Value.listOf? Value.string?)
  some ⟨index, texts.toArray⟩

def Arena.ofValue? (value : Value) : Option Arena := do
  let exprs ← value.field? "exprs" (Value.listOf? Expr.ofValue?)
  let exprLists ← value.field? "expr_lists" (Value.listOf? ExprId.ofValue?)
  let decls ← value.field? "decls" (Value.listOf? Decl.ofValue?)
  let declLists ← value.field? "decl_lists" (Value.listOf? DeclId.ofValue?)
  let names ← value.field? "interner" NameTable.ofValue?
  some ⟨exprs.toArray, exprLists.toArray, decls.toArray, declLists.toArray, names⟩

end TigerTree
