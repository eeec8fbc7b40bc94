import TigerTree.Interchange.Writing
import TigerTree.Proofs.Interchange.Schema

/-! Trees survive being written and read. Each part of a tree is exchanged by a schema of its own;
nothing is asked of the tree, whose indices may dangle and whose names may disagree. -/

set_option autoImplicit false

namespace TigerTree

theorem Name.exchanged : Exchanged .plain Name.toValue Name.ofValue? :=
  .wrapped .word (fun _ => rfl) (fun _ => rfl)

theorem ExprId.exchanged : Exchanged .plain ExprId.toValue ExprId.ofValue? :=
  .wrapped .word (fun _ => rfl) (fun _ => rfl)

theorem DeclId.exchanged : Exchanged .plain DeclId.toValue DeclId.ofValue? :=
  .wrapped .word (fun _ => rfl) (fun _ => rfl)

theorem Name.nullable_exchanged :
    Exchanged .plain (Value.ofOption Name.toValue) (Value.nullable? Name.ofValue?) :=
  Name.exchanged.nullable rfl rfl

theorem ExprId.nullable_exchanged :
    Exchanged .plain (Value.ofOption ExprId.toValue) (Value.nullable? ExprId.ofValue?) :=
  ExprId.exchanged.nullable rfl rfl

theorem DeclId.nullable_exchanged :
    Exchanged .plain (Value.ofOption DeclId.toValue) (Value.nullable? DeclId.ofValue?) :=
  DeclId.exchanged.nullable rfl rfl

theorem Operator.exchanged : Exchanged .bare Operator.toValue Operator.ofValue? := by
  refine .bare ?_ ?_
  · intro operator
    cases operator <;> rfl
  · intro text operator found
    unfold ofTag? at found
    have sameTag := List.find?_some found
    exact eq_of_beq sameTag

theorem SemanticType.exchanged : Exchanged .bare SemanticType.toValue SemanticType.ofValue? := by
  refine .bare ?_ ?_
  · intro type
    cases type <;> rfl
  · intro text type found
    unfold ofTag? at found
    have sameTag := List.find?_some found
    exact eq_of_beq sameTag

def Location.schema : Schema :=
  .record [("line", .plain), ("column", .plain)]

theorem Location.exchanged : Exchanged schema Location.toValue Location.ofValue? where
  read_write location := by simp [toValue, ofValue?, Exchanged.word.read_write]
  write_of_read := by
    intro value location found
    obtain ⟨line, column, rfl, written⟩ :=
      (Exchanged.word.field "line").record_two (Exchanged.word.field "column") found
    exact written

def ListRange.schema : Schema :=
  .record [("start", .plain), ("len", .plain)]

theorem ListRange.exchanged {Id : Type} :
    Exchanged schema (@ListRange.toValue Id) ListRange.ofValue? where
  read_write range := by simp [toValue, ofValue?, Exchanged.word.read_write]
  write_of_read := by
    intro value range found
    obtain ⟨start, length, rfl, written⟩ :=
      (Exchanged.word.field "start").record_two (Exchanged.word.field "len") found
    exact written

def ExprForm.schema : Schema :=
  .variant
    [("Int", .plain), ("String", .plain),
      ("Binary", .record [("op", .bare), ("left", .plain), ("right", .plain)]),
      ("Sequence", ListRange.schema),
      ("Let", .record [("decls", ListRange.schema), ("body", ListRange.schema)]),
      ("Ident", .record [("name", .plain), ("decl", .plain), ("depth", .plain)]),
      ("If", .record [("cond", .plain), ("then_branch", .plain), ("else_branch", .plain)]),
      ("Call", .record [("func", .plain), ("args", ListRange.schema), ("decl", .plain)]),
      ("While", .record [("cond", .plain), ("body", .plain)]),
      ("For", .record [("var", .plain), ("high", .plain), ("body", .plain)]),
      ("Break", .record [("target", .plain)]),
      ("Assign", .record [("lhs", .plain), ("rhs", .plain)])]

private theorem ExprForm.toValue_of_variant {tag : String} {payload : Value} {form : StoredForm}
    (found : ofVariant? tag payload = some form) :
    form.toValue = schema.complete (.ofVariant tag payload) := by
  unfold ofVariant? at found
  -- One case for each tag, in the order of the forms, and one for all other texts.
  split at found
  · obtain ⟨value, read, rfl⟩ := Option.map_eq_some_iff.mp found
    exact congrArg (Value.ofVariant "Int") (Exchanged.int32.write_of_read read)
  · obtain ⟨contents, read, rfl⟩ := Option.map_eq_some_iff.mp found
    exact congrArg (Value.ofVariant "String") (Name.exchanged.write_of_read read)
  · obtain ⟨operator, left, right, rfl, written⟩ :=
      (Operator.exchanged.field "op").record_three (ExprId.exchanged.field "left")
        (ExprId.exchanged.field "right") found
    exact congrArg (Value.ofVariant "Binary") written
  · obtain ⟨elements, read, rfl⟩ := Option.map_eq_some_iff.mp found
    exact congrArg (Value.ofVariant "Sequence") (ListRange.exchanged.write_of_read read)
  · obtain ⟨decls, body, rfl, written⟩ :=
      (ListRange.exchanged.field "decls").record_two (ListRange.exchanged.field "body") found
    exact congrArg (Value.ofVariant "Let") written
  · obtain ⟨name, link, depth, rfl, written⟩ :=
      (Name.exchanged.field "name").record_three (DeclId.nullable_exchanged.optionalField "decl")
        (Exchanged.word.field "depth") found
    exact congrArg (Value.ofVariant "Ident") written
  · obtain ⟨condition, thenBranch, elseBranch, rfl, written⟩ :=
      (ExprId.exchanged.field "cond").record_three (ExprId.exchanged.field "then_branch")
        (ExprId.exchanged.field "else_branch") found
    exact congrArg (Value.ofVariant "If") written
  · obtain ⟨function, arguments, link, rfl, written⟩ :=
      (Name.exchanged.field "func").record_three (ListRange.exchanged.field "args")
        (DeclId.nullable_exchanged.optionalField "decl") found
    exact congrArg (Value.ofVariant "Call") written
  · obtain ⟨condition, body, rfl, written⟩ :=
      (ExprId.exchanged.field "cond").record_two (ExprId.exchanged.field "body") found
    exact congrArg (Value.ofVariant "While") written
  · obtain ⟨loopVariable, high, body, rfl, written⟩ :=
      (DeclId.exchanged.field "var").record_three (ExprId.exchanged.field "high")
        (ExprId.exchanged.field "body") found
    exact congrArg (Value.ofVariant "For") written
  · obtain ⟨target, found, written⟩ :=
      (ExprId.nullable_exchanged.optionalField "target").andThen found
    cases found
    rw [toValue, written]
    rfl
  · obtain ⟨target, assigned, rfl, written⟩ :=
      (ExprId.exchanged.field "lhs").record_two (ExprId.exchanged.field "rhs") found
    exact congrArg (Value.ofVariant "Assign") written
  · cases found

theorem ExprForm.exchanged : Exchanged schema toValue ofValue? where
  read_write form := by
    cases form <;>
      simp [toValue, ofValue?, ofVariant?, Value.ofVariant, Value.variant?,
        Exchanged.word.read_write, Exchanged.int32.read_write, Name.exchanged.read_write,
        ExprId.exchanged.read_write, DeclId.exchanged.read_write,
        ListRange.exchanged.read_write, Operator.exchanged.read_write,
        ExprId.nullable_exchanged.read_write, DeclId.nullable_exchanged.read_write]
  write_of_read := by
    intro value form found
    obtain ⟨⟨tag, payload⟩, isVariant, read⟩ := Option.bind_eq_some_iff.mp found
    rw [Value.variant?_eq_some.mp isVariant]
    exact toValue_of_variant read

def Expr.schema : Schema :=
  .record [("kind", ExprForm.schema), ("loc", Location.schema)]

theorem Expr.exchanged : Exchanged schema toValue ofValue? where
  read_write expr := by
    simp [toValue, ofValue?, ExprForm.exchanged.read_write, Location.exchanged.read_write]
  write_of_read := by
    intro value expr found
    obtain ⟨form, location, rfl, written⟩ :=
      (ExprForm.exchanged.field "kind").record_two (Location.exchanged.field "loc") found
    exact written

def DeclForm.schema : Schema :=
  .variant
    [("Var", .record [("init", .plain)]),
      ("Fun", .record [("params", ListRange.schema), ("body", .plain), ("external_name", .plain)])]

private theorem DeclForm.toValue_of_variant {tag : String} {payload : Value} {form : DeclForm}
    (found : ofVariant? tag payload = some form) :
    form.toValue = schema.complete (.ofVariant tag payload) := by
  unfold ofVariant? at found
  split at found
  · obtain ⟨initializer, read, rfl⟩ := Option.map_eq_some_iff.mp found
    have written := (ExprId.nullable_exchanged.optionalField "init").write_of_ask read
    rw [toValue, initializerToValue, written]
    rfl
  · obtain ⟨parameters, body, loweredName, rfl, written⟩ :=
      (ListRange.exchanged.field "params").record_three (ExprId.exchanged.field "body")
        (Name.nullable_exchanged.optionalField "external_name") found
    exact congrArg (Value.ofVariant "Fun") written
  · cases found

theorem DeclForm.exchanged : Exchanged schema toValue ofValue? where
  read_write form := by
    cases form <;>
      simp [toValue, initializerToValue, functionToValue, ofValue?, ofVariant?, Value.ofVariant,
        Value.variant?, ExprId.exchanged.read_write, ListRange.exchanged.read_write,
        ExprId.nullable_exchanged.read_write, Name.nullable_exchanged.read_write]
  write_of_read := by
    intro value form found
    obtain ⟨⟨tag, payload⟩, isVariant, read⟩ := Option.bind_eq_some_iff.mp found
    rw [Value.variant?_eq_some.mp isVariant]
    exact toValue_of_variant read

def Decl.schema : Schema :=
  .record
    [("name", .plain), ("loc", Location.schema), ("depth", .plain), ("type_name", .plain),
      ("ty", .bare), ("escapes", .plain), ("kind", DeclForm.schema)]

theorem Decl.exchanged : Exchanged schema toValue ofValue? where
  read_write decl := by
    simp [toValue, ofValue?, Exchanged.word.read_write, Name.exchanged.read_write,
      Location.exchanged.read_write, Name.nullable_exchanged.read_write,
      SemanticType.exchanged.read_write, Exchanged.bool.read_write, DeclForm.exchanged.read_write]
  write_of_read := by
    intro value decl found
    obtain ⟨name, found, writtenName⟩ := (Name.exchanged.field "name").andThen found
    obtain ⟨location, found, writtenLocation⟩ := (Location.exchanged.field "loc").andThen found
    obtain ⟨depth, found, writtenDepth⟩ := (Exchanged.word.field "depth").andThen found
    obtain ⟨typeName, found, writtenTypeName⟩ :=
      (Name.nullable_exchanged.optionalField "type_name").andThen found
    obtain ⟨type, found, writtenType⟩ := (SemanticType.exchanged.field "ty").andThen found
    obtain ⟨escapes, found, writtenEscapes⟩ := (Exchanged.bool.field "escapes").andThen found
    obtain ⟨form, found, writtenForm⟩ := (DeclForm.exchanged.field "kind").andThen found
    cases found
    rw [toValue, writtenName, writtenLocation, writtenDepth, writtenTypeName, writtenType,
      writtenEscapes, writtenForm]
    rfl

def NameTable.schema : Schema :=
  .record [("map", .entries .plain), ("strings", .list .plain)]

private theorem NameTable.index_exchanged :
    Exchanged (.entries .plain)
      (fun index => .object (index.map (fun (text, name) => (text, Name.toValue name))))
      NameTable.indexOfValue? where
  read_write := Name.exchanged.entries.read_write
  write_of_read := Name.exchanged.entries.write_of_read

theorem NameTable.exchanged : Exchanged schema toValue ofValue? where
  read_write table := by
    simp [toValue, ofValue?, NameTable.index_exchanged.read_write,
      Exchanged.text.listOf.read_write]
  write_of_read := by
    intro value table found
    obtain ⟨index, texts, rfl, written⟩ :=
      (NameTable.index_exchanged.field "map").record_two (Exchanged.text.listOf.field "strings")
        found
    exact written

def Arena.schema : Schema :=
  .record
    [("exprs", .list Expr.schema), ("expr_lists", .list .plain), ("decls", .list Decl.schema),
      ("decl_lists", .list .plain), ("interner", NameTable.schema)]

theorem Arena.exchanged : Exchanged schema toValue ofValue? where
  read_write arena := by
    simp [toValue, ofValue?, Expr.exchanged.listOf.read_write, ExprId.exchanged.listOf.read_write,
      Decl.exchanged.listOf.read_write, DeclId.exchanged.listOf.read_write,
      NameTable.exchanged.read_write]
  write_of_read := by
    intro value arena found
    obtain ⟨exprs, found, writtenExprs⟩ := (Expr.exchanged.listOf.field "exprs").andThen found
    obtain ⟨exprLists, found, writtenExprLists⟩ :=
      (ExprId.exchanged.listOf.field "expr_lists").andThen found
    obtain ⟨decls, found, writtenDecls⟩ := (Decl.exchanged.listOf.field "decls").andThen found
    obtain ⟨declLists, found, writtenDeclLists⟩ :=
      (DeclId.exchanged.listOf.field "decl_lists").andThen found
    obtain ⟨names, found, writtenNames⟩ := (NameTable.exchanged.field "interner").andThen found
    cases found
    rw [toValue, writtenExprs, writtenExprLists, writtenDecls, writtenDeclLists, writtenNames]
    rfl

end TigerTree
