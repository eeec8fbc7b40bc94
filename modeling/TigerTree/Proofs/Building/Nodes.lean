import TigerTree.Proofs.Building.Growth
import TigerTree.Proofs.Unfolding.Layer

/-! What each step of building adds: one node, read back as the layer of the texts and children
that the step was given, with no links. Nothing that was there before is read differently. -/

set_option autoImplicit false

namespace TigerTree

variable {First Second : Type} {builder : Builder}

theorem BuildM.Adds.imp {step : BuildM First} {weaker stronger : First → Arena → Prop}
    (adds : step.Adds builder weaker)
    (holds : ∀ result new, builder.arena.Grows new → weaker result new → stronger result new) :
    step.Adds builder stronger := by
  unfold BuildM.Adds at adds ⊢
  cases run : step builder with
  | ok result new =>
      rw [run] at adds
      exact ⟨adds.1, holds result new.arena adds.1 adds.2⟩
  | error fault new =>
      rw [run] at adds
      exact adds

namespace Builder

theorem add_adds (builder : Builder) (form : StoredForm) :
    (add form).Adds builder (fun id new => ∃ location, new.expr id = .ok ⟨form, location⟩) := by
  refine BuildM.Adds.imp (.onArena (Arena.addExpr_adds builder.arena ⟨form, builder.location⟩)) ?_
  intro id new _ added
  exact ⟨builder.location, added⟩

private theorem add_shape_adds (builder : Builder) (form : StoredForm) (shape : Shape)
    (resolved : ∀ arena : Arena, builder.arena.Grows arena → arena.shape form = .ok shape) :
    (add form).Adds builder (fun id new =>
      ∃ location, new.layer (.expr id) = new.shapeLayer location shape) := by
  refine (add_adds builder form).imp ?_
  intro id new grows added
  obtain ⟨location, found⟩ := added
  exact ⟨location, Arena.layer_expr found (resolved new grows)⟩

theorem int_adds (builder : Builder) (value : Int32) :
    (int value).Adds builder (fun id new =>
      ∃ location, new.layer (.expr id) = .int location value) :=
  add_shape_adds builder (.int value) (.int value) (fun _ _ => rfl)

theorem string_adds (builder : Builder) (indexed : builder.arena.names.Indexed)
    (contents : String) :
    (string contents).Adds builder (fun id new =>
      ∃ location, new.layer (.expr id) = .string location (.ok contents)) := by
  refine .bind (.onArena (Arena.intern_adds _ indexed contents)) ?_
  intro name named _ isText
  refine (add_shape_adds named (.string name) (.string name) (fun _ _ => rfl)).imp ?_
  intro id new grows added
  obtain ⟨location, isLayer⟩ := added
  rw [Arena.shapeLayer, grows.text name contents isText] at isLayer
  exact ⟨location, isLayer⟩

theorem binary_adds (builder : Builder) (operator : Operator) (left right : ExprId) :
    (binary operator left right).Adds builder (fun id new =>
      ∃ location, new.layer (.expr id) = .binary location operator (.expr left) (.expr right)) :=
  add_shape_adds builder (.binary operator left right) (.binary operator left right)
    (fun _ _ => rfl)

theorem sequence_adds (builder : Builder) (elements : List ExprId) :
    (sequence elements).Adds builder (fun id new =>
      ∃ location, new.layer (.expr id) = .sequence location (elements.map .expr)) := by
  refine .bind (.onArena (Arena.addExprList_adds _ elements)) ?_
  intro range listed _ isList
  refine add_shape_adds listed (.sequence range) (.sequence elements) ?_
  intro arena grows
  rw [Arena.shape, grows.exprList range elements isList]
  rfl

theorem letIn_adds (builder : Builder) (decls : List DeclId) (body : List ExprId) :
    (letIn decls body).Adds builder (fun id new =>
      ∃ location, new.layer (.expr id) =
        .letIn location (decls.map .decl) (body.map .expr)) := by
  refine .bind (.onArena (Arena.addDeclList_adds _ decls)) ?_
  intro declRange listedDecls _ areDecls
  refine .bind (.onArena (Arena.addExprList_adds _ body)) ?_
  intro bodyRange listedBody grown isBody
  refine add_shape_adds listedBody (.letIn declRange bodyRange) (.letIn decls body) ?_
  intro arena grows
  rw [Arena.shape, (grown.trans grows).declList declRange decls areDecls,
    grows.exprList bodyRange body isBody]
  rfl

theorem identifier_adds (builder : Builder) (indexed : builder.arena.names.Indexed)
    (text : String) :
    (identifier text).Adds builder (fun id new =>
      ∃ location depth, new.layer (.expr id) = .identifier location (.ok text) none depth) := by
  refine .bind (.onArena (Arena.intern_adds _ indexed text)) ?_
  intro name named _ isText
  have known : currentDepth.Adds named (fun _ new => new.text name = .ok text) :=
    ⟨Arena.Grows.refl named.arena, isText⟩
  refine .bind known ?_
  intro depth same _ isText
  refine (add_shape_adds same (.identifier name none depth) (.identifier name none depth)
    (fun _ _ => rfl)).imp ?_
  intro id new grows added
  obtain ⟨location, isLayer⟩ := added
  rw [Arena.shapeLayer, grows.text name text isText] at isLayer
  exact ⟨location, depth, isLayer⟩

theorem ifThenElse_adds (builder : Builder) (condition thenBranch elseBranch : ExprId) :
    (ifThenElse condition thenBranch elseBranch).Adds builder (fun id new =>
      ∃ location, new.layer (.expr id) =
        .ifThenElse location (.expr condition) (.expr thenBranch) (.expr elseBranch)) :=
  add_shape_adds builder (.ifThenElse condition thenBranch elseBranch)
    (.ifThenElse condition thenBranch elseBranch) (fun _ _ => rfl)

theorem call_adds (builder : Builder) (indexed : builder.arena.names.Indexed)
    (function : String) (arguments : List ExprId) :
    (call function arguments).Adds builder (fun id new =>
      ∃ location, new.layer (.expr id) =
        .call location (.ok function) none (arguments.map .expr)) := by
  refine .bind (.onArena (Arena.intern_adds _ indexed function)) ?_
  intro name named _ isText
  refine .bind (.onArena (Arena.addExprList_adds _ arguments)) ?_
  intro range listed grown isList
  refine (add_shape_adds listed (.call name range none) (.call name arguments none) ?_).imp ?_
  · intro arena grows
    rw [Arena.shape, grows.exprList range arguments isList]
    rfl
  · intro id new grows added
    obtain ⟨location, isLayer⟩ := added
    rw [Arena.shapeLayer, (grown.trans grows).text name function isText] at isLayer
    exact ⟨location, isLayer⟩

theorem whileLoop_adds (builder : Builder) (condition body : ExprId) :
    (whileLoop condition body).Adds builder (fun id new =>
      ∃ location, new.layer (.expr id) = .whileLoop location (.expr condition) (.expr body)) :=
  add_shape_adds builder (.whileLoop condition body) (.whileLoop condition body) (fun _ _ => rfl)

theorem forLoop_adds (builder : Builder) (loopVariable : DeclId) (high body : ExprId) :
    (forLoop loopVariable high body).Adds builder (fun id new =>
      ∃ location, new.layer (.expr id) =
        .forLoop location (new.loopStart loopVariable) (.expr high) (.expr body)) :=
  add_shape_adds builder (.forLoop loopVariable high body) (.forLoop loopVariable high body)
    (fun _ _ => rfl)

theorem breakLoop_adds (builder : Builder) :
    breakLoop.Adds builder (fun id new =>
      ∃ location, new.layer (.expr id) = .breakLoop location none) :=
  add_shape_adds builder (.breakLoop none) (.breakLoop none) (fun _ _ => rfl)

theorem assign_adds (builder : Builder) (target value : ExprId) :
    (assign target value).Adds builder (fun id new =>
      ∃ location, new.layer (.expr id) = .assign location (.expr target) (.expr value)) :=
  add_shape_adds builder (.assign target value) (.assign target value) (fun _ _ => rfl)

theorem declare_adds (builder : Builder) (indexed : builder.arena.names.Indexed)
    (text : String) (typeText : Option String) (form : DeclForm) :
    (declare text typeText form).Adds builder (fun id new =>
      ∃ decl, decl.form = form ∧ new.text decl.name = .ok text ∧
        decl.typeName.map new.text = typeText.map .ok ∧
        new.layer (.decl id) = new.declLayer decl) := by
  refine .bind (.onArena (Arena.intern_adds _ indexed text)) ?_
  intro name named grown isText
  have typed : (typeText.mapM (fun text => onArena (Arena.intern text))).Adds named
      (fun typeName new => typeName.map new.text = typeText.map .ok) := by
    cases typeText with
    | none => exact .pure rfl
    | some typeText =>
        refine .bind (.onArena (Arena.intern_adds _ (grown.indexed indexed) typeText)) ?_
        intro typeName typeNamed _ isTypeText
        exact .pure (congrArg some isTypeText)
  refine .bind typed ?_
  intro typeName typeNamed grownType isTypeText
  refine BuildM.Adds.imp (.onArena (Arena.addDecl_adds _ _)) ?_
  intro id new grows added
  refine ⟨_, ?_, ?_, ?_, Arena.layer_decl added⟩
  · rfl
  · exact (grownType.trans grows).text name text isText
  · cases typeName with
    | none => exact isTypeText
    | some typeName =>
        cases typeText with
        | none => cases isTypeText
        | some typeText =>
            exact congrArg some (grows.text typeName typeText (Option.some.inj isTypeText))

theorem declareVariable_adds (builder : Builder) (indexed : builder.arena.names.Indexed)
    (text : String) (typeText : Option String) (initializer : ExprId) :
    (declareVariable text typeText initializer).Adds builder (fun id new =>
      ∃ heading, heading.name = .ok text ∧ heading.typeName = typeText.map .ok ∧
        new.layer (.decl id) = .varDecl heading (.expr initializer)) := by
  refine (declare_adds builder indexed text typeText _).imp ?_
  intro id new _ added
  obtain ⟨decl, form, named, typed, isLayer⟩ := added
  rw [Arena.declLayer, form] at isLayer
  exact ⟨new.heading decl, named, typed, isLayer⟩

theorem declareParameter_adds (builder : Builder) (indexed : builder.arena.names.Indexed)
    (text : String) (typeText : Option String) :
    (declareParameter text typeText).Adds builder (fun id new =>
      ∃ heading, heading.name = .ok text ∧ heading.typeName = typeText.map .ok ∧
        new.layer (.decl id) = .parameter heading) := by
  refine (declare_adds builder indexed text typeText _).imp ?_
  intro id new _ added
  obtain ⟨decl, form, named, typed, isLayer⟩ := added
  rw [Arena.declLayer, form] at isLayer
  exact ⟨new.heading decl, named, typed, isLayer⟩

theorem declareFunction_adds (builder : Builder) (indexed : builder.arena.names.Indexed)
    (text : String) (parameters : List DeclId) (resultText : Option String) (body : ExprId) :
    (declareFunction text parameters resultText body).Adds builder (fun id new =>
      ∃ heading, heading.name = .ok text ∧ heading.typeName = resultText.map .ok ∧
        new.layer (.decl id) =
          .funDecl heading none (.ok (parameters.map .decl)) (.expr body)) := by
  refine .bind (.onArena (Arena.addDeclList_adds _ parameters)) ?_
  intro range listed grown isList
  refine (declare_adds listed (grown.indexed indexed) text resultText _).imp ?_
  intro id new grows added
  obtain ⟨decl, form, named, typed, isLayer⟩ := added
  rw [Arena.declLayer, form] at isLayer
  simp only [grows.declList range parameters isList] at isLayer
  exact ⟨new.heading decl, named, typed, isLayer⟩

end Builder
end TigerTree
