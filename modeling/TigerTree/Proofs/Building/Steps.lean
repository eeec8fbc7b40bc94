import TigerTree.Proofs.Building.Refinement

/-! Single calls beside a store: each does to the builder what it does to the store, whatever nodes
it is handed, or finds a table full. -/

set_option autoImplicit false

namespace TigerTree

/-- A bound for the entries that the call adds to the tables. -/
def BuildCall.entries (call : BuildCall) : Nat := call.mentions.length + 3

section

variable {Result : Type} {builder : Builder} {store : Store} {entries : Nat}

private theorem follows_map {step : BuildM Result} {reply : Result → BuildReply}
    {specified : StoreM BuildReply} (follows : step.Follows reply builder entries specified store) :
    (reply <$> step).Follows id builder entries specified store := by
  unfold BuildM.Follows at follows ⊢
  cases run : step builder with
  | ok result new =>
      rw [show (reply <$> step) builder = .ok (reply result) new by
        simp only [Functor.map, EStateM.map, run]]
      rw [run] at follows
      exact follows
  | error fault new =>
      rw [show (reply <$> step) builder = .error fault new by
        simp only [Functor.map, EStateM.map, run]]
      rw [run] at follows
      cases fault <;> exact follows

private theorem internType_prepares (indexed : builder.arena.names.Indexed)
    (typeText : Option String) :
    (typeText.mapM (fun text => Builder.onArena (Arena.intern text))).Prepares builder 1
      (fun typeName new => new.text? typeName = .ok typeText) := by
  cases typeText with
  | none => exact ⟨⟨.refl _ _, id, rfl, rfl, rfl, rfl⟩, rfl⟩
  | some text =>
      have interned := intern_prepares indexed text
      unfold BuildM.Prepares at interned ⊢
      cases run : Builder.onArena (Arena.intern text) builder with
      | ok name new =>
          rw [show (some text).mapM (fun text => Builder.onArena (Arena.intern text)) builder =
              .ok (some name) new by
            simp only [Option.mapM_some, Functor.map, EStateM.map, run]]
          rw [run] at interned
          refine ⟨interned.1, ?_⟩
          simp only [Arena.text?, interned.2, Except.map]
      | error fault new =>
          rw [show (some text).mapM (fun text => Builder.onArena (Arena.intern text)) builder =
              .error fault new by
            simp only [Option.mapM_some, Functor.map, EStateM.map, run]]
          rw [run] at interned
          exact interned

private theorem declare_follows (mirrors : builder.Mirrors store) (text : String)
    (typeText : Option String) {form : DeclForm} {content : DeclContent}
    (spelled : builder.arena.declContent form = .ok content) :
    (Builder.declare text typeText form).Follows .decl builder (1 + (1 + 1))
      (Store.addDecl text typeText content) store := by
  apply (intern_prepares mirrors.indexed text).andThen mirrors
  intro name named toNamed mirrors isText
  apply (internType_prepares mirrors.indexed typeText).andThen mirrors
  intro typeName typed toTyped mirrors isTypeText
  apply addDecl_follows mirrors
  exact Arena.declRecord_eq_ok.mpr ⟨toTyped.retains.text name text isText, isTypeText,
    (toNamed.retains.trans toTyped.retains).declContent spelled, mirrors.location.symm,
    mirrors.depth.symm, rfl, rfl⟩

private theorem string_follows (mirrors : builder.Mirrors store) (contents : String) :
    (Builder.string contents).Follows .expr builder (1 + 1) (Store.addExpr (.string contents))
      store := by
  apply (intern_prepares mirrors.indexed contents).andThen mirrors
  intro name named _ mirrors isText
  apply add_follows mirrors
  intro location
  exact Arena.exprRecord_eq_ok.mpr
    ⟨.string name, rfl, by simp only [Arena.content, isText, Except.map], rfl⟩

private theorem sequence_follows (mirrors : builder.Mirrors store) (elements : List ExprId) :
    (Builder.sequence elements).Follows .expr builder (elements.length + 1)
      (Store.addExpr (.sequence elements)) store := by
  apply (addExprList_prepares elements).andThen mirrors
  intro range listed _ mirrors isList
  apply add_follows mirrors
  intro location
  refine Arena.exprRecord_eq_ok.mpr ⟨.sequence elements, ?_, rfl, rfl⟩
  simp only [Arena.shape, isList, bind, Except.bind]

private theorem letIn_follows (mirrors : builder.Mirrors store) (decls : List DeclId)
    (body : List ExprId) :
    (Builder.letIn decls body).Follows .expr builder (decls.length + (body.length + 1))
      (Store.addExpr (.letIn decls body)) store := by
  apply (addDeclList_prepares decls).andThen mirrors
  intro declRange listedDecls _ mirrors areDecls
  apply (addExprList_prepares body).andThen mirrors
  intro bodyRange listedBody toBody mirrors isBody
  apply add_follows mirrors
  intro location
  refine Arena.exprRecord_eq_ok.mpr ⟨.letIn decls body, ?_, rfl, rfl⟩
  simp only [Arena.shape, toBody.retains.declList declRange decls areDecls, isBody, bind,
    Except.bind]

private theorem identifier_follows (mirrors : builder.Mirrors store) (text : String) :
    (Builder.identifier text).Follows .expr builder (1 + 1)
      (Store.perform (.identifier text)) store := by
  apply (intern_prepares mirrors.indexed text).andThen mirrors
  intro name named _ mirrors isText
  change (Builder.add (.identifier name none named.depth)).Follows .expr named 1
    (Store.addExpr (.identifier text none store.depth)) store
  apply add_follows mirrors
  intro location
  refine Arena.exprRecord_eq_ok.mpr ⟨.identifier name none named.depth, rfl, ?_, rfl⟩
  simp only [Arena.content, isText, Except.map, mirrors.depth]

private theorem call_follows (mirrors : builder.Mirrors store) (function : String)
    (arguments : List ExprId) :
    (Builder.call function arguments).Follows .expr builder (1 + (arguments.length + 1))
      (Store.addExpr (.call function arguments none)) store := by
  apply (intern_prepares mirrors.indexed function).andThen mirrors
  intro name named _ mirrors isText
  apply (addExprList_prepares arguments).andThen mirrors
  intro range listed toList mirrors isList
  apply add_follows mirrors
  intro location
  refine Arena.exprRecord_eq_ok.mpr ⟨.call name arguments none, ?_, ?_, rfl⟩
  · simp only [Arena.shape, isList, bind, Except.bind]
  · simp only [Arena.content, toList.retains.text name function isText, Except.map]

private theorem declareFunction_follows (mirrors : builder.Mirrors store) (text : String)
    (parameters : List DeclId) (resultText : Option String) (body : ExprId) :
    (Builder.declareFunction text parameters resultText body).Follows .decl builder
      (parameters.length + (1 + (1 + 1)))
      (Store.addDecl text resultText (.function parameters body none)) store := by
  apply (addDeclList_prepares parameters).andThen mirrors
  intro range listed _ mirrors isList
  apply declare_follows mirrors
  simp only [Arena.declContent, Arena.text?, isList, bind, Except.bind]

private theorem resolveBreak_follows (mirrors : builder.Mirrors store) (leave loop : ExprId) :
    (Builder.resolveBreak leave loop).Follows .changed builder 0
      (Store.perform (.resolveBreak leave loop)) store := by
  have linked := amendExpr_follows mirrors leave (fun expr record read =>
    (amendments_of_exprRecord read).2.2 loop)
  obtain ⟨arena, location, depth⟩ := builder
  unfold BuildM.Follows Store.perform Builder.resolveBreak Builder.onArena at *
  rcases mirrors.expr_cases loop with ⟨missing, missingToo⟩ | ⟨expr, record, found, read, same⟩
  · simp only [missing, missingToo]
    exact ⟨rfl, mirrors, .refl _ _⟩
  · simp only [found, same, (amendments_of_exprRecord read).1]
    by_cases loops : expr.form.isLoop
    · simp only [if_pos loops]
      exact linked
    · simp only [if_neg loops]
      exact ⟨store, rfl, mirrors, .refl _ _⟩

private theorem setLoweredName_follows (mirrors : builder.Mirrors store) (id : DeclId)
    (symbol : String) :
    (Builder.setLoweredName id symbol).Follows .changed builder (1 + 0)
      (Store.perform (.setLoweredName id symbol)) store := by
  apply (intern_prepares mirrors.indexed symbol).andThen mirrors
  intro name named _ mirrors isText
  apply amendDecl_follows mirrors
  intro decl record read
  exact withLoweredName?_commutes isText read

/-- Each call does to the builder what it does to the store. -/
theorem perform_follows (mirrors : builder.Mirrors store) (call : BuildCall) :
    (Builder.perform call).Follows id builder call.entries (Store.perform call) store := by
  cases call with
  | moveTo location =>
      exact ⟨{ store with location := location }, rfl, { mirrors with location := rfl },
        .refl _, Nat.le_add_right _ _⟩
  | enterDepth depth =>
      exact ⟨{ store with depth := depth }, rfl, { mirrors with depth := rfl },
        .refl _, Nat.le_add_right _ _⟩
  | string contents =>
      apply (follows_map (string_follows mirrors contents)).mono
      simp [BuildCall.entries]
  | sequence elements =>
      apply (follows_map (sequence_follows mirrors elements)).mono
      simp [BuildCall.entries, BuildCall.mentions]
  | letIn decls body =>
      apply (follows_map (letIn_follows mirrors decls body)).mono
      simp [BuildCall.entries, BuildCall.mentions]
      omega
  | identifier text =>
      apply (follows_map (identifier_follows mirrors text)).mono
      simp [BuildCall.entries]
  | call function arguments =>
      apply (follows_map (call_follows mirrors function arguments)).mono
      simp [BuildCall.entries, BuildCall.mentions]
      omega
  | declareVariable text typeText initializer =>
      apply (follows_map (declare_follows mirrors text typeText rfl)).mono
      simp [BuildCall.entries]
  | declareParameter text typeText =>
      apply (follows_map (declare_follows mirrors text typeText rfl)).mono
      simp [BuildCall.entries]
  | declareFunction text parameters resultText body =>
      apply (follows_map (declareFunction_follows mirrors text parameters resultText body)).mono
      simp [BuildCall.entries, BuildCall.mentions]
  | resolve use target =>
      exact (follows_map (amendExpr_follows mirrors use (fun expr record read =>
        (amendments_of_exprRecord read).2.1 target))).mono (Nat.zero_le _)
  | resolveBreak leave loop =>
      exact (follows_map (resolveBreak_follows mirrors leave loop)).mono (Nat.zero_le _)
  | setEscapes id escapes =>
      have follows : (Builder.setEscapes id escapes).Follows .changed builder 0
          (Store.perform (.setEscapes id escapes)) store := by
        rw [Builder.setEscapes, Store.perform]
        apply amendDecl_follows mirrors
        intro decl record read
        exact congrArg some (declRecord_withEscapes escapes read)
      exact (follows_map follows).mono (Nat.zero_le _)
  | setType id type =>
      have follows : (Builder.setType id type).Follows .changed builder 0
          (Store.perform (.setType id type)) store := by
        rw [Builder.setType, Store.perform]
        apply amendDecl_follows mirrors
        intro decl record read
        exact congrArg some (declRecord_withType type read)
      exact (follows_map follows).mono (Nat.zero_le _)
  | setLoweredName id symbol =>
      apply (follows_map (setLoweredName_follows mirrors id symbol)).mono
      simp [BuildCall.entries]
  | _ =>
      -- no lists and no texts: the form is the content
      apply (follows_map (add_follows mirrors (fun _ => rfl))).mono
      simp [BuildCall.entries]

end
end TigerTree
