import TigerTree.Proofs.Building.Nodes
import TigerTree.Proofs.Building.Soundness
import TigerTree.Proofs.Evaluation.Meaning
import TigerTree.Proofs.Rendering.Nesting

/-! Runs of a builder. A run is a sequence of calls, each handed only nodes that earlier calls
answered; a call that fails answers nothing and leaves the tables as they then are. Every node
that a run answers is sound in the end, whatever has been linked to what. -/

set_option autoImplicit false

namespace TigerTree

inductive BuildCall where
  | moveTo (location : Location)
  | enterDepth (depth : UInt32)
  | int (value : Int32)
  | string (contents : String)
  | binary (operator : Operator) (left right : ExprId)
  | sequence (elements : List ExprId)
  | letIn (decls : List DeclId) (body : List ExprId)
  | identifier (text : String)
  | ifThenElse (condition thenBranch elseBranch : ExprId)
  | call (function : String) (arguments : List ExprId)
  | whileLoop (condition body : ExprId)
  | forLoop (loopVariable : DeclId) (high body : ExprId)
  | breakLoop
  | assign (target value : ExprId)
  | declareVariable (text : String) (typeText : Option String) (initializer : ExprId)
  | declareParameter (text : String) (typeText : Option String)
  | declareFunction (text : String) (parameters : List DeclId) (resultText : Option String)
      (body : ExprId)
  | resolve (use : ExprId) (target : DeclId)
  | resolveBreak (leave loop : ExprId)
  | setEscapes (id : DeclId) (escapes : Bool)
  | setType (id : DeclId) (type : SemanticType)
  | setLoweredName (id : DeclId) (symbol : String)

inductive BuildReply where
  | done
  | node (node : NodeId)
  | changed (answer : Bool)

def BuildReply.expr (id : ExprId) : BuildReply := .node (.expr id)

def BuildReply.decl (id : DeclId) : BuildReply := .node (.decl id)

def Builder.perform : BuildCall → BuildM BuildReply
  | .moveTo location => (fun _ => .done) <$> moveTo location
  | .enterDepth depth => (fun _ => .done) <$> enterDepth depth
  | .int value => .expr <$> int value
  | .string contents => .expr <$> string contents
  | .binary operator left right => .expr <$> binary operator left right
  | .sequence elements => .expr <$> sequence elements
  | .letIn decls body => .expr <$> letIn decls body
  | .identifier text => .expr <$> identifier text
  | .ifThenElse condition thenBranch elseBranch =>
      .expr <$> ifThenElse condition thenBranch elseBranch
  | .call function arguments => .expr <$> call function arguments
  | .whileLoop condition body => .expr <$> whileLoop condition body
  | .forLoop loopVariable high body =>
      .expr <$> forLoop loopVariable high body
  | .breakLoop => .expr <$> breakLoop
  | .assign target value => .expr <$> assign target value
  | .declareVariable text typeText initializer =>
      .decl <$> declareVariable text typeText initializer
  | .declareParameter text typeText =>
      .decl <$> declareParameter text typeText
  | .declareFunction text parameters resultText body =>
      .decl <$> declareFunction text parameters resultText body
  | .resolve use target => .changed <$> resolve use target
  | .resolveBreak leave loop => .changed <$> resolveBreak leave loop
  | .setEscapes id escapes => .changed <$> setEscapes id escapes
  | .setType id type => .changed <$> setType id type
  | .setLoweredName id symbol => .changed <$> setLoweredName id symbol

def BuildCall.mentions : BuildCall → List NodeId
  | .moveTo _ | .enterDepth _ | .int _ | .string _ | .identifier _ | .breakLoop
  | .declareParameter _ _ => []
  | .binary _ left right => [.expr left, .expr right]
  | .sequence elements => elements.map .expr
  | .letIn decls body => decls.map .decl ++ body.map .expr
  | .ifThenElse condition thenBranch elseBranch =>
      [.expr condition, .expr thenBranch, .expr elseBranch]
  | .call _ arguments => arguments.map .expr
  | .whileLoop condition body => [.expr condition, .expr body]
  | .forLoop loopVariable high body => [.decl loopVariable, .expr high, .expr body]
  | .assign target value => [.expr target, .expr value]
  | .declareVariable _ _ initializer => [.expr initializer]
  | .declareFunction _ parameters _ body => parameters.map .decl ++ [.expr body]
  | .resolve use target => [.expr use, .decl target]
  | .resolveBreak leave loop => [.expr leave, .expr loop]
  | .setEscapes id _ | .setType id _ | .setLoweredName id _ => [.decl id]

/-- The state that a step leaves, whether it failed or not. -/
def stateAfter {Failure State Result : Type} (step : EStateM Failure State Result)
    (state : State) : State :=
  match step state with
  | .ok _ new => new
  | .error _ new => new

namespace Builder

def after (builder : Builder) (call : BuildCall) : Builder :=
  stateAfter (perform call) builder

def answered (builder : Builder) (call : BuildCall) : List NodeId :=
  match perform call builder with
  | .ok (.node node) _ => [node]
  | _ => []

/-- The builder is reached from a new one by calls that mention only nodes answered before them;
the list holds all nodes answered so far, the last one first. -/
inductive Reached : Builder → List NodeId → Prop
  | fresh : Reached initial []
  | step {builder : Builder} {nodes : List NodeId} (call : BuildCall)
      (reached : Reached builder nodes) (grounded : ∀ node ∈ call.mentions, node ∈ nodes) :
      Reached (builder.after call) (builder.answered call ++ nodes)

/-! ### One call -/

structure Holds (builder : Builder) (call : BuildCall) : Prop where
  indexed : (builder.after call).arena.names.Indexed
  keeps : builder.arena.Extends (builder.after call).arena
  answers : ∀ node ∈ builder.answered call, (builder.after call).arena.Sound node

variable {builder : Builder} {call : BuildCall}

private theorem isIntact_heading {heading : Heading} {text : String} {typeText : Option String}
    (named : heading.name = .ok text) (typed : heading.typeName = typeText.map .ok) :
    heading.isIntact := by
  rw [Heading.isIntact, named, typed]
  cases typeText <;> rfl

private theorem holds_of_adds {Result : Type} {step : BuildM Result} (node : Result → NodeId)
    (performs : perform call = (fun id => .node (node id)) <$> step)
    (indexed : builder.arena.names.Indexed)
    (adds : step.Adds builder (fun id new => new.Sound (node id))) : builder.Holds call := by
  unfold BuildM.Adds at adds
  cases run : step builder with
  | ok id new =>
      rw [run] at adds
      have performed : perform call builder = .ok (.node (node id)) new := by
        rw [performs]
        simp only [Functor.map, EStateM.map, run]
      have isAfter : builder.after call = new := by rw [after, stateAfter, performed]
      have isAnswer : builder.answered call = [node id] := by rw [answered, performed]
      refine ⟨?_, ?_, ?_⟩
      · rw [isAfter]
        exact adds.1.indexed indexed
      · rw [isAfter]
        exact adds.1.keeps.extends
      · rw [isAfter, isAnswer]
        intro answer isNode
        rw [List.mem_singleton.mp isNode]
        exact adds.2
  | error fault new =>
      rw [run] at adds
      have performed : perform call builder = .error fault new := by
        rw [performs]
        simp only [Functor.map, EStateM.map, run]
      have isAfter : builder.after call = new := by rw [after, stateAfter, performed]
      have isAnswer : builder.answered call = [] := by rw [answered, performed]
      refine ⟨?_, ?_, ?_⟩
      · rw [isAfter]
        exact adds.indexed indexed
      · rw [isAfter]
        exact adds.keeps.extends
      · rw [isAnswer]
        intro answer isNode
        cases isNode

private theorem holds_of_layer {Result : Type} {step : BuildM Result} (node : Result → NodeId)
    (performs : perform call = (fun id => .node (node id)) <$> step)
    (indexed : builder.arena.names.Indexed)
    (sound : ∀ mentioned ∈ call.mentions, builder.arena.Sound mentioned)
    (adds : step.Adds builder (fun id new =>
      ∃ layer, new.layer (node id) = layer ∧ layer.isIntact ∧ layer.children = call.mentions)) :
    builder.Holds call := by
  refine holds_of_adds node performs indexed (adds.imp ?_)
  intro id new grows reads
  obtain ⟨layer, rfl, intact, children⟩ := reads
  refine .node (node id) intact ?_
  intro child isChild
  rw [children] at isChild
  exact (sound child isChild).mono grows.keeps.extends

private theorem holds_of_reply {Result : Type} {step : BuildM Result} (reply : Result → BuildReply)
    (performs : perform call = reply <$> step) (noNode : ∀ result node, reply result ≠ .node node)
    (indexed : (stateAfter step builder).arena.names.Indexed)
    (keeps : builder.arena.Extends (stateAfter step builder).arena) : builder.Holds call := by
  have isAfter : builder.after call = stateAfter step builder := by
    rw [after, performs]
    simp only [stateAfter, Functor.map, EStateM.map]
    cases step builder <;> rfl
  refine ⟨?_, ?_, ?_⟩
  · rw [isAfter]
    exact indexed
  · rw [isAfter]
    exact keeps
  · intro node isNode
    rw [answered, performs] at isNode
    simp only [Functor.map, EStateM.map] at isNode
    split at isNode
    · rename_i answer new performed
      cases run : step builder with
      | ok result state =>
          rw [run] at performed
          exact absurd (EStateM.Result.ok.inj performed).1 (noNode result answer)
      | error fault state =>
          rw [run] at performed
          cases performed
    · cases isNode

theorem stateAfter_onArena {Result : Type} (change : ArenaM Result) (builder : Builder) :
    (stateAfter (onArena change) builder).arena = stateAfter change builder.arena := by
  obtain ⟨arena, location, depth⟩ := builder
  unfold stateAfter onArena
  simp only
  cases change arena <;> rfl

theorem amendExpr_cases (arena : Arena) (id : ExprId) (amendment : Expr → Option Expr) :
    stateAfter (Arena.amendExpr id amendment) arena = arena ∨
      ∃ expr amended, arena.expr id = .ok expr ∧ amendment expr = some amended ∧
        stateAfter (Arena.amendExpr id amendment) arena = arena.withExpr id amended := by
  unfold stateAfter Arena.amendExpr
  cases found : arena.expr id with
  | error fault => exact .inl rfl
  | ok expr =>
      cases amends : amendment expr with
      | none => exact .inl (by simp only [amends])
      | some amended => exact .inr ⟨expr, amended, rfl, amends, by simp only [amends]; rfl⟩

theorem amendDecl_cases (arena : Arena) (id : DeclId) (amendment : Decl → Option Decl) :
    stateAfter (Arena.amendDecl id amendment) arena = arena ∨
      ∃ decl amended, arena.decl id = .ok decl ∧ amendment decl = some amended ∧
        stateAfter (Arena.amendDecl id amendment) arena = arena.withDecl id amended := by
  unfold stateAfter Arena.amendDecl
  cases found : arena.decl id with
  | error fault => exact .inl rfl
  | ok decl =>
      cases amends : amendment decl with
      | none => exact .inl (by simp only [amends])
      | some amended => exact .inr ⟨decl, amended, rfl, amends, by simp only [amends]; rfl⟩

private theorem extends_self (arena : Arena) : arena.Extends arena :=
  fun _ intact => ⟨intact, rfl⟩

private theorem amendExpr_keeps {arena : Arena} {amendment : Expr → Option Expr}
    (relinks : ∀ expr amended, amendment expr = some amended → arena.Relinked expr amended)
    (id : ExprId) :
    arena.Extends (stateAfter (Arena.amendExpr id amendment) arena) ∧
      (stateAfter (Arena.amendExpr id amendment) arena).names = arena.names := by
  rcases amendExpr_cases arena id amendment with unchanged | ⟨expr, amended, found, amends, changed⟩
  · rw [unchanged]
    exact ⟨extends_self arena, rfl⟩
  · rw [changed]
    exact ⟨(Arena.keeps_withExpr found (relinks expr amended amends)).extends, rfl⟩

private theorem amendDecl_keeps {arena : Arena} {amendment : Decl → Option Decl}
    (redecorates : ∀ decl amended, amendment decl = some amended →
      arena.Redecorated decl amended) (id : DeclId) :
    arena.Extends (stateAfter (Arena.amendDecl id amendment) arena) ∧
      (stateAfter (Arena.amendDecl id amendment) arena).names = arena.names := by
  rcases amendDecl_cases arena id amendment with unchanged | ⟨decl, amended, found, amends, changed⟩
  · rw [unchanged]
    exact ⟨extends_self arena, rfl⟩
  · rw [changed]
    exact ⟨(Arena.keeps_withDecl found (redecorates decl amended amends)).extends, rfl⟩

private theorem redecorates_loweredName {arena : Arena} {symbol : Name}
    (found : (arena.text symbol).isOk) (decl amended : Decl)
    (isAmended : decl.withLoweredName? symbol = some amended) :
    arena.Redecorated decl amended := by
  obtain ⟨parameters, body, loweredName, form, rfl⟩ := Decl.withLoweredName?_eq_some isAmended
  exact ⟨rfl, rfl, .inr ⟨parameters, body, loweredName, symbol, form, rfl, found⟩⟩

private theorem holds_of_change {change : ArenaM Bool} (amendment : ArenaM Bool)
    (performs : perform call = .changed <$> onArena change)
    (same : change builder.arena = amendment builder.arena)
    (indexed : builder.arena.names.Indexed)
    (keeps : builder.arena.Extends (stateAfter amendment builder.arena) ∧
      (stateAfter amendment builder.arena).names = builder.arena.names) : builder.Holds call := by
  have isAfter : (stateAfter (onArena change) builder).arena =
      stateAfter amendment builder.arena := by
    rw [stateAfter_onArena]
    unfold stateAfter
    rw [same]
  refine holds_of_reply .changed performs (fun _ _ same => by cases same) ?_ ?_
  · rw [isAfter, keeps.2]
    exact indexed
  · rw [isAfter]
    exact keeps.1

private theorem sound_loop {arena : Arena} {id high body : ExprId} {loopVariable : DeclId}
    {location : Location}
    (isLayer : arena.layer (.expr id) =
      .forLoop location (arena.loopStart loopVariable) (.expr high) (.expr body))
    (soundVariable : arena.Sound (.decl loopVariable)) (soundHigh : arena.Sound (.expr high))
    (soundBody : arena.Sound (.expr body)) : arena.Sound (.expr id) := by
  cases soundVariable with
  | node _ intact below =>
      rcases Arena.loopStart_of_intact intact with missing | ⟨heading, low, bound, named, isLow⟩
      · rw [missing] at isLayer
        refine .node _ (by rw [isLayer]; rfl) ?_
        rw [isLayer]
        simp [Layer.children, LoopStart.children, soundHigh, soundBody]
      · rw [bound] at isLayer
        refine .node _ (by rw [isLayer]; exact named) ?_
        rw [isLayer]
        simp [Layer.children, LoopStart.children, below low isLow, soundHigh, soundBody]

/-- Every call keeps what is sound, and answers only what is. -/
theorem holds_of_sound (indexed : builder.arena.names.Indexed)
    (sound : ∀ mentioned ∈ call.mentions, builder.arena.Sound mentioned) :
    builder.Holds call := by
  cases call with
  | moveTo location =>
      exact holds_of_reply _ rfl (fun _ _ same => by cases same) indexed (extends_self _)
  | enterDepth depth =>
      exact holds_of_reply _ rfl (fun _ _ same => by cases same) indexed (extends_self _)
  | int value =>
      refine holds_of_layer .expr rfl indexed sound ((int_adds builder value).imp ?_)
      rintro id new - ⟨location, isLayer⟩
      exact ⟨_, isLayer, rfl, rfl⟩
  | string contents =>
      refine holds_of_layer .expr rfl indexed sound ((string_adds builder indexed contents).imp ?_)
      rintro id new - ⟨location, isLayer⟩
      exact ⟨_, isLayer, rfl, rfl⟩
  | binary operator left right =>
      refine holds_of_layer .expr rfl indexed sound
        ((binary_adds builder operator left right).imp ?_)
      rintro id new - ⟨location, isLayer⟩
      exact ⟨_, isLayer, rfl, rfl⟩
  | sequence elements =>
      refine holds_of_layer .expr rfl indexed sound ((sequence_adds builder elements).imp ?_)
      rintro id new - ⟨location, isLayer⟩
      exact ⟨_, isLayer, rfl, rfl⟩
  | letIn decls body =>
      refine holds_of_layer .expr rfl indexed sound ((letIn_adds builder decls body).imp ?_)
      rintro id new - ⟨location, isLayer⟩
      exact ⟨_, isLayer, rfl, rfl⟩
  | identifier text =>
      refine holds_of_layer .expr rfl indexed sound ((identifier_adds builder indexed text).imp ?_)
      rintro id new - ⟨location, depth, isLayer⟩
      exact ⟨_, isLayer, rfl, rfl⟩
  | ifThenElse condition thenBranch elseBranch =>
      refine holds_of_layer .expr rfl indexed sound
        ((ifThenElse_adds builder condition thenBranch elseBranch).imp ?_)
      rintro id new - ⟨location, isLayer⟩
      exact ⟨_, isLayer, rfl, rfl⟩
  | call function arguments =>
      refine holds_of_layer .expr rfl indexed sound
        ((call_adds builder indexed function arguments).imp ?_)
      rintro id new - ⟨location, isLayer⟩
      exact ⟨_, isLayer, rfl, rfl⟩
  | whileLoop condition body =>
      refine holds_of_layer .expr rfl indexed sound ((whileLoop_adds builder condition body).imp ?_)
      rintro id new - ⟨location, isLayer⟩
      exact ⟨_, isLayer, rfl, rfl⟩
  | forLoop loopVariable high body =>
      refine holds_of_adds .expr rfl indexed ((forLoop_adds builder loopVariable high body).imp ?_)
      intro id new grows added
      obtain ⟨location, isLayer⟩ := added
      have later {mentioned : NodeId}
          (isMentioned : mentioned ∈ (BuildCall.forLoop loopVariable high body).mentions) :
          new.Sound mentioned :=
        (sound mentioned isMentioned).mono grows.keeps.extends
      exact sound_loop isLayer (later List.mem_cons_self) (later (.tail _ List.mem_cons_self))
        (later (.tail _ (.tail _ List.mem_cons_self)))
  | breakLoop =>
      refine holds_of_layer .expr rfl indexed sound ((breakLoop_adds builder).imp ?_)
      rintro id new - ⟨location, isLayer⟩
      exact ⟨_, isLayer, rfl, rfl⟩
  | assign target value =>
      refine holds_of_layer .expr rfl indexed sound ((assign_adds builder target value).imp ?_)
      rintro id new - ⟨location, isLayer⟩
      exact ⟨_, isLayer, rfl, rfl⟩
  | declareVariable text typeText initializer =>
      refine holds_of_layer .decl rfl indexed sound
        ((declareVariable_adds builder indexed text typeText initializer).imp ?_)
      rintro id new - ⟨heading, named, typed, isLayer⟩
      exact ⟨_, isLayer, isIntact_heading named typed, rfl⟩
  | declareParameter text typeText =>
      refine holds_of_layer .decl rfl indexed sound
        ((declareParameter_adds builder indexed text typeText).imp ?_)
      rintro id new - ⟨heading, named, typed, isLayer⟩
      exact ⟨_, isLayer, isIntact_heading named typed, rfl⟩
  | declareFunction text parameters resultText body =>
      refine holds_of_layer .decl rfl indexed sound
        ((declareFunction_adds builder indexed text parameters resultText body).imp ?_)
      rintro id new - ⟨heading, named, typed, isLayer⟩
      refine ⟨_, isLayer, ?_, rfl⟩
      simp only [Layer.isIntact, isIntact_heading named typed, Bool.true_and]
      rfl
  | resolve use target =>
      have found : (builder.arena.decl target).isOk :=
        (sound (.decl target) (by simp [BuildCall.mentions])).isOk_decl
      refine holds_of_change _ rfl rfl indexed (amendExpr_keeps ?_ _)
      intro expr amended isAmended
      exact .inr (.inl ⟨target, found, isAmended⟩)
  | resolveBreak leave loop =>
      have found : (builder.arena.expr loop).isOk :=
        (sound (.expr loop) (by simp [BuildCall.mentions])).isOk_expr
      cases isExpr : builder.arena.expr loop with
      | error fault =>
          rw [isExpr] at found
          cases found
      | ok expr =>
          by_cases loops : expr.form.isLoop
          · refine holds_of_change (Arena.amendExpr leave (Expr.withLoop? loop)) rfl
              (by simp only [isExpr, if_pos loops]) indexed (amendExpr_keeps ?_ _)
            intro leaving amended isAmended
            exact .inr (.inr ⟨loop, found, isAmended⟩)
          · exact holds_of_change (pure false) rfl (by simp only [isExpr, if_neg loops]; rfl)
              indexed ⟨extends_self _, rfl⟩
  | setEscapes id escapes =>
      refine holds_of_change _ rfl rfl indexed (amendDecl_keeps ?_ _)
      intro decl amended isAmended
      cases isAmended
      exact ⟨rfl, rfl, .inl rfl⟩
  | setType id type =>
      refine holds_of_change _ rfl rfl indexed (amendDecl_keeps ?_ _)
      intro decl amended isAmended
      cases isAmended
      exact ⟨rfl, rfl, .inl rfl⟩
  | setLoweredName id symbol =>
      -- the text stays interned also where there is no function to give it to
      obtain ⟨arena, location, depth⟩ := builder
      have adds := Arena.intern_adds arena indexed symbol
      unfold ArenaM.Adds at adds
      cases run : Arena.intern symbol arena with
      | error fault new =>
          rw [run] at adds
          have isAfter : stateAfter (setLoweredName id symbol) ⟨arena, location, depth⟩ =
              ⟨new, location, depth⟩ := by
            simp only [stateAfter, setLoweredName, bind, EStateM.bind, onArena, run]
          refine holds_of_reply .changed rfl (fun _ _ same => by cases same) ?_ ?_
          · rw [isAfter]
            exact adds.indexed indexed
          · rw [isAfter]
            exact adds.keeps.extends
      | ok name new =>
          rw [run] at adds
          have isAfter : stateAfter (setLoweredName id symbol) ⟨arena, location, depth⟩ =
              stateAfter (onArena (Arena.amendDecl id (Decl.withLoweredName? name)))
                ⟨new, location, depth⟩ := by
            simp only [stateAfter, setLoweredName, bind, EStateM.bind, onArena, run]
          have kept := amendDecl_keeps (redecorates_loweredName (congrArg _ adds.2)) id
          refine holds_of_reply .changed rfl (fun _ _ same => by cases same) ?_ ?_
          · rw [isAfter, stateAfter_onArena, kept.2]
            exact adds.1.indexed indexed
          · rw [isAfter, stateAfter_onArena]
            exact adds.1.keeps.extends.trans kept.1

/-! ### Whole runs -/

theorem sound_of_reached {nodes : List NodeId} (reached : Reached builder nodes) :
    builder.arena.names.Indexed ∧ ∀ node ∈ nodes, builder.arena.Sound node := by
  induction reached with
  | fresh => exact ⟨NameTable.indexed_initial, fun _ isNode => by cases isNode⟩
  | step call reached grounded ih =>
      have holds := holds_of_sound ih.1
        (fun node isMentioned => ih.2 node (grounded node isMentioned))
      refine ⟨holds.indexed, ?_⟩
      intro node isNode
      rcases List.mem_append.mp isNode with isAnswer | earlier
      · exact holds.answers node isAnswer
      · exact (ih.2 node earlier).mono holds.keeps

/-- Makes the calls in order, as long as each mentions only nodes answered before it. -/
def makeCalls (builder : Builder) (nodes : List NodeId) :
    List BuildCall → Option (Builder × List NodeId)
  | [] => some (builder, nodes)
  | call :: rest =>
      if ∀ node ∈ call.mentions, node ∈ nodes then
        makeCalls (builder.after call) (builder.answered call ++ nodes) rest
      else none

theorem reached_of_makeCalls {last : Builder} {nodes answers : List NodeId}
    {calls : List BuildCall} (reached : Reached builder nodes)
    (made : makeCalls builder nodes calls = some (last, answers)) : Reached last answers := by
  induction calls generalizing builder nodes with
  | nil =>
      cases made
      exact reached
  | cons call rest ih =>
      rw [makeCalls] at made
      split at made
      · rename_i grounded
        exact ih (.step call reached grounded) made
      · cases made

end Builder

namespace Arena

variable {arena : Arena} {node : NodeId}

theorem Sound.evaluate (sound : arena.Sound node) :
    (∃ value, arena.evaluate node = .ok value) ∨
      ∃ error, arena.evaluate node = .error (.diagnosed error) := by
  have unfaulted : (arena.unfold node).meaning.Unfaulted :=
    Tree.unfaulted_meaning (intact_unfold sound.acyclic sound.throughout)
  have computes : EvalM.toMeaning (arena.evaluate node) = (arena.unfold node).meaning := by
    cases node with
    | expr id => exact evaluateWithin_toMeaning arena arena.pathBound id sound.acyclic.within
    | decl id => exact evaluate_decl_toMeaning arena id sound.acyclic
  rw [← computes] at unfaulted
  cases outcome : arena.evaluate node with
  | ok value => exact .inl ⟨value, rfl⟩
  | error stop =>
      cases stop with
      | diagnosed error => exact .inr ⟨error, rfl⟩
      | faulted fault =>
          rw [outcome] at unfaulted
          exact absurd rfl (unfaulted fault)

theorem Sound.render (sound : arena.Sound node) (style : Style)
    (room : style.indentSize.toNat * (arena.unfold node).nesting < Page.widthLimit) :
    (∃ text, arena.render style node = .ok text) ∨
      ∃ violation location,
        arena.render style node = .error (.diagnosed (.violated violation location)) := by
  have intact := intact_unfold sound.acyclic sound.throughout
  rw [render_of_fits rfl (Tree.fits_of_nesting style.verbose room)]
  cases stops : ((arena.unfold node).passage style.verbose).stop with
  | none => exact .inl ⟨_, rfl⟩
  | some stopped =>
      obtain ⟨reason, depth⟩ := stopped
      obtain ⟨violation, location, rfl⟩ := Tree.diagnosed_of_intact style.verbose intact stops
      exact .inr ⟨violation, location, rfl⟩

end Arena

/-- Whatever a run answers is the root of a finite tree in which every lookup succeeds, links
included; evaluating it yields a value or an objection, and so does rendering it in any style
whose indentation has room. -/
theorem consumable_of_reached {builder : Builder} {nodes : List NodeId}
    (reached : Builder.Reached builder nodes) {node : NodeId} (answered : node ∈ nodes) :
    builder.arena.Acyclic node ∧
      builder.arena.Throughout (fun layer => layer.isIntact) node ∧
      ((∃ value, builder.arena.evaluate node = .ok value) ∨
        ∃ error, builder.arena.evaluate node = .error (.diagnosed error)) ∧
      ∀ style : Style,
        style.indentSize.toNat * (builder.arena.unfold node).nesting < Page.widthLimit →
          (∃ text, builder.arena.render style node = .ok text) ∨
            ∃ violation location, builder.arena.render style node =
              .error (.diagnosed (.violated violation location)) := by
  have sound := (Builder.sound_of_reached reached).2 node answered
  exact ⟨sound.acyclic, sound.throughout, sound.evaluate, sound.render⟩

/-- A break that leads back to the loop around it and a function that calls itself. -/
def loopedCalls : List BuildCall :=
  [.int 1, .breakLoop, .whileLoop ⟨0⟩ ⟨1⟩, .resolveBreak ⟨1⟩ ⟨2⟩, .call "f" [],
    .declareFunction "f" [] none ⟨3⟩, .resolve ⟨3⟩ ⟨0⟩, .letIn [⟨0⟩] [⟨2⟩, ⟨3⟩]]

def looped : Builder × List NodeId :=
  (Builder.makeCalls Builder.initial [] loopedCalls).getD (Builder.initial, [])

theorem consumable_looped :
    Builder.Reached looped.1 looped.2 ∧ .expr ⟨4⟩ ∈ looped.2 ∧
      looped.1.arena.expr ⟨1⟩ = .ok ⟨.breakLoop (some ⟨2⟩), Location.dummy⟩ ∧
      looped.1.arena.Acyclic (.expr ⟨4⟩) ∧
      (looped.1.arena.render Style.commented (.expr ⟨4⟩)).toOption =
        some ("let\n  function f() =\n    f/*decl:0:0*/()\nin\n" ++
          "  while 1 do\n    break/*loop:0:0*/;\n  f/*decl:0:0*/()\nend") := by
  have made : Builder.makeCalls Builder.initial [] loopedCalls = some looped := by decide +kernel
  have reached := Builder.reached_of_makeCalls .fresh made
  have answered : .expr ⟨4⟩ ∈ looped.2 := by decide +kernel
  exact ⟨reached, answered, by rfl, (consumable_of_reached reached answered).1,
    by decide +kernel⟩

end TigerTree
