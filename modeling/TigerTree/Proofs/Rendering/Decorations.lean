import TigerTree.Proofs.Reading.Surface
import TigerTree.Proofs.Rendering.Objections

/-! What a resolver adds to a tree, and that a text without comments shows nothing of it. Two arenas
that are the same without their decorations render alike; where they object, it is to the same
node, and only the location they report may differ. -/

set_option autoImplicit false

namespace TigerTree

variable {Child Other Exprs Decls : Type}

def ExprForm.undecorated : ExprForm Exprs Decls → ExprForm Exprs Decls
  | .identifier name _ _ => .identifier name none 0
  | .call function arguments _ => .call function arguments none
  | .breakLoop _ => .breakLoop none
  | form => form

def Expr.undecorated (expr : Expr) : Expr :=
  ⟨expr.form.undecorated, Location.dummy⟩

def DeclForm.undecorated : DeclForm → DeclForm
  | .function parameters body _ => .function parameters body none
  | .value initializer => .value initializer

/-- The type of a variable that has no written one. Of all others the type is a decoration. -/
def Decl.decisiveType (decl : Decl) : SemanticType :=
  match decl.form, decl.typeName with
  | .value _, none => decl.type
  | _, _ => .undefined

def Decl.undecorated (decl : Decl) : Decl where
  name := decl.name
  location := Location.dummy
  depth := 0
  typeName := decl.typeName
  type := decl.decisiveType
  escapes := false
  form := decl.form.undecorated

namespace Arena

/-- The arena without locations, links, depths, capture marks, lowered names, and types that are
never printed. Lists, names and the numbers of all nodes are kept. -/
def undecorated (arena : Arena) : Arena :=
  { arena with
    exprs := arena.exprs.map Expr.undecorated
    decls := arena.decls.map Decl.undecorated }

variable (arena : Arena)

theorem expr_undecorated (id : ExprId) :
    arena.undecorated.expr id = (arena.expr id).map Expr.undecorated := by
  unfold expr undecorated
  rw [Array.getElem?_map]
  cases arena.exprs[id.index.toNat]? <;> rfl

theorem decl_undecorated (id : DeclId) :
    arena.undecorated.decl id = (arena.decl id).map Decl.undecorated := by
  unfold decl undecorated
  rw [Array.getElem?_map]
  cases arena.decls[id.index.toNat]? <;> rfl

theorem pathBound_undecorated : arena.undecorated.pathBound = arena.pathBound := by
  simp only [pathBound, undecorated, Array.size_map]

end Arena

theorem Layer.surface_map (change : Child → Other) (layer : Layer Child) :
    (layer.map change).surface = layer.surface.map change := by
  cases layer with
  | forLoop location start high body => cases start <;> rfl
  | _ => rfl

theorem Layer.children_surface (layer : Layer Child) : layer.surface.children = layer.children := by
  cases layer with
  | forLoop location start high body => cases start <;> rfl
  | _ => rfl

/-- The surface keeps a violation, but not where it is. -/
theorem Layer.violation?_surface (layer : Layer Child) :
    layer.surface.violation? =
      layer.violation?.map (fun found => (found.1, Location.dummy)) := by
  cases layer with
  | sequence location elements => cases elements <;> rfl
  | letIn location decls body => cases body <;> rfl
  | forLoop location start high body => cases start <;> rfl
  | _ => rfl

namespace Arena

variable (arena : Arena)

private theorem surface_loop (loopVariable : DeclId) (location : Location) (high body : NodeId) :
    (Layer.forLoop Location.dummy (arena.undecorated.loopStart loopVariable) high body).surface =
      (Layer.forLoop location (arena.loopStart loopVariable) high body).surface := by
  simp only [loopStart, decl_undecorated]
  cases arena.decl loopVariable with
  | error fault => rfl
  | ok decl =>
      obtain ⟨name, declared, depth, typeName, type, escapes, form⟩ := decl
      cases form with
      | function parameters functionBody loweredName => rfl
      | value initializer => cases initializer <;> rfl

private theorem shape_undecorated (form : StoredForm) :
    arena.undecorated.shape form.undecorated =
      (arena.shape form).map ExprForm.undecorated := by
  cases form with
  | sequence elements =>
      change (arena.exprList elements >>= _) = (arena.exprList elements >>= _).map _
      cases arena.exprList elements <;> rfl
  | letIn decls body =>
      change (arena.declList decls >>= fun _ => arena.exprList body >>= _) =
        (arena.declList decls >>= fun _ => arena.exprList body >>= _).map _
      cases arena.declList decls with
      | error fault => rfl
      | ok decls => cases arena.exprList body <;> rfl
  | call function arguments link =>
      change (arena.exprList arguments >>= _) = (arena.exprList arguments >>= _).map _
      cases arena.exprList arguments <;> rfl
  | _ => rfl

private theorem surface_shapeLayer (location : Location) (shape : Shape) :
    (arena.undecorated.shapeLayer Location.dummy shape.undecorated).surface =
      (arena.shapeLayer location shape).surface := by
  cases shape with
  | forLoop loopVariable high body => exact arena.surface_loop loopVariable location _ _
  | _ => rfl

private theorem surface_decl (decl : Decl) :
    (arena.undecorated.declLayer decl.undecorated).surface = (arena.declLayer decl).surface := by
  obtain ⟨name, location, depth, typeName, type, escapes, form⟩ := decl
  cases form with
  | function parameters body loweredName => rfl
  | value initializer => cases initializer <;> cases typeName <;> rfl

/-- Without its decorations a node has the surface that it has with them. -/
theorem surface_layer_undecorated (node : NodeId) :
    (arena.undecorated.layer node).surface = (arena.layer node).surface := by
  cases node with
  | expr id =>
      cases found : arena.expr id with
      | error fault =>
          have missing : arena.undecorated.expr id = .error fault := by
            rw [expr_undecorated, found]
            rfl
          rw [layer_expr_missing found, layer_expr_missing missing]
      | ok expr =>
          have foundBare : arena.undecorated.expr id = .ok expr.undecorated := by
            rw [expr_undecorated, found]
            rfl
          have sameShape := arena.shape_undecorated expr.form
          cases resolved : arena.shape expr.form with
          | error fault =>
              rw [resolved] at sameShape
              rw [layer_expr_unresolved found resolved,
                layer_expr_unresolved foundBare sameShape]
          | ok shape =>
              rw [resolved] at sameShape
              rw [layer_expr found resolved, layer_expr foundBare sameShape]
              exact arena.surface_shapeLayer expr.location shape
  | decl id =>
      simp only [layer, decl_undecorated]
      cases arena.decl id with
      | error fault => rfl
      | ok decl => exact arena.surface_decl decl

end Arena

/-! ### Passages up to locations -/

def Stop.unlocated : Stop RenderError → Stop RenderError
  | .diagnosed (.violated violation _) => .diagnosed (.violated violation Location.dummy)
  | stop => stop

namespace Passage

def unlocated (passage : Passage) : Passage :=
  ⟨passage.pieces, passage.stop.map (fun (stop, depth) => (stop.unlocated, depth))⟩

@[simp]
theorem unlocated_empty : unlocated empty = empty := rfl

@[simp]
theorem unlocated_write (piece : Piece) : unlocated (write piece) = write piece := rfl

@[simp]
theorem unlocated_text (words : String) : unlocated (text words) = text words := rfl

@[simp]
theorem unlocated_line : unlocated line = line := rfl

@[simp]
theorem unlocated_halt (stop : Stop RenderError) : unlocated (halt stop) = halt stop.unlocated := rfl

theorem unlocated_look {Result : Type} (lookup : Except Fault Result)
    (written : Result → Passage) :
    unlocated (look lookup written) = look lookup (fun result => unlocated (written result)) := by
  cases lookup <;> rfl

@[simp]
theorem unlocated_append (first second : Passage) :
    unlocated (first ++ second) = unlocated first ++ unlocated second := by
  cases stops : first.stop with
  | none =>
      have completes : (unlocated first).stop = none := by simp [unlocated, stops]
      rw [append_of_complete stops, append_of_complete completes]
      rfl
  | some stopped =>
      have stopsToo : (unlocated first).stop = some (stopped.1.unlocated, stopped.2) := by
        simp [unlocated, stops]
      rw [append_of_stopped stops, append_of_stopped stopsToo]

@[simp]
theorem unlocated_raise (levels : Nat) (passage : Passage) :
    unlocated (raise levels passage) = raise levels (unlocated passage) := by
  obtain ⟨pieces, stop⟩ := passage
  cases stop <;> rfl

theorem reason?_unlocated (passage : Passage) :
    (unlocated passage).reason? = passage.reason?.map Stop.unlocated := by
  simp [unlocated, reason?, Function.comp_def]

@[simp]
theorem unlocated_eachAfter (lead : Passage) (passages : List Passage) :
    unlocated (eachAfter lead passages) =
      eachAfter (unlocated lead) (passages.map unlocated) := by
  induction passages with
  | nil => rfl
  | cons passage rest ih =>
      simp only [eachAfter, List.map_cons, unlocated_append, ih]

@[simp]
theorem unlocated_joined (separator : Passage) (passages : List Passage) :
    unlocated (joined separator passages) =
      joined (unlocated separator) (passages.map unlocated) := by
  cases passages with
  | nil => rfl
  | cons passage rest => simp only [joined, List.map_cons, unlocated_append, unlocated_eachAfter]

end Passage

private theorem name_plain (name : Except Fault String)
    (typeName : Option (Except Fault String)) : (Heading.plain name typeName).name = name := rfl

private theorem ofItems_printedType (heading : Heading) (name : Except Fault String) :
    Passage.ofItems false (Item.variableType (.plain name heading.printedType)) =
      (Passage.ofItems false (Item.variableType heading)).unlocated := by
  obtain ⟨headingName, location, depth, typeName, type, escapes⟩ := heading
  cases typeName with
  | some typeName => cases typeName <;> rfl
  | none => cases type <;> rfl

private theorem ofItems_resultType (heading : Heading) (name : Except Fault String) :
    Passage.ofItems false (Item.resultType (.plain name heading.typeName)) =
      (Passage.ofItems false (Item.resultType heading)).unlocated := by
  obtain ⟨headingName, location, depth, typeName, type, escapes⟩ := heading
  cases typeName with
  | some typeName => cases typeName <;> rfl
  | none => rfl

/-- Without comments a node writes what its surface writes, up to the location of an objection. -/
theorem Layer.passage_surface (layer : Layer Passage) :
    (layer.map Passage.unlocated).surface.passage false = (layer.passage false).unlocated := by
  cases layer with
  | broken fault => rfl
  | sequence location elements =>
      cases elements with
      | nil => rfl
      | cons first rest => simp [Layer.passage, map, surface, sketch]
  | letIn location decls body =>
      cases body with
      | nil => rfl
      | cons first rest => simp [Layer.passage, map, surface, sketch]
  | call location function site arguments =>
      simp [Layer.passage, map, surface, sketch, Passage.unlocated_look, Function.comp_def]
  | forLoop location start high body =>
      cases start with
      | lost fault => rfl
      | missing => rfl
      | bound heading low =>
          simp [Layer.passage, map, LoopStart.map, surface, sketch, name_plain,
            Passage.unlocated_look]
  | varDecl heading initializer =>
      simp [Layer.passage, map, surface, sketch, name_plain, ofItems_printedType,
        Passage.unlocated_look]
  | parameter heading =>
      simp [Layer.passage, map, surface, sketch, name_plain, ofItems_printedType,
        Passage.unlocated_look]
  | funDecl heading loweredName parameters body =>
      cases parameters with
      | error fault =>
          simp [Layer.passage, map, surface, sketch, Except.map, name_plain,
            Passage.unlocated_look]
          rfl
      | ok parameters =>
          simp [Layer.passage, map, surface, sketch, Except.map, name_plain, ofItems_resultType,
            Passage.unlocated_look, Function.comp_def]
  | _ => simp [Layer.passage, map, surface, sketch, Passage.unlocated_look]

/-! ### Arenas that differ in decorations -/

theorem Tree.passage_surface (tree : Tree) :
    tree.surface.passage false = (tree.passage false).unlocated := by
  induction tree with
  | node layer ih =>
      have below : layer.map (fun child => child.surface.passage false) =
          (layer.map (Tree.passage false)).map Passage.unlocated := by
        rw [Layer.map_map]
        exact layer.map_congr ih
      rw [surface_node, passage_node, passage_node, ← Layer.passage_surface, ← below,
        ← Layer.surface_map, Layer.map_map]

namespace Arena

private theorem render_of_reason {arena : Arena} {root : NodeId} {indentSize : UInt64}
    (fits : Fits indentSize 0 ((arena.unfold root).passage false).pieces) :
    arena.render ⟨indentSize, false⟩ root =
      match ((arena.unfold root).passage false).reason? with
      | none => .ok (String.ofList (spell indentSize 0 ((arena.unfold root).passage false).pieces))
      | some reason => .error reason := by
  have rendered : arena.render ⟨indentSize, false⟩ root = _ := render_of_fits rfl fits
  rw [rendered, Passage.reason?]
  cases ((arena.unfold root).passage false).stop <;> rfl

section

variable {left right : Arena} (same : left.undecorated = right.undecorated)

include same

private theorem surface_layer_eq (node : NodeId) :
    (left.layer node).surface = (right.layer node).surface := by
  rw [← surface_layer_undecorated, same, surface_layer_undecorated]

private theorem children_layer_eq (node : NodeId) :
    (left.layer node).children = (right.layer node).children := by
  rw [← Layer.children_surface, surface_layer_eq same, Layer.children_surface]

private theorem pathBound_eq : left.pathBound = right.pathBound := by
  rw [← pathBound_undecorated, same, pathBound_undecorated]

private theorem surface_unfoldWithin_eq (length : Nat) (node : NodeId) :
    (left.unfoldWithin length node).surface = (right.unfoldWithin length node).surface := by
  induction length generalizing node with
  | zero => rfl
  | succ length ih =>
      have below : (fun child => (left.unfoldWithin length child).surface) =
          fun child => (right.unfoldWithin length child).surface := funext ih
      rw [unfoldWithin, unfoldWithin, Tree.surface_node, Tree.surface_node, Layer.map_map,
        Layer.map_map, Layer.surface_map, Layer.surface_map, surface_layer_eq same, below]

private theorem preorderWithin_eq (length : Nat) (node : NodeId) :
    left.preorderWithin length node = right.preorderWithin length node := by
  induction length generalizing node with
  | zero => rfl
  | succ length ih =>
      have below : left.preorderWithin length = right.preorderWithin length := funext ih
      rw [preorderWithin, preorderWithin, children_layer_eq same, below]

/-- Both arenas write the same pieces and stop for the same reason, up to its location. -/
theorem unlocated_passage_eq (root : NodeId) :
    ((left.unfold root).passage false).unlocated =
      ((right.unfold root).passage false).unlocated := by
  rw [← Tree.passage_surface, ← Tree.passage_surface, unfold, unfold, pathBound_eq same,
    surface_unfoldWithin_eq same]

private theorem violation_kind_eq (node : NodeId) :
    (left.layer node).violation?.map Prod.fst = (right.layer node).violation?.map Prod.fst := by
  have onSurface := congrArg (fun layer : Layer NodeId => layer.violation?.map Prod.fst)
    (surface_layer_eq same node)
  simp only [Layer.violation?_surface, Option.map_map] at onSurface
  exact onSurface

theorem firstOffender?_eq (root : NodeId) :
    left.firstOffender? root = right.firstOffender? root := by
  have agree : (fun node => (left.layer node).violation?.isSome) =
      fun node => (right.layer node).violation?.isSome := by
    funext node
    have here := congrArg Option.isSome (violation_kind_eq same node)
    rw [Option.isSome_map, Option.isSome_map] at here
    exact here
  rw [firstOffender?, firstOffender?, agree, preorder, preorder, pathBound_eq same,
    preorderWithin_eq same]

private theorem stops_alike {root : NodeId} {leftReason rightReason : Stop RenderError}
    (leftStops : ((left.unfold root).passage false).reason? = some leftReason)
    (rightStops : ((right.unfold root).passage false).reason? = some rightReason)
    (alike : leftReason.unlocated = rightReason.unlocated) :
    (∃ fault, leftReason = .faulted fault ∧ rightReason = .faulted fault) ∨
    (∃ node violation leftLocation rightLocation,
      left.firstOffender? root = some node ∧
      (left.layer node).violation? = some (violation, leftLocation) ∧
      (right.layer node).violation? = some (violation, rightLocation) ∧
      leftReason = Stop.ofViolation (violation, leftLocation) ∧
      rightReason = Stop.ofViolation (violation, rightLocation)) := by
  cases leftReason with
  | faulted fault =>
      cases rightReason with
      | faulted other =>
          cases alike
          exact .inl ⟨fault, rfl, rfl⟩
      | diagnosed error => cases error <;> cases alike
  | diagnosed leftError =>
      obtain ⟨node, leftFound, offends, leftObjects, leftSame⟩ := exists_firstOffender leftStops
      cases rightReason with
      | faulted fault => cases leftError <;> cases alike
      | diagnosed rightError =>
          obtain ⟨other, rightFound, offendsToo, rightObjects, rightSame⟩ :=
            exists_firstOffender rightStops
          rw [← firstOffender?_eq same, offends] at offendsToo
          cases offendsToo
          have kinds := violation_kind_eq same node
          rw [leftObjects, rightObjects] at kinds
          obtain ⟨violation, leftLocation⟩ := leftFound
          obtain ⟨_, rightLocation⟩ := rightFound
          cases kinds
          exact .inr ⟨node, violation, leftLocation, rightLocation, offends, leftObjects,
            rightObjects, leftSame, rightSame⟩

/-- Arenas that are the same without their decorations render every node alike when no comments
are asked for: to the same text, to the same fault, or to the same violation of one node, which
is the first in document order in both. The links on either side may lead anywhere. -/
theorem render_eq_of_undecorated_eq (root : NodeId) (indentSize : UInt64) :
    (∃ text, left.render ⟨indentSize, false⟩ root = .ok text ∧
      right.render ⟨indentSize, false⟩ root = .ok text) ∨
    (∃ node violation leftLocation rightLocation,
      left.firstOffender? root = some node ∧ right.firstOffender? root = some node ∧
      (left.layer node).violation? = some (violation, leftLocation) ∧
      (right.layer node).violation? = some (violation, rightLocation) ∧
      left.render ⟨indentSize, false⟩ root =
        .error (.diagnosed (.violated violation leftLocation)) ∧
      right.render ⟨indentSize, false⟩ root =
        .error (.diagnosed (.violated violation rightLocation))) ∨
    (∃ fault, left.render ⟨indentSize, false⟩ root = .error (.faulted fault) ∧
      right.render ⟨indentSize, false⟩ root = .error (.faulted fault)) := by
  have alike := unlocated_passage_eq same root
  have pieces : ((left.unfold root).passage false).pieces =
      ((right.unfold root).passage false).pieces := by
    have samePieces := congrArg Passage.pieces alike
    exact samePieces
  have reasons := congrArg Passage.reason? alike
  rw [Passage.reason?_unlocated, Passage.reason?_unlocated] at reasons
  by_cases fits : Fits indentSize 0 ((left.unfold root).passage false).pieces
  · have leftRendered := render_of_reason fits
    rw [pieces] at fits leftRendered
    have rightRendered := render_of_reason fits
    cases leftStops : ((left.unfold root).passage false).reason? with
    | none =>
        rw [leftStops] at reasons leftRendered
        rw [Option.map_eq_none_iff.mp reasons.symm] at rightRendered
        exact .inl ⟨_, leftRendered, rightRendered⟩
    | some leftReason =>
        rw [leftStops] at reasons leftRendered
        obtain ⟨rightReason, rightStops, alikeReasons⟩ := Option.map_eq_some_iff.mp reasons.symm
        rw [rightStops] at rightRendered
        rcases stops_alike same leftStops rightStops alikeReasons.symm with
          ⟨fault, rfl, rfl⟩ |
          ⟨node, violation, leftLocation, rightLocation, offends, leftObjects, rightObjects, rfl,
            rfl⟩
        · exact .inr (.inr ⟨fault, leftRendered, rightRendered⟩)
        · have offendsToo : right.firstOffender? root = some node := by
            rw [← firstOffender?_eq same, offends]
          exact .inr (.inl ⟨node, violation, leftLocation, rightLocation, offends, offendsToo,
            leftObjects, rightObjects, leftRendered, rightRendered⟩)
  · have leftRendered : left.render ⟨indentSize, false⟩ root = _ := render_of_not_fits rfl fits
    rw [pieces] at fits
    have rightRendered : right.render ⟨indentSize, false⟩ root = _ := render_of_not_fits rfl fits
    exact .inr (.inr ⟨_, leftRendered, rightRendered⟩)

end

end Arena

def unresolvedProgram : Arena where
  exprs := #[
    ⟨.int 1, ⟨1, 1⟩⟩,
    ⟨.identifier ⟨1⟩ none 0, ⟨1, 2⟩⟩,
    ⟨.call ⟨2⟩ ⟨0, 1⟩ none, ⟨1, 3⟩⟩,
    ⟨.breakLoop none, ⟨1, 4⟩⟩,
    ⟨.whileLoop ⟨1⟩ ⟨3⟩, ⟨1, 5⟩⟩,
    ⟨.letIn ⟨1, 2⟩ ⟨1, 2⟩, ⟨1, 6⟩⟩,
    ⟨.sequence ⟨0, 0⟩, ⟨1, 7⟩⟩,
    ⟨.assign ⟨5⟩ ⟨6⟩, ⟨1, 8⟩⟩]
  exprLists := #[⟨1⟩, ⟨2⟩, ⟨4⟩]
  decls := #[
    ⟨⟨1⟩, ⟨2, 1⟩, 0, some ⟨3⟩, .undefined, false, .value none⟩,
    ⟨⟨1⟩, ⟨2, 2⟩, 0, none, .int, false, .value (some ⟨0⟩)⟩,
    ⟨⟨2⟩, ⟨2, 3⟩, 0, none, .undefined, false, .function ⟨0, 1⟩ ⟨1⟩ none⟩]
  declLists := #[⟨0⟩, ⟨1⟩, ⟨2⟩]
  names := ⟨[], #["", "x", "f", "int"]⟩

/-- `unresolvedProgram` with links and a lowered name that dangle, a break that leads back to its
loop, and other locations, depths, types and capture marks. -/
def resolvedProgram : Arena where
  exprs := #[
    ⟨.int 1, ⟨3, 1⟩⟩,
    ⟨.identifier ⟨1⟩ (some ⟨77⟩) 5, ⟨3, 2⟩⟩,
    ⟨.call ⟨2⟩ ⟨0, 1⟩ (some ⟨78⟩), ⟨3, 3⟩⟩,
    ⟨.breakLoop (some ⟨4⟩), ⟨3, 4⟩⟩,
    ⟨.whileLoop ⟨1⟩ ⟨3⟩, ⟨3, 5⟩⟩,
    ⟨.letIn ⟨1, 2⟩ ⟨1, 2⟩, ⟨3, 6⟩⟩,
    ⟨.sequence ⟨0, 0⟩, ⟨3, 7⟩⟩,
    ⟨.assign ⟨5⟩ ⟨6⟩, ⟨3, 8⟩⟩]
  exprLists := #[⟨1⟩, ⟨2⟩, ⟨4⟩]
  decls := #[
    ⟨⟨1⟩, ⟨4, 1⟩, 1, some ⟨3⟩, .string, true, .value none⟩,
    ⟨⟨1⟩, ⟨4, 2⟩, 2, none, .int, true, .value (some ⟨0⟩)⟩,
    ⟨⟨2⟩, ⟨4, 3⟩, 3, none, .string, true, .function ⟨0, 1⟩ ⟨1⟩ (some ⟨79⟩)⟩]
  declLists := #[⟨0⟩, ⟨1⟩, ⟨2⟩]
  names := ⟨[], #["", "x", "f", "int"]⟩

theorem render_resolvedProgram :
    unresolvedProgram.undecorated = resolvedProgram.undecorated ∧
      unresolvedProgram.render ⟨2, false⟩ (.expr ⟨7⟩) =
        .error (.diagnosed (.violated .emptySequence ⟨1, 7⟩)) ∧
      resolvedProgram.render ⟨2, false⟩ (.expr ⟨7⟩) =
        .error (.diagnosed (.violated .emptySequence ⟨3, 7⟩)) := by
  have same : unresolvedProgram.undecorated = resolvedProgram.undecorated := by decide +kernel
  have unresolved : unresolvedProgram.render ⟨2, false⟩ (.expr ⟨7⟩) =
      .error (.diagnosed (.violated .emptySequence ⟨1, 7⟩)) := by decide +kernel
  have offender : resolvedProgram.firstOffender? (.expr ⟨7⟩) = some (.expr ⟨6⟩) := by
    decide +kernel
  have objection : (resolvedProgram.layer (.expr ⟨6⟩)).violation? =
      some (.emptySequence, ⟨3, 7⟩) := by decide +kernel
  constructor
  · exact same
  constructor
  · exact unresolved
  rcases Arena.render_eq_of_undecorated_eq same (.expr ⟨7⟩) 2 with
    ⟨text, rendered, _⟩ | ⟨node, violation, _, location, _, offends, _, objects, _, reported⟩ |
    ⟨fault, faulted, _⟩
  · rw [unresolved] at rendered
    cases rendered
  · rw [offender] at offends
    cases offends
    rw [objection] at objects
    cases objects
    exact reported
  · rw [unresolved] at faulted
    cases faulted

end TigerTree
