import TigerTree.Proofs.Rendering.Sketch
import TigerTree.Proofs.Unfolding.Ownership
import TigerTree.Rendering.Basic

/-! Drafting a node of an arena performs the passage of its tree. This is the one place where the
drafting steps of a node are compared with its sketch. -/

set_option autoImplicit false

namespace TigerTree

namespace Passage

variable (verbose : Bool)

@[simp]
theorem ofItems_nil : ofItems verbose [] = empty := rfl

@[simp]
theorem ofItems_cons (item : Item Passage) (rest : List (Item Passage)) :
    ofItems verbose (item :: rest) = item.passage verbose ++ ofItems verbose rest := rfl

@[simp]
theorem ofItems_append (first second : List (Item Passage)) :
    ofItems verbose (first ++ second) = ofItems verbose first ++ ofItems verbose second := by
  rw [ofItems, List.map_append, concat_append]
  rfl

private theorem ofItems_afterFirst (separator : List (Item Passage)) (depth : Nat)
    (children : List Passage) :
    ofItems verbose (children.flatMap (fun next => separator ++ [.child depth next])) =
      eachAfter (ofItems verbose separator) (children.map (raise depth)) := by
  induction children with
  | nil => rfl
  | cons next rest ih =>
      simp only [List.flatMap_cons, List.map_cons, eachAfter, ofItems_append, ofItems_cons,
        ofItems_nil, ih, Item.passage, append_empty, append_assoc]

@[simp]
theorem ofItems_joined (separator : List (Item Passage)) (depth : Nat)
    (children : List Passage) :
    ofItems verbose (Item.joined separator depth children) =
      joined (ofItems verbose separator) (children.map (raise depth)) := by
  cases children with
  | nil => rfl
  | cons first rest =>
      rw [Item.joined, ofItems_cons, ofItems_afterFirst]
      rfl

@[simp]
theorem ofItems_lines (children : List Passage) :
    ofItems verbose (Item.lines children) =
      raise 1 (line ++ joined (text ";" ++ line) children) := by
  rw [Item.lines, ofItems_cons, ofItems_joined, raise_append, raise_joined, raise_append]
  rfl

@[simp]
theorem ofItems_block (body : Passage) :
    ofItems verbose (Item.block body) = raise 1 (line ++ body) := by
  rw [Item.block, ofItems_cons, ofItems_cons, ofItems_nil, append_empty, raise_append]
  rfl

@[simp]
theorem ofItems_blocks (children : List Passage) :
    ofItems verbose (children.flatMap Item.block) = raise 1 (eachAfter line children) := by
  induction children with
  | nil => rfl
  | cons child rest ih =>
      rw [List.flatMap_cons, ofItems_append, ofItems_block, ih, ← raise_append, eachAfter,
        append_assoc]

end Passage

section

variable (arena : Arena) (verbose : Bool)

private theorem draftName_eq_perform (name : Name) :
    draftName arena name = (Item.passage verbose (.name (arena.text name))).perform := by
  simp only [draftName, Item.passage, Passage.perform_text, Passage.perform_look]

private theorem perform_note (note : Except Fault String) :
    (Draft.look note >>= fun words => Draft.comment words) =
      (Item.passage true (.note (some note))).perform := by
  simp only [Item.passage, if_true, Passage.perform_comment, Passage.perform_look]

private theorem draftSite_eq_perform (link : Option DeclId) :
    draftSite arena link =
      (Item.passage true (.note ((link.map arena.site).map (Except.map Site.text)))).perform := by
  cases link with
  | none => exact Passage.perform_empty
  | some link =>
      rw [Option.map_some, Option.map_some, ← perform_note]
      simp only [draftSite, Arena.site]
      cases arena.decl link <;> rfl

private theorem draftUse_eq_perform (depth : UInt32) (link : Option DeclId) :
    draftUse arena depth link =
      (Item.passage true (.note ((link.map arena.site).map
        (Except.map (Site.textFrom depth))))).perform := by
  cases link with
  | none => exact Passage.perform_empty
  | some link =>
      rw [Option.map_some, Option.map_some, ← perform_note]
      simp only [draftUse, Arena.site]
      cases arena.decl link with
      | error fault => rfl
      | ok decl =>
          funext draft
          simp only [Except.map, Site.textFrom, Site.text, bind, EStateM.bind, Draft.look]
          split <;> rfl

private theorem draftLoop_eq_perform (target : Option ExprId) :
    draftLoop arena target =
      (Item.passage true (.note ((target.map (fun loop => (arena.expr loop).map
        Expr.location)).map (Except.map (fun location => "loop:" ++ location.text))))).perform := by
  cases target with
  | none => exact Passage.perform_empty
  | some loop =>
      rw [Option.map_some, Option.map_some, ← perform_note]
      simp only [draftLoop]
      cases arena.expr loop <;> rfl

private theorem draftCapture_eq_perform (decl : Decl) :
    draftCapture verbose decl =
      (Item.passage verbose (.note (arena.heading decl).captureNote)).perform := by
  obtain ⟨name, location, depth, typeName, type, escapes, form⟩ := decl
  cases verbose <;> cases escapes
  · exact Passage.perform_empty
  · exact Passage.perform_empty
  · exact Passage.perform_empty
  · exact Passage.perform_comment "e"

private theorem draftLoweredName_eq_perform (name : Name) (loweredName : Option Name) :
    draftLoweredName arena name loweredName =
      (Item.passage true (.note ((loweredName.map (fun symbol =>
        (⟨arena.text symbol, symbol = name⟩ : LoweredName))).bind LoweredName.note))).perform := by
  cases loweredName with
  | none => exact Passage.perform_empty
  | some symbol =>
      by_cases isOwn : symbol = name
      · simp only [draftLoweredName, Option.map_some, Option.bind_some, LoweredName.note, isOwn,
          decide_true, if_true]
        exact Passage.perform_empty
      · simp only [draftLoweredName, Option.map_some, Option.bind_some, LoweredName.note, isOwn,
          decide_false, if_false, Bool.false_eq_true]
        exact perform_note (arena.text symbol)

private theorem draftTypeName_eq_perform (typeName : Name) :
    draftTypeName arena typeName =
      (Passage.text ": " ++ Item.passage verbose (.name (arena.text typeName))).perform := by
  rw [draftTypeName, draftName_eq_perform arena verbose, Passage.perform_text,
    Passage.perform_append]

private theorem draftVariableType_eq_perform (decl : Decl) :
    draftVariableType arena decl =
      (Passage.ofItems verbose (Item.variableType (arena.heading decl))).perform := by
  obtain ⟨name, location, depth, typeName, type, escapes, form⟩ := decl
  cases typeName with
  | some typeName =>
      refine (draftTypeName_eq_perform arena verbose typeName).trans ?_
      rw [← Passage.append_empty (Item.passage verbose _)]
      rfl
  | none =>
      cases type with
      | int => exact Passage.perform_append (.text ": ") (.text "int")
      | string => exact Passage.perform_append (.text ": ") (.text "string")
      | void => exact Passage.perform_empty
      | undefined => exact Passage.perform_empty

variable (passage : NodeId → Passage)

private theorem draftLines_eq_perform (elements : List ExprId) :
    draftLines (fun node => (passage node).perform) elements =
      (Passage.line ++ Passage.joined (.text ";" ++ .line)
        (elements.map (fun id => passage (.expr id)))).perform := by
  have separator : (do Draft.text ";"; Draft.breakLine : DraftM Unit) =
      (Passage.text ";" ++ Passage.line).perform := by
    rw [Passage.perform_text, Passage.perform_line, Passage.perform_append]
  rw [draftLines, separator, Passage.perform_joined, Passage.perform_line,
    Passage.perform_append]

private theorem draftBlock_eq_perform (body : ExprId) :
    draftBlock (fun node => (passage node).perform) body =
      (Passage.ofItems verbose (Item.block (passage (.expr body)))).perform := by
  simp only [draftBlock, Draft.openBlock, bind_assoc, Passage.perform_line,
    Passage.perform_append_bind, Passage.perform_raise_last, Passage.ofItems_block]

private theorem draftShape_eq_perform (location : Location) (shape : Shape) :
    draftShape arena verbose (fun node => (passage node).perform) location shape =
      (((arena.shapeLayer location shape).map passage).passage verbose).perform := by
  cases shape with
  | int value => simp [draftShape, Arena.shapeLayer, Layer.map, Layer.passage, Layer.sketch]
  | string contents =>
      simp [draftShape, Arena.shapeLayer, Layer.map, Layer.passage, Layer.sketch]
  | binary operator left right =>
      simp [draftShape, Arena.shapeLayer, Layer.map, Layer.passage, Layer.sketch]
  | sequence elements =>
      cases elements with
      | nil => exact Passage.perform_violated .emptySequence location
      | cons element rest =>
          simp [draftShape, draftLines_eq_perform, Draft.closeBlock, Arena.shapeLayer, Layer.map,
            Layer.passage, Layer.sketch, Passage.line, Function.comp_def]
  | letIn decls body =>
      cases body with
      | nil => exact Passage.perform_violated .emptyLetBody location
      | cons element rest =>
          simp [draftShape, draftLines_eq_perform, Draft.closeBlock, Arena.shapeLayer, Layer.map,
            Layer.passage, Layer.sketch, Passage.line, Function.comp_def]
  | identifier name link depth =>
      cases verbose <;>
        simp [draftShape, draftName_eq_perform arena true, draftUse_eq_perform, Arena.shapeLayer,
          Layer.map, Layer.passage, Layer.sketch, Layer.note]
  | ifThenElse condition thenBranch elseBranch =>
      simp [draftShape, Draft.openBlock, Draft.closeBlock, draftBlock_eq_perform verbose,
        Arena.shapeLayer, Layer.map, Layer.passage, Layer.sketch, Passage.line]
  | call function arguments link =>
      cases verbose <;>
        simp [draftShape, draftName_eq_perform arena true, draftSite_eq_perform,
          Arena.shapeLayer, Layer.map, Layer.passage, Layer.sketch, Layer.note,
          Function.comp_def]
  | whileLoop condition body =>
      simp [draftShape, draftBlock_eq_perform verbose, Arena.shapeLayer, Layer.map,
        Layer.passage, Layer.sketch]
  | forLoop loopVariable high body =>
      simp only [draftShape, Arena.shapeLayer, Arena.loopStart]
      cases arena.decl loopVariable with
      | error fault => exact Passage.perform_look_error fault _
      | ok decl =>
          obtain ⟨name, declared, depth, typeName, type, escapes, form⟩ := decl
          rw [Passage.perform_look_ok]
          cases form with
          | function parameters functionBody loweredName =>
              exact Passage.perform_violated .missingLoopBound location
          | value initializer =>
              cases initializer with
              | none => exact Passage.perform_violated .missingLoopBound location
              | some low =>
                  simp [draftName_eq_perform arena true, draftCapture_eq_perform arena,
                    draftBlock_eq_perform verbose, Layer.map, LoopStart.map, Layer.passage,
                    Layer.sketch, Layer.note, Arena.heading]
  | breakLoop target =>
      cases verbose <;>
        simp [draftShape, draftLoop_eq_perform, Arena.shapeLayer, Layer.map, Layer.passage,
          Layer.sketch, Layer.note]
  | assign target value =>
      simp [draftShape, Arena.shapeLayer, Layer.map, Layer.passage, Layer.sketch]

private theorem draftDecl_eq_perform (decl : Decl) :
    draftDecl arena verbose (fun node => (passage node).perform) decl =
      (((arena.declLayer decl).map passage).passage verbose).perform := by
  cases hasForm : decl.form with
  | value initializer =>
      cases initializer with
      | none =>
          simp [draftDecl, Arena.declLayer, hasForm, draftName_eq_perform arena true,
            draftCapture_eq_perform arena, draftVariableType_eq_perform arena verbose,
            Layer.map, Layer.passage, Layer.sketch, Layer.note, Arena.heading]
      | some initializer =>
          simp [draftDecl, Arena.declLayer, hasForm, draftName_eq_perform arena true,
            draftCapture_eq_perform arena, draftVariableType_eq_perform arena verbose,
            Layer.map, Layer.passage, Layer.sketch, Layer.note, Arena.heading]
  | function parameters body loweredName =>
      cases listed : arena.declList parameters with
      | error fault =>
          cases verbose <;>
            simp [draftDecl, Arena.declLayer, hasForm, listed, draftName_eq_perform arena true,
              draftLoweredName_eq_perform, Layer.map, Layer.passage, Layer.sketch, Layer.note,
              Except.map, Arena.heading]
      | ok parameters =>
          cases hasType : decl.typeName <;> cases verbose <;>
            simp [draftDecl, Arena.declLayer, hasForm, listed, hasType,
              draftName_eq_perform arena true, draftTypeName_eq_perform arena true,
              draftBlock_eq_perform true, draftLoweredName_eq_perform, Layer.map, Layer.passage,
              Layer.sketch, Layer.note, Except.map, Arena.heading, Item.resultType,
              Function.comp_def]

end

/-- Drafting a node performs the passage of its tree. The two are cut off at the same length, so
it does not matter here whether the length suffices. -/
theorem draftWithin_eq_perform (arena : Arena) (verbose : Bool) (length : Nat) (node : NodeId) :
    arena.draftWithin verbose length node =
      ((arena.unfoldWithin length node).passage verbose).perform := by
  induction length generalizing node with
  | zero =>
      funext draft
      rfl
  | succ length ih =>
      have below : arena.draftWithin verbose length =
          fun node => ((arena.unfoldWithin length node).passage verbose).perform := funext ih
      rw [Arena.unfoldWithin, Tree.passage_node, Layer.map_map]
      cases node with
      | expr id =>
          rw [Arena.draftWithin, below]
          cases found : arena.expr id with
          | error fault =>
              rw [Arena.layer_expr_missing found]
              exact Passage.perform_look_error fault _
          | ok expr =>
              cases resolved : arena.shape expr.form with
              | error fault =>
                  rw [Arena.layer_expr_unresolved found resolved, Passage.perform_look_ok, resolved]
                  exact Passage.perform_look_error fault _
              | ok shape =>
                  rw [Arena.layer_expr found resolved, Passage.perform_look_ok, resolved,
                    Passage.perform_look_ok]
                  exact draftShape_eq_perform arena verbose _ expr.location shape
      | decl id =>
          rw [Arena.draftWithin, below]
          cases found : arena.decl id with
          | error fault =>
              rw [Arena.layer_decl_missing found]
              exact Passage.perform_look_error fault _
          | ok decl =>
              rw [Arena.layer_decl found, Passage.perform_look_ok]
              exact draftDecl_eq_perform arena verbose _ decl

end TigerTree
