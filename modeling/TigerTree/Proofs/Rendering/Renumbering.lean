import Mathlib.Logic.Equiv.Defs
import TigerTree.Evaluation.Basic
import TigerTree.Proofs.Building.Growth
import TigerTree.Proofs.Rendering.Layout

/-! The numbers of lowered names. Where two arenas differ in nothing else, all walks find the same
in them: a lowered name is only ever looked up, or compared with a name that has the same number in
both. -/

set_option autoImplicit false

namespace TigerTree

def ExprForm.names {Exprs Decls : Type} : ExprForm Exprs Decls → List Name
  | .string contents => [contents]
  | .identifier name _ _ => [name]
  | .call function _ _ => [function]
  | _ => []

def Decl.givenNames (decl : Decl) : List Name :=
  decl.name :: decl.typeName.toList

def Decl.renumbered (renumbering : Name → Name) (decl : Decl) : Decl :=
  match decl.form with
  | .function parameters body loweredName =>
      { decl with form := .function parameters body (loweredName.map renumbering) }
  | .value _ => decl

theorem Decl.renumbered_of_fixed {renumbering : Name → Name}
    (fixed : ∀ name, renumbering name = name) (decl : Decl) :
    decl.renumbered renumbering = decl := by
  have same : renumbering = id := funext fixed
  obtain ⟨name, location, depth, typeName, type, escapes, form⟩ := decl
  cases form with
  | value initializer => rfl
  | function parameters body loweredName =>
      simp only [Decl.renumbered, same, Option.map_id, id]

namespace Arena

structure Renumbers (left right : Arena) (renumbering : Name ≃ Name) : Prop where
  exprs : right.exprs = left.exprs
  exprLists : right.exprLists = left.exprLists
  decls : right.decls = left.decls.map (Decl.renumbered renumbering)
  declLists : right.declLists = left.declLists
  text : ∀ name, right.text (renumbering name) = left.text name
  exprNames : ∀ id expr, left.expr id = .ok expr → ∀ name ∈ expr.form.names,
    renumbering name = name
  declNames : ∀ id decl, left.decl id = .ok decl → ∀ name ∈ decl.givenNames,
    renumbering name = name

theorem names_of_shape {arena : Arena} {form : StoredForm} {shape : Shape}
    (resolved : arena.shape form = .ok shape) : shape.names = form.names := by
  cases form with
  | sequence elements =>
      obtain ⟨ids, _, same⟩ := bind_eq_ok resolved
      cases same
      rfl
  | letIn decls body =>
      obtain ⟨declIds, _, resolved⟩ := bind_eq_ok resolved
      obtain ⟨bodyIds, _, same⟩ := bind_eq_ok resolved
      cases same
      rfl
  | call function arguments link =>
      obtain ⟨ids, _, same⟩ := bind_eq_ok resolved
      cases same
      rfl
  | _ =>
      cases resolved
      rfl

section

variable {old new : Arena} (sites : new.site = old.site) (starts : new.loopStart = old.loopStart)
  (exprs : new.expr = old.expr)
include sites starts exprs

theorem shapeLayer_congr {shape : Shape}
    (texts : ∀ name ∈ shape.names, new.text name = old.text name) (location : Location) :
    new.shapeLayer location shape = old.shapeLayer location shape := by
  cases shape with
  | string contents => simp only [shapeLayer, texts contents List.mem_cons_self]
  | identifier name link depth => simp only [shapeLayer, texts name List.mem_cons_self, sites]
  | call function arguments link =>
      simp only [shapeLayer, texts function List.mem_cons_self, sites]
  | forLoop loopVariable high body => simp only [shapeLayer, starts]
  | breakLoop target => simp only [shapeLayer, exprs]
  | _ => rfl

/-- An expression reads the same where its lists and texts do, and all links and loops. -/
theorem layer_expr_congr {id : ExprId}
    (shapes : ∀ expr, old.expr id = .ok expr → new.shape expr.form = old.shape expr.form)
    (texts : ∀ expr, old.expr id = .ok expr → ∀ name ∈ expr.form.names,
      new.text name = old.text name) :
    new.layer (.expr id) = old.layer (.expr id) := by
  have sameExpr : new.expr id = old.expr id := congrFun exprs id
  cases found : old.expr id with
  | error fault => rw [layer_expr_missing found, layer_expr_missing (sameExpr.trans found)]
  | ok expr =>
      have sameShape := shapes expr found
      cases resolved : old.shape expr.form with
      | error fault =>
          rw [layer_expr_unresolved found resolved,
            layer_expr_unresolved (sameExpr.trans found) (sameShape.trans resolved)]
      | ok shape =>
          have fixed := texts expr found
          rw [← names_of_shape resolved] at fixed
          rw [layer_expr found resolved,
            layer_expr (sameExpr.trans found) (sameShape.trans resolved),
            shapeLayer_congr sites starts exprs fixed]

end

def outline (decl : Decl) : NodeKind × Location := (decl.form.nodeKind, decl.location)

/-- Evaluation reads expressions and lists; of a declaration it reads the kind and the location. -/
theorem evaluate_congr {old new : Arena} (exprs : new.exprs = old.exprs)
    (exprLists : new.exprLists = old.exprLists) (declLists : new.declLists = old.declLists)
    (decls : new.decls.map outline = old.decls.map outline) (node : NodeId) :
    new.evaluate node = old.evaluate node := by
  have shapes (form : StoredForm) : new.shape form = old.shape form := by
    cases form <;> simp only [shape, exprList, declList, exprLists, declLists]
  have within (length : Nat) (id : ExprId) :
      new.evaluateWithin length id = old.evaluateWithin length id := by
    induction length generalizing id with
    | zero => rfl
    | succ length ih => simp only [evaluateWithin, expr, exprs, shapes, funext ih]
  cases node with
  | expr id =>
      have sizes : new.decls.size = old.decls.size := by
        rw [← Array.size_map (f := outline), decls, Array.size_map]
      rw [evaluate, evaluate, pathBound, pathBound, exprs, sizes, within]
  | decl id =>
      have here := congrArg (fun outlines => outlines[id.index.toNat]?) decls
      simp only [Array.getElem?_map] at here
      rw [evaluate, evaluate]
      cases found : old.decls[id.index.toNat]? with
      | none =>
          rw [found, Option.map_none, Option.map_eq_none_iff] at here
          rw [decl, decl, here, found]
      | some known =>
          rw [found] at here
          obtain ⟨other, isOther, same⟩ := Option.map_eq_some_iff.mp here
          obtain ⟨sameKind, sameLocation⟩ := Prod.mk.inj same
          rw [decl_eq_ok.mpr found, decl_eq_ok.mpr isOther]
          simp only [Stop.ofLookup, bind, Except.bind, sameKind, sameLocation]

namespace Renumbers

variable {left right : Arena} {renumbering : Name ≃ Name}
  (renumbers : left.Renumbers right renumbering)
include renumbers

theorem expr (id : ExprId) : right.expr id = left.expr id := by
  rw [Arena.expr, renumbers.exprs, Arena.expr]

theorem decl (id : DeclId) :
    right.decl id = (left.decl id).map (Decl.renumbered renumbering) := by
  rw [Arena.decl, renumbers.decls, Array.getElem?_map, Arena.decl]
  cases left.decls[id.index.toNat]? <;> rfl

theorem exprList : right.exprList = left.exprList := by
  funext range
  rw [Arena.exprList, renumbers.exprLists, Arena.exprList]

theorem declList : right.declList = left.declList := by
  funext range
  rw [Arena.declList, renumbers.declLists, Arena.declList]

theorem shape (form : StoredForm) : right.shape form = left.shape form := by
  cases form <;> simp only [Arena.shape, renumbers.exprList, renumbers.declList]

theorem pathBound : right.pathBound = left.pathBound := by
  rw [Arena.pathBound, renumbers.exprs, renumbers.decls, Array.size_map, Arena.pathBound]

theorem text_of_fixed {name : Name} (fixed : renumbering name = name) :
    right.text name = left.text name := by
  have reads := renumbers.text name
  rw [fixed] at reads
  exact reads

theorem site (link : DeclId) : right.site link = left.site link := by
  rw [Arena.site, renumbers.decl, Arena.site]
  cases left.decl link with
  | error fault => rfl
  | ok decl =>
      obtain ⟨name, location, depth, typeName, type, escapes, form⟩ := decl
      cases form <;> rfl

theorem heading {decl : Decl} (fixed : ∀ name ∈ decl.givenNames, renumbering name = name) :
    right.heading (decl.renumbered renumbering) = left.heading decl := by
  obtain ⟨name, location, depth, typeName, type, escapes, form⟩ := decl
  have named := renumbers.text_of_fixed (fixed name List.mem_cons_self)
  have typed : typeName.map right.text = typeName.map left.text := by
    cases typeName with
    | none => rfl
    | some typeName =>
        exact congrArg some (renumbers.text_of_fixed (fixed typeName (.tail _ List.mem_cons_self)))
  cases form <;> simp only [Decl.renumbered, Arena.heading, named, typed]

theorem loopStart (loopVariable : DeclId) :
    right.loopStart loopVariable = left.loopStart loopVariable := by
  rw [Arena.loopStart, renumbers.decl, Arena.loopStart]
  cases found : left.decl loopVariable with
  | error fault => rfl
  | ok decl =>
      have sameHeading := renumbers.heading (renumbers.declNames loopVariable decl found)
      obtain ⟨name, location, depth, typeName, type, escapes, form⟩ := decl
      cases form with
      | function parameters body loweredName => rfl
      | value initializer =>
          cases initializer with
          | none => rfl
          | some low => exact congrArg (fun heading => LoopStart.bound heading _) sameHeading

theorem declLayer {decl : Decl} (fixed : ∀ name ∈ decl.givenNames, renumbering name = name) :
    right.declLayer (decl.renumbered renumbering) = left.declLayer decl := by
  have sameHeading := renumbers.heading fixed
  have isOwn (symbol : Name) : renumbering symbol = decl.name ↔ symbol = decl.name := by
    conv_lhs => rw [← fixed decl.name List.mem_cons_self]
    exact renumbering.apply_eq_iff_eq
  obtain ⟨name, location, depth, typeName, type, escapes, form⟩ := decl
  cases form with
  | value initializer =>
      cases initializer with
      | none => exact congrArg Layer.parameter sameHeading
      | some initializer =>
          exact congrArg (fun heading => Layer.varDecl heading _) sameHeading
  | function parameters body loweredName =>
      cases loweredName with
      | none =>
          rw [Arena.declLayer, sameHeading]
          simp only [Decl.renumbered, Arena.declLayer, renumbers.declList, Option.map_none]
      | some symbol =>
          rw [Arena.declLayer, sameHeading]
          simp only [Decl.renumbered, Arena.declLayer, renumbers.declList, Option.map_some,
            renumbers.text, isOwn]

/-- Every walk finds the same node. -/
theorem layer (node : NodeId) : right.layer node = left.layer node := by
  cases node with
  | expr id =>
      apply layer_expr_congr (funext renumbers.site) (funext renumbers.loopStart)
        (funext renumbers.expr)
      · exact fun expr _ => renumbers.shape expr.form
      · exact fun expr found name isName =>
          renumbers.text_of_fixed (renumbers.exprNames id expr found name isName)
  | decl id =>
      simp only [Arena.layer, renumbers.decl]
      cases found : left.decl id with
      | error fault => rfl
      | ok decl => exact renumbers.declLayer (renumbers.declNames id decl found)

theorem render (style : Style) (node : NodeId) :
    right.render style node = left.render style node := by
  apply render_eq_of_passage_eq
  rw [unfold_congr (fun node _ => renumbers.layer node) renumbers.pathBound]

theorem evaluate (node : NodeId) : right.evaluate node = left.evaluate node := by
  refine evaluate_congr renumbers.exprs renumbers.exprLists renumbers.declLists ?_ node
  rw [renumbers.decls, Array.map_map]
  refine Array.map_congr_left (fun decl _ => ?_)
  obtain ⟨name, location, depth, typeName, type, escapes, form⟩ := decl
  cases form <;> rfl

end Renumbers
end Arena
end TigerTree
