import TigerTree.Proofs.Reading.RoundTrip
import TigerTree.Proofs.Reading.Spelled

/-! Rendering is unambiguous. What is below a root whose text is complete unfolds to a legible
tree, and the text of a legible tree is read as the surface of the tree; so equal texts have equal
surfaces. -/

set_option autoImplicit false

namespace TigerTree

def NodeId.sort : NodeId → NodeSort
  | .expr _ => .expression
  | .decl _ => .declaration

def Layer.isReference {Child : Type} : Layer Child → Bool
  | .identifier _ _ _ _ => true
  | _ => false

theorem Layer.isReference_map {Child Other : Type} (change : Child → Other) (layer : Layer Child) :
    (layer.map change).isReference = layer.isReference := by
  cases layer <;> rfl

def Arena.assignsToNames (arena : Arena) : Layer NodeId → Bool
  | .assign _ target _ => (arena.layer target).isReference
  | _ => true

namespace Arena

section

variable {arena : Arena} {change : NodeId → Tree}

private theorem legible_exprs {ids : List ExprId}
    (below : ∀ child ∈ ids.map NodeId.expr, Legible child.sort (change child)) :
    ∀ tree ∈ (ids.map NodeId.expr).map change, Legible .expression tree := by
  intro tree member
  obtain ⟨child, isChild, rfl⟩ := List.mem_map.mp member
  obtain ⟨id, _, rfl⟩ := List.mem_map.mp isChild
  exact below _ isChild

private theorem legible_decls {ids : List DeclId}
    (below : ∀ child ∈ ids.map NodeId.decl, Legible child.sort (change child)) :
    ∀ tree ∈ (ids.map NodeId.decl).map change, Legible .declaration tree := by
  intro tree member
  obtain ⟨child, isChild, rfl⟩ := List.mem_map.mp member
  obtain ⟨id, _, rfl⟩ := List.mem_map.mp isChild
  exact below _ isChild

private theorem exists_expr_of_bound {loopVariable : DeclId} {heading : Heading} {low : NodeId}
    (starts : arena.loopStart loopVariable = .bound heading low) : ∃ id, low = .expr id := by
  unfold loopStart at starts
  split at starts
  · cases starts
  · split at starts
    · cases starts
      exact ⟨_, rfl⟩
    · cases starts

private theorem legible_shape {location : Location} {shape : Shape}
    (below : ∀ child ∈ (arena.shapeLayer location shape).children,
      Legible child.sort (change child))
    (wellNamed : (arena.shapeLayer location shape).isWellNamed)
    (assigned : ∀ target value, shape = .assign target value →
      ∃ layer, change (.expr target) = .node layer ∧ layer.isReference)
    (complete : (Tree.node ((arena.shapeLayer location shape).map change)).Completes false) :
    Legible .expression (.node ((arena.shapeLayer location shape).map change)) := by
  cases shape with
  | int value => exact .int location value
  | string contents =>
      cases found : arena.text contents with
      | ok contents =>
          simp only [shapeLayer, Layer.map, found]
          exact .string location contents
      | error fault =>
          simp only [shapeLayer, Layer.map, found] at complete
          cases complete
  | binary operator left right =>
      exact .binary location operator (below (.expr left) (by simp [shapeLayer, Layer.children]))
        (below (.expr right) (by simp [shapeLayer, Layer.children]))
  | sequence elements =>
      cases elements with
      | nil => exact absurd (List.mem_singleton_self _) (complete.not_stop _)
      | cons first rest => exact .sequence location _ _ (legible_exprs below)
  | letIn decls body =>
      cases body with
      | nil => exact absurd (List.mem_singleton_self _) (complete.not_stop _)
      | cons first rest =>
          have declsLegible := legible_decls
            (fun child member => below child (List.mem_append_left _ member))
          have bodyLegible := @legible_exprs _ (first :: rest)
            (fun child member => below child (List.mem_append_right _ member))
          exact .letIn location _ _ _ declsLegible bodyLegible
  | identifier name link depth =>
      obtain ⟨spelling, isSpelling, isName⟩ :=
        Layer.exists_identifier wellNamed (List.mem_singleton_self _)
      simp only [shapeLayer, Layer.map, isSpelling]
      exact .identifier location isName _ depth
  | ifThenElse condition thenBranch elseBranch =>
      exact .ifThenElse location
        (below (.expr condition) (by simp [shapeLayer, Layer.children]))
        (below (.expr thenBranch) (by simp [shapeLayer, Layer.children]))
        (below (.expr elseBranch) (by simp [shapeLayer, Layer.children]))
  | call function arguments link =>
      obtain ⟨spelling, isSpelling, isName⟩ :=
        Layer.exists_identifier wellNamed (List.mem_singleton_self _)
      simp only [shapeLayer, Layer.map, isSpelling]
      exact .call location isName _ _ (legible_exprs below)
  | whileLoop condition body =>
      exact .whileLoop location (below (.expr condition) (by simp [shapeLayer, Layer.children]))
        (below (.expr body) (by simp [shapeLayer, Layer.children]))
  | forLoop loopVariable high body =>
      simp only [shapeLayer] at below wellNamed complete ⊢
      cases starts : arena.loopStart loopVariable with
      | lost fault | missing =>
          rw [starts] at complete
          exact absurd (List.mem_singleton_self _) (complete.not_stop _)
      | bound heading low =>
          obtain ⟨low, rfl⟩ := exists_expr_of_bound starts
          rw [starts] at below wellNamed
          obtain ⟨spelling, isSpelling, isName⟩ :=
            Layer.exists_identifier wellNamed (List.mem_singleton_self _)
          refine .forLoop location isSpelling isName (below (.expr low) ?_)
            (below (.expr high) ?_) (below (.expr body) ?_)
          all_goals simp [Layer.children, LoopStart.children]
  | breakLoop target => exact .breakLoop location _
  | assign target value =>
      obtain ⟨layer, isLayer, isReference⟩ := assigned target value rfl
      have readable := below (.expr target) (by simp [shapeLayer, Layer.children])
      have written := below (.expr value) (by simp [shapeLayer, Layer.children])
      rw [isLayer] at readable
      simp only [shapeLayer, Layer.map, isLayer]
      cases readable with
      | identifier identifierLocation isName site depth =>
          exact .assign location identifierLocation isName site depth written
      | _ => cases isReference

private theorem isTyped_of_isWellNamed {layer : Layer NodeId} {heading : Heading}
    (wellNamed : layer.isWellNamed)
    (names : layer.names = heading.name :: heading.typeName.toList) :
    (∃ spelling, heading.name = .ok spelling ∧ isIdentifier spelling) ∧ heading.IsTyped := by
  refine ⟨Layer.exists_identifier wellNamed (by simp [names]), ?_⟩
  intro typeName isType
  refine Layer.exists_identifier wellNamed ?_
  rw [names, Option.mem_def.mp isType]
  exact .tail _ (List.mem_singleton_self _)

private theorem legible_decl {decl : Decl}
    (below : ∀ child ∈ (arena.declLayer decl).children, Legible child.sort (change child))
    (wellNamed : (arena.declLayer decl).isWellNamed)
    (complete : (Tree.node ((arena.declLayer decl).map change)).Completes false) :
    Legible .declaration (.node ((arena.declLayer decl).map change)) := by
  unfold declLayer at below wellNamed complete ⊢
  cases form : decl.form with
  | value initializer =>
      cases initializer with
      | none =>
          rw [form] at wellNamed
          obtain ⟨⟨spelling, isSpelling, isName⟩, typed⟩ := isTyped_of_isWellNamed wellNamed rfl
          exact .parameter isSpelling isName typed
      | some initializer =>
          rw [form] at below wellNamed
          obtain ⟨⟨spelling, isSpelling, isName⟩, typed⟩ := isTyped_of_isWellNamed wellNamed rfl
          exact .varDecl isSpelling isName typed (below _ (List.mem_singleton_self _))
  | function parameters body loweredName =>
      rw [form] at below wellNamed complete
      obtain ⟨⟨spelling, isSpelling, isName⟩, typed⟩ := isTyped_of_isWellNamed wellNamed rfl
      have bodyLegible := below (.expr body) (by simp [Layer.children])
      cases found : arena.declList parameters with
      | error fault =>
          simp only [found] at complete
          refine absurd ?_ (complete.not_stop (.faulted fault))
          simp [Layer.map, Layer.sketch, Except.map]
      | ok parameters =>
          simp only [found] at below ⊢
          exact .funDecl isSpelling isName typed _ _ (legible_decls
            (fun child member => below child (List.mem_append_left _ member))) bodyLegible

end

section

variable {arena : Arena}

/-- The cut-off tree of a node whose paths are all followed is legible, if it is complete. -/
theorem legible_unfoldWithin {length : Nat} {node : NodeId} (within : arena.Within length node)
    (wellNamed : arena.Throughout (fun layer => layer.isWellNamed) node)
    (assigns : arena.Throughout (fun layer => arena.assignsToNames layer) node)
    (complete : (arena.unfoldWithin length node).Completes false) :
    Legible node.sort (arena.unfoldWithin length node) := by
  induction length generalizing node with
  | zero => exact within.elim
  | succ length ih =>
      simp only [unfoldWithin] at complete ⊢
      have below : ∀ child ∈ (arena.layer node).children,
          Legible child.sort (arena.unfoldWithin length child) := by
        intro child owned
        refine ih (within child owned) (fun lower reached => wellNamed lower (.head owned reached))
          (fun lower reached => assigns lower (.head owned reached)) ?_
        refine complete.of_mem_children ?_
        rw [Layer.children_map]
        exact List.mem_map_of_mem owned
      have namedHere := wellNamed node .refl
      have assignsHere := assigns node .refl
      cases node with
      | expr id =>
          cases found : arena.expr id with
          | error fault =>
              rw [layer_expr_missing found] at complete
              exact absurd (List.mem_singleton_self _) (complete.not_stop _)
          | ok expr =>
              cases resolved : arena.shape expr.form with
              | error fault =>
                  rw [layer_expr_unresolved found resolved] at complete
                  exact absurd (List.mem_singleton_self _) (complete.not_stop _)
              | ok shape =>
                  have isLayer := layer_expr found resolved
                  have deeper := within
                  simp only [Within, isLayer] at deeper
                  rw [isLayer] at below namedHere assignsHere complete ⊢
                  refine legible_shape below namedHere ?_ complete
                  -- the target is looked up in the arena, so its tree needs one more step to show
                  rintro target value rfl
                  have targetWithin := deeper (.expr target) (by simp [shapeLayer, Layer.children])
                  cases length with
                  | zero => exact targetWithin.elim
                  | succ length =>
                      refine ⟨_, rfl, ?_⟩
                      rw [Layer.isReference_map]
                      exact assignsHere
      | decl id =>
          cases found : arena.decl id with
          | error fault =>
              rw [layer_decl_missing found] at complete
              exact absurd (List.mem_singleton_self _) (complete.not_stop _)
          | ok decl =>
              rw [layer_decl found] at below namedHere complete ⊢
              exact legible_decl below namedHere complete

end

end Arena

def readProgram (text : String) : Option Tree :=
  match Reader.node (lex text.toList).length .expression (lex text.toList) with
  | some (tree, []) => some tree
  | _ => none

/-- A text that was rendered without diagnostics can be read, and what is read is the surface of
what was rendered. -/
theorem readProgram_render {arena : Arena} {root : ExprId} {indentSize : UInt64} {text : String}
    (acyclic : arena.Acyclic (.expr root))
    (wellNamed : arena.Throughout (fun layer => layer.isWellNamed) (.expr root))
    (assigns : arena.Throughout (fun layer => arena.assignsToNames layer) (.expr root))
    (rendered : arena.render ⟨indentSize, false⟩ (.expr root) = .ok text) :
    readProgram text = some (arena.unfold (.expr root)).surface := by
  have namedTree := Arena.wellNamed_unfold acyclic wellNamed
  obtain ⟨complete, rfl⟩ := spell_of_render rfl rendered
  have legible : Legible .expression (arena.unfold (.expr root)) :=
    Arena.legible_unfoldWithin acyclic.within wellNamed assigns complete
  have tokens := @Tree.lex_passage indentSize _ namedTree complete 0 [] breaks_nil
  have read := legible.read (Nat.le_refl _) [] ⟨by simp, by simp⟩
  rw [List.append_nil] at tokens read
  rw [lex_nil, List.append_nil] at tokens
  rw [readProgram, String.toList_ofList, tokens, read]

/-- Expressions of two arenas that render to one text without diagnostics have one surface. -/
theorem surface_eq_of_render_eq (first second : Arena) (firstRoot secondRoot : ExprId)
    (indentSize : UInt64) (text : String)
    (firstAcyclic : first.Acyclic (.expr firstRoot))
    (secondAcyclic : second.Acyclic (.expr secondRoot))
    (firstNamed : first.Throughout (fun layer => layer.isWellNamed) (.expr firstRoot))
    (secondNamed : second.Throughout (fun layer => layer.isWellNamed) (.expr secondRoot))
    (firstAssigns : first.Throughout (fun layer => first.assignsToNames layer) (.expr firstRoot))
    (secondAssigns :
      second.Throughout (fun layer => second.assignsToNames layer) (.expr secondRoot))
    (firstText : first.render ⟨indentSize, false⟩ (.expr firstRoot) = .ok text)
    (secondText : second.render ⟨indentSize, false⟩ (.expr secondRoot) = .ok text) :
    (first.unfold (.expr firstRoot)).surface = (second.unfold (.expr secondRoot)).surface := by
  have readFirst := readProgram_render firstAcyclic firstNamed firstAssigns firstText
  have readSecond := readProgram_render secondAcyclic secondNamed secondAssigns secondText
  exact Option.some.inj (readFirst.symm.trans readSecond)

/-- A loop in whose body and bounds one literal and one use of the variable are shared, before any
link is resolved. -/
def sharedLoop : Arena where
  exprs := #[
    ⟨.int (-3), ⟨1, 1⟩⟩,
    ⟨.identifier ⟨1⟩ none 0, ⟨1, 2⟩⟩,
    ⟨.binary .sub ⟨1⟩ ⟨1⟩, ⟨1, 3⟩⟩,
    ⟨.assign ⟨1⟩ ⟨2⟩, ⟨1, 4⟩⟩,
    ⟨.forLoop ⟨0⟩ ⟨0⟩ ⟨3⟩, ⟨1, 5⟩⟩,
    ⟨.letIn ⟨0, 1⟩ ⟨0, 1⟩, ⟨1, 6⟩⟩]
  exprLists := #[⟨4⟩]
  decls := #[⟨⟨1⟩, ⟨2, 1⟩, 0, some ⟨2⟩, .undefined, false, .value (some ⟨0⟩)⟩]
  declLists := #[⟨0⟩]
  names := ⟨[], #["", "i", "int"]⟩

def resolvedLoop : Arena where
  exprs := #[
    ⟨.int (-3), ⟨1, 1⟩⟩,
    ⟨.int (-3), ⟨2, 1⟩⟩,
    ⟨.int (-3), ⟨2, 2⟩⟩,
    ⟨.identifier ⟨1⟩ (some ⟨1⟩) 1, ⟨2, 3⟩⟩,
    ⟨.identifier ⟨1⟩ (some ⟨1⟩) 1, ⟨2, 4⟩⟩,
    ⟨.identifier ⟨1⟩ (some ⟨1⟩) 1, ⟨2, 5⟩⟩,
    ⟨.binary .sub ⟨4⟩ ⟨5⟩, ⟨2, 6⟩⟩,
    ⟨.assign ⟨3⟩ ⟨6⟩, ⟨2, 7⟩⟩,
    ⟨.forLoop ⟨1⟩ ⟨2⟩ ⟨7⟩, ⟨2, 8⟩⟩,
    ⟨.letIn ⟨0, 1⟩ ⟨0, 1⟩, ⟨3, 1⟩⟩]
  exprLists := #[⟨8⟩]
  decls := #[
    ⟨⟨1⟩, ⟨1, 2⟩, 0, none, .int, false, .value (some ⟨0⟩)⟩,
    ⟨⟨1⟩, ⟨2, 9⟩, 1, none, .int, true, .value (some ⟨1⟩)⟩]
  declLists := #[⟨0⟩]
  names := ⟨[], #["", "i"]⟩

def loopText : String :=
  "let\n  var i: int := -3\nin\n  for i := -3 to -3 do\n    i := (i - i)\nend"

theorem surface_eq_sharedLoop_resolvedLoop :
    sharedLoop.render ⟨2, false⟩ (.expr ⟨5⟩) = .ok loopText ∧
      resolvedLoop.render ⟨2, false⟩ (.expr ⟨9⟩) = .ok loopText ∧
      (sharedLoop.unfold (.expr ⟨5⟩)).surface = (resolvedLoop.unfold (.expr ⟨9⟩)).surface := by
  have sharedText : sharedLoop.render ⟨2, false⟩ (.expr ⟨5⟩) = .ok loopText := by decide +kernel
  have resolvedText : resolvedLoop.render ⟨2, false⟩ (.expr ⟨9⟩) = .ok loopText := by
    decide +kernel
  have sharedWithin : sharedLoop.Within 9 (.expr ⟨5⟩) := by decide
  have resolvedWithin : resolvedLoop.Within 9 (.expr ⟨9⟩) := by decide
  refine ⟨sharedText, resolvedText, ?_⟩
  exact surface_eq_of_render_eq sharedLoop resolvedLoop ⟨5⟩ ⟨9⟩ 2 loopText sharedWithin.acyclic
    resolvedWithin.acyclic
    (Arena.throughout_of_checkWithin (by decide : sharedLoop.checkWithin _ 9 _))
    (Arena.throughout_of_checkWithin (by decide : resolvedLoop.checkWithin _ 9 _))
    (Arena.throughout_of_checkWithin (by decide : sharedLoop.checkWithin _ 9 _))
    (Arena.throughout_of_checkWithin (by decide : resolvedLoop.checkWithin _ 9 _))
    sharedText resolvedText

end TigerTree
