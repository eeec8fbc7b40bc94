import TigerTree.Proofs.Rendering.Lines
import TigerTree.Proofs.Rendering.Nesting

/-! When indentation overflows. The levels at which the lines of a text are broken follow from the
shape of its tree, and the deepest of them is the block nesting of the tree. So the indentation
overflows exactly where block nesting times indentation size is no word. -/

set_option autoImplicit false

namespace TigerTree

variable {Child : Type}

def ownLines (breaks : List Nat) : List Nat := 1 :: breaks.map (· + 1)

/-- The levels at which a node breaks lines, in order, given those of its children. What closes a
sequence, a `let` or a part of a conditional has a line at the level of the node; a loop, a function
and the last branch of a conditional close without one. -/
def Layer.breaks : Layer (List Nat) → List Nat
  | .sequence _ elements => elements.flatMap ownLines ++ [0]
  | .letIn _ decls body => decls.flatMap ownLines ++ 0 :: (body.flatMap ownLines ++ [0])
  | .ifThenElse _ condition thenBranch elseBranch =>
      ownLines condition ++ 0 :: (ownLines thenBranch ++ 0 :: ownLines elseBranch)
  | .whileLoop _ condition body => condition ++ ownLines body
  | .forLoop _ start high body => start.children.flatten ++ (high ++ ownLines body)
  | .funDecl _ _ parameters body => (listed parameters).flatten ++ ownLines body
  | layer => layer.children.flatten

def Tree.breaks (tree : Tree) : List Nat :=
  tree.fold Layer.breaks

def Piece.level? : Piece → Option Nat
  | .line level => some level
  | _ => none

def Passage.levels (passage : Passage) : List Nat :=
  passage.pieces.filterMap Piece.level?

theorem Passage.levels_concat {passages : List Passage} (complete : (concat passages).stop = none) :
    (concat passages).levels = passages.flatMap levels := by
  rw [levels, pieces_concat complete, List.filterMap_flatMap]
  rfl

theorem Passage.levels_raise (depth : Nat) (passage : Passage) :
    (raise depth passage).levels = passage.levels.map (· + depth) := by
  have deeper : Piece.level? ∘ Piece.raise depth =
      fun piece => piece.level?.map (· + depth) := by
    funext piece
    cases piece <;> rfl
  rw [levels, levels, raise, List.filterMap_map, deeper, List.map_filterMap]

namespace Item

def levels : Item Passage → List Nat
  | .line depth => [depth]
  | .child depth inner => inner.levels.map (· + depth)
  | _ => []

theorem levels_passage (verbose : Bool) (item : Item Passage) :
    (item.passage verbose).levels = item.levels := by
  cases item with
  | name spelling => cases spelling <;> rfl
  | literal contents => cases contents <;> rfl
  | note words => cases verbose <;> rcases words with _ | _ | words <;> rfl
  | child depth inner => exact Passage.levels_raise depth inner
  | _ => rfl

theorem levels_listed (children : List Passage) :
    (joined [.text ", "] 0 children).flatMap levels = (children.map Passage.levels).flatten := by
  rw [flatMap_joined rfl, ← List.flatMap_def]
  exact List.flatMap_congr (fun child _ => by simp [levels])

theorem levels_block (body : Passage) : (block body).flatMap levels = ownLines body.levels := by
  simp [block, levels, ownLines]

theorem levels_blocks (children : List Passage) :
    (children.flatMap block).flatMap levels = (children.map Passage.levels).flatMap ownLines := by
  rw [List.flatMap_assoc, List.flatMap_map]
  exact List.flatMap_congr (fun child _ => levels_block child)

theorem levels_lines (first : Passage) (rest : List Passage) :
    (lines (first :: rest)).flatMap levels =
      ((first :: rest).map Passage.levels).flatMap ownLines := by
  have others : (rest.flatMap (fun next => [.text ";", .line 1, .child 1 next])).flatMap levels =
      (rest.map Passage.levels).flatMap ownLines := by
    rw [List.flatMap_assoc, List.flatMap_map]
    exact List.flatMap_congr (fun next _ => by simp [levels, ownLines])
  simp only [lines, joined, List.flatMap_cons, List.cons_append, List.nil_append, List.map_cons,
    others]
  rfl

theorem levels_variableType (heading : Heading) : (variableType heading).flatMap levels = [] :=
  flatMap_variableType (fun _ => rfl) (fun _ => rfl) heading

theorem levels_resultType (heading : Heading) : (resultType heading).flatMap levels = [] :=
  flatMap_resultType (fun _ => rfl) (fun _ => rfl) heading

end Item

/-- A text that is complete breaks its lines as told by the shape of the node. -/
theorem Layer.levels_passage {verbose : Bool} {layer : Layer Passage}
    (complete : (layer.passage verbose).stop = none) :
    (layer.passage verbose).levels = (layer.map Passage.levels).breaks := by
  have goesOn := layer.stop_notMem_sketch complete
  have sketched : (layer.passage verbose).levels = layer.sketch.flatMap Item.levels := by
    rw [Layer.passage, Passage.ofItems, Passage.levels_concat complete, List.flatMap_map]
    exact List.flatMap_congr (fun item _ => Item.levels_passage verbose item)
  rw [sketched]
  clear sketched complete
  cases layer with
  | sequence location elements =>
      cases elements with
      | nil => exact absurd (List.mem_singleton_self _) (goesOn _)
      | cons first rest =>
          simp [sketch, Item.levels, Item.levels_lines, map, breaks]
  | letIn location decls body =>
      cases body with
      | nil => exact absurd (List.mem_singleton_self _) (goesOn _)
      | cons first rest =>
          simp [sketch, Item.levels, Item.levels_lines, Item.levels_blocks, map, breaks]
  | call location function site arguments =>
      simp [sketch, Item.levels, Item.levels_listed, map, breaks, children]
  | forLoop location start high body =>
      cases start with
      | lost fault => exact absurd (List.mem_singleton_self _) (goesOn _)
      | missing => exact absurd (List.mem_singleton_self _) (goesOn _)
      | bound heading low =>
          simp [sketch, Item.levels, Item.levels_block, map, LoopStart.map, breaks,
            LoopStart.children]
  | varDecl heading initializer =>
      simp [sketch, Item.levels, Item.levels_variableType, map, breaks, children]
  | parameter heading =>
      simp [sketch, Item.levels, Item.levels_variableType, map, breaks, children]
  | funDecl heading loweredName parameters body =>
      cases parameters with
      | error fault =>
          have stopped : .stop (.faulted fault) ∈
              (funDecl heading loweredName (.error fault) body).sketch := by
            simp [sketch]
          exact absurd stopped (goesOn _)
      | ok parameters =>
          simp [sketch, Item.levels, Item.levels_listed, Item.levels_block,
            Item.levels_resultType, map, Except.map, breaks, listed]
  | _ => simp [sketch, Item.levels, Item.levels_block, map, breaks, children]

theorem Tree.levels_passage {verbose : Bool} {tree : Tree} (completes : tree.Completes verbose) :
    (tree.passage verbose).levels = tree.breaks := by
  induction tree with
  | node layer ih =>
      have below : layer.map (fun child => (child.passage verbose).levels) = layer.map breaks :=
        layer.map_congr (fun child member => ih child member (completes.of_mem_children member))
      rw [Completes, passage_node] at completes
      rw [passage_node, Layer.levels_passage completes, Layer.map_map, below]
      exact (fold_node Layer.breaks layer).symm

/-! ### The deepest break -/

theorem deepest_append (first second : List Nat) :
    deepest (first ++ second) = max (deepest first) (deepest second) := by
  induction first with
  | nil => exact (Nat.zero_max _).symm
  | cons depth rest ih =>
      change max depth (deepest (rest ++ second)) = max (max depth (deepest rest)) _
      rw [ih, Nat.max_assoc]

theorem deepest_flatten (lists : List (List Nat)) :
    deepest lists.flatten = deepest (lists.map deepest) := by
  induction lists with
  | nil => rfl
  | cons first rest ih =>
      rw [List.flatten_cons, deepest_append, ih]
      rfl

theorem deepest_ownLines (breaks : List Nat) : deepest (ownLines breaks) = 1 + deepest breaks := by
  induction breaks with
  | nil => rfl
  | cons depth rest ih =>
      change max 1 (max (depth + 1) (deepest (rest.map (· + 1)))) = 1 + max depth (deepest rest)
      change max 1 (deepest (rest.map (· + 1))) = 1 + deepest rest at ih
      omega

/-- Parts that have lines of their own reach one level deeper than the deepest of them. -/
theorem deepest_flatMap_ownLines (parts : List (List Nat)) :
    max 1 (deepest (parts.flatMap ownLines)) = 1 + deepest (parts.map deepest) := by
  induction parts with
  | nil => rfl
  | cons first rest ih =>
      rw [List.flatMap_cons, deepest_append, deepest_ownLines]
      change _ = 1 + max (deepest first) (deepest (rest.map deepest))
      omega

/-- Of a node that is not violated the deepest break is its nesting. -/
theorem Layer.deepest_breaks {layer : Layer (List Nat)} (sound : layer.violation? = none) :
    deepest layer.breaks = (layer.map deepest).nesting := by
  cases layer with
  | sequence location elements =>
      cases elements with
      | nil => cases sound
      | cons first rest =>
          have bounded := deepest_flatMap_ownLines (first :: rest)
          have started : 1 ≤ deepest ((first :: rest).flatMap ownLines) :=
            le_deepest List.mem_cons_self
          simp only [breaks, map, nesting, deepest_append]
          change max _ 0 = _
          omega
  | letIn location decls body =>
      cases body with
      | nil => cases sound
      | cons first rest =>
          have bounded := deepest_flatMap_ownLines (decls ++ first :: rest)
          have started : 1 ≤ deepest ((first :: rest).flatMap ownLines) :=
            le_deepest List.mem_cons_self
          rw [List.flatMap_append, deepest_append, List.map_append, deepest_append] at bounded
          simp only [breaks, map, nesting, deepest_append]
          change max _ (max 0 (deepest (_ ++ [0]))) = _
          rw [deepest_append]
          change max _ (max 0 (max _ 0)) = _
          omega
  | ifThenElse location condition thenBranch elseBranch =>
      simp only [breaks, map, nesting, deepest_append, deepest_ownLines]
      change max _ (max 0 (deepest (_ ++ 0 :: _))) = 1 + max _ (max _ (max _ 0))
      rw [deepest_append, deepest_ownLines]
      change max _ (max 0 (max _ (max 0 (deepest (ownLines _))))) = _
      rw [deepest_ownLines]
      omega
  | whileLoop location condition body =>
      simp only [breaks, map, nesting, deepest_append, deepest_ownLines]
  | forLoop location start high body =>
      simp only [breaks, map, nesting, deepest_append, deepest_ownLines, deepest_flatten]
      cases start <;> simp [LoopStart.map, LoopStart.children, deepest]
  | funDecl heading loweredName parameters body =>
      simp only [breaks, map, nesting, deepest_append, deepest_ownLines, deepest_flatten]
      cases parameters <;> rfl
  | _ => simp only [breaks, map, nesting, children, deepest_flatten, List.map_cons, List.map_nil]

theorem Tree.deepest_breaks {tree : Tree}
    (sound : tree.Throughout (fun layer => layer.violation? = none)) :
    deepest tree.breaks = tree.nesting := by
  induction sound with
  | node layer here below ih =>
      have soundHere : (layer.map breaks).violation? = none := by
        rw [Layer.violation?_map]
        exact here
      have sameBelow : layer.map (fun child => deepest child.breaks) = layer.map nesting :=
        layer.map_congr ih
      rw [breaks, fold_node, nesting, fold_node]
      change deepest (layer.map breaks).breaks = (layer.map nesting).nesting
      rw [Layer.deepest_breaks soundHere, Layer.map_map, sameBelow]

theorem deepest_lt_iff {depths : List Nat} {factor limit : Nat} (positive : 0 < limit) :
    (∀ depth ∈ depths, depth * factor < limit) ↔ deepest depths * factor < limit := by
  induction depths with
  | nil => simpa [deepest] using positive
  | cons depth rest ih =>
      change _ ↔ max depth (deepest rest) * factor < limit
      rw [List.forall_mem_cons, ih, ← Nat.mul_max_mul_right]
      omega

/-- The lines of a layout are those that its pieces break. -/
theorem Layout.map_depth_ofPieces (pieces : List Piece) :
    (ofPieces pieces).lines.map Line.depth = pieces.filterMap Piece.level? := by
  induction pieces with
  | nil => rfl
  | cons piece rest ih =>
      cases piece with
      | line level => exact congrArg (level :: ·) ih
      | text words => exact ih
      | literal contents => exact ih
      | comment words => exact ih

namespace Arena

variable {arena : Arena} {style : Style} {root : NodeId}

private theorem render_of_width (acyclic : arena.Acyclic root)
    (readable : arena.Throughout (fun layer => layer.isReadable style.verbose) root)
    (sound : arena.Throughout (fun layer => layer.violation? = none) root) :
    arena.render style root =
      if (arena.unfold root).nesting * style.indentSize.toNat < UInt64.size then
        .ok ((arena.layout style.verbose root).textAt style.indentSize 0)
      else .error (.faulted .arithmeticOverflow) := by
  have completes := completes_of_sound acyclic readable sound
  have soundTree : (arena.unfold root).Throughout (fun layer => layer.violation? = none) := by
    refine throughout_unfold ?_ acyclic sound
    intro layer change holds
    rw [Layer.violation?_map]
    exact holds
  have fits_iff : Fits style.indentSize 0 ((arena.unfold root).passage style.verbose).pieces ↔
      (arena.unfold root).nesting * style.indentSize.toNat < UInt64.size := by
    rw [← Tree.deepest_breaks soundTree, ← deepest_lt_iff (by decide),
      ← Tree.levels_passage completes]
    simp only [Passage.levels, List.mem_filterMap]
    constructor
    · rintro fits depth ⟨piece, member, isDepth⟩
      cases piece with
      | line level =>
          cases isDepth
          have narrow := fits depth member
          rw [Nat.zero_add] at narrow
          exact narrow
      | text words => cases isDepth
      | literal contents => cases isDepth
      | comment words => cases isDepth
    · intro narrow level member
      rw [Nat.zero_add]
      exact narrow level ⟨.line level, member, rfl⟩
  by_cases room : (arena.unfold root).nesting * style.indentSize.toNat < UInt64.size
  · rw [if_pos room, render_of_fits rfl (fits_iff.mpr room), completes, layout,
      Layout.textAt_ofPieces]
  · rw [if_neg room, render_of_not_fits rfl (fun fits => room (fits_iff.mp fits))]

/-- Below a node where lookups succeed and nothing is violated the indentation overflows exactly if
block nesting times indentation size is no word. Otherwise the text is that of a layout whose lines
have the levels that the shape of the tree tells. Each of them starts with level times indentation
size blanks, and no blank more if the printed names are neither empty nor have white space in
them. -/
theorem overflows_iff_nesting (acyclic : arena.Acyclic root)
    (readable : arena.Throughout (fun layer => layer.isReadable style.verbose) root)
    (sound : arena.Throughout (fun layer => layer.violation? = none) root) :
    (arena.render style root = .error (.faulted .arithmeticOverflow) ↔
      UInt64.size ≤ (arena.unfold root).nesting * style.indentSize.toNat) ∧
    ((arena.unfold root).nesting * style.indentSize.toNat < UInt64.size →
      arena.render style root =
        .ok ((arena.layout style.verbose root).textAt style.indentSize 0)) ∧
    (arena.layout style.verbose root).lines.map Layout.Line.depth = (arena.unfold root).breaks ∧
    (arena.Throughout (fun layer => layer.isSolid style.verbose) root →
      ∀ line ∈ (arena.layout style.verbose root).lines, line.content.toList.head?.any isInk) := by
  have completes := completes_of_sound acyclic readable sound
  have rendered := render_of_width acyclic readable sound
  refine ⟨?overflow, ?room, ?levels, ?contents⟩
  case overflow =>
    rw [rendered]
    split
    · rename_i room
      constructor
      · intro impossible
        cases impossible
      · intro wide
        omega
    · rename_i wide
      constructor
      · intro _
        omega
      · intro _
        rfl
  case room =>
    intro room
    rw [rendered, if_pos room]
  case levels =>
    rw [layout, Layout.map_depth_ofPieces]
    exact Tree.levels_passage completes
  case contents =>
    intro solid
    have tidy := Tree.tidy_passage (solid_unfold acyclic solid) completes
    exact tidy.starts_in_ink.2

end Arena

/-- Two levels are too many for an indentation of `2 ^ 63` blanks, but for no smaller one. -/
theorem overflows_enclosedLoop :
    enclosedLoop.render ⟨9223372036854775808, false⟩ (.expr ⟨3⟩) =
        .error (.faulted .arithmeticOverflow) ∧
      enclosedLoop.render ⟨9223372036854775807, false⟩ (.expr ⟨3⟩) =
        .ok ((enclosedLoop.layout false (.expr ⟨3⟩)).textAt 9223372036854775807 0) ∧
      enclosedLoop.render ⟨2, false⟩ (.expr ⟨3⟩) =
        .ok "(\n  while 1 do\n    break;\n  1\n)" ∧
      (enclosedLoop.layout false (.expr ⟨3⟩)).lines.map Layout.Line.depth = [1, 2, 1, 0] ∧
      ∀ line ∈ (enclosedLoop.layout false (.expr ⟨3⟩)).lines,
        line.content.toList.head?.any isInk := by
  have acyclic : enclosedLoop.Acyclic (.expr ⟨3⟩) :=
    (by decide : enclosedLoop.Within 5 (.expr ⟨3⟩)).acyclic
  have readable : enclosedLoop.Throughout (fun layer => layer.isReadable false) (.expr ⟨3⟩) :=
    Arena.throughout_of_checkWithin (by decide : enclosedLoop.checkWithin _ 5 _)
  have unviolated : enclosedLoop.Throughout (fun layer => layer.violation?.isNone) (.expr ⟨3⟩) :=
    Arena.throughout_of_checkWithin (by decide : enclosedLoop.checkWithin _ 5 _)
  have sound : enclosedLoop.Throughout (fun layer => layer.violation? = none) (.expr ⟨3⟩) :=
    fun node reached => Option.isNone_iff_eq_none.mp (unviolated node reached)
  have solid : enclosedLoop.Throughout (fun layer => layer.isSolid false) (.expr ⟨3⟩) :=
    Arena.throughout_of_checkWithin (by decide : enclosedLoop.checkWithin _ 5 _)
  have nesting : (enclosedLoop.unfold (.expr ⟨3⟩)).nesting = 2 := by decide +kernel
  have breaks : (enclosedLoop.unfold (.expr ⟨3⟩)).breaks = [1, 2, 1, 0] := by decide +kernel
  have text : (enclosedLoop.layout false (.expr ⟨3⟩)).textAt 2 0 =
      "(\n  while 1 do\n    break;\n  1\n)" := by
    decide +kernel
  obtain ⟨overflows, _, levels, contents⟩ :=
    @Arena.overflows_iff_nesting enclosedLoop ⟨9223372036854775808, false⟩ _ acyclic readable sound
  obtain ⟨_, fits, _⟩ :=
    @Arena.overflows_iff_nesting enclosedLoop ⟨9223372036854775807, false⟩ _ acyclic readable sound
  obtain ⟨_, fitsToo, _⟩ :=
    @Arena.overflows_iff_nesting enclosedLoop ⟨2, false⟩ _ acyclic readable sound
  rw [nesting] at overflows fits fitsToo
  refine ⟨overflows.mpr (by decide), fits (by decide), ?_, levels.trans breaks, contents solid⟩
  rw [← text]
  exact fitsToo (by decide)

end TigerTree
