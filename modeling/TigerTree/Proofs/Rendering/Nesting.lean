import TigerTree.Proofs.Rendering.Layout
import TigerTree.Proofs.Rendering.Vocabulary

/-! How deep a tree is nested in blocks. No line of its text is indented by more levels. -/

set_option autoImplicit false

namespace TigerTree

def deepest (depths : List Nat) : Nat := depths.foldr max 0

theorem le_deepest {depth : Nat} {depths : List Nat} (member : depth ∈ depths) :
    depth ≤ deepest depths := by
  induction depths with
  | nil => cases member
  | cons first rest ih =>
      rcases List.mem_cons.mp member with rfl | later
      · exact le_max_left _ _
      · exact (ih later).trans (le_max_right _ _)

/-- The block nesting of a node whose children have theirs: lists, branches and bodies are
indented by one level. -/
def Layer.nesting : Layer Nat → Nat
  | .sequence _ elements => 1 + deepest elements
  | .letIn _ decls body => 1 + deepest (decls ++ body)
  | .ifThenElse _ condition thenBranch elseBranch => 1 + deepest [condition, thenBranch, elseBranch]
  | .whileLoop _ condition body => max condition (1 + body)
  | .forLoop _ start high body => max (deepest (start.children ++ [high])) (1 + body)
  | .funDecl _ _ parameters body => max (deepest (listed parameters)) (1 + body)
  | layer => deepest layer.children

def Tree.nesting (tree : Tree) : Nat :=
  tree.fold Layer.nesting

def Item.reach : Item Nat → Nat
  | .line depth => depth
  | .child depth nesting => depth + nesting
  | _ => 0

private theorem shallow_variableType (heading : Heading) (bound : Nat) :
    ∀ item ∈ Item.variableType heading, item.reach ≤ bound := by
  unfold Item.variableType
  cases heading.typeName with
  | some typeName => simp [Item.reach]
  | none => cases heading.type <;> simp [SemanticType.surfaceName?, Item.reach]

private theorem shallow_resultType (heading : Heading) (bound : Nat) :
    ∀ item ∈ Item.resultType heading, item.reach ≤ bound := by
  unfold Item.resultType
  cases heading.typeName <;> simp [Item.reach]

open Item in
/-- Every line and every child of a sketch lies within the nesting. -/
theorem Layer.reach_le_nesting (layer : Layer Nat) :
    ∀ item ∈ layer.sketch, item.reach ≤ layer.nesting := by
  cases layer with
  | sequence location elements =>
      cases elements with
      | nil => simp [sketch, violated, reach]
      | cons first rest =>
          have inLines : ∀ item ∈ lines (first :: rest),
              item.reach ≤ (sequence location (first :: rest)).nesting :=
            all_lines (Nat.zero_le _) (Nat.le_add_right 1 _)
              (fun child isChild => Nat.add_le_add_left (le_deepest isChild) 1)
          simp only [sketch, List.forall_mem_cons, List.forall_mem_append]
          exact ⟨Nat.zero_le _, inLines, Nat.zero_le _, Nat.zero_le _, by simp⟩
  | letIn location decls body =>
      cases body with
      | nil => simp [sketch, violated, reach]
      | cons first rest =>
          have inBlocks : ∀ item ∈ decls.flatMap block,
              item.reach ≤ (letIn location decls (first :: rest)).nesting :=
            all_blocks (Nat.le_add_right 1 _) (fun child isChild =>
              Nat.add_le_add_left (le_deepest (List.mem_append_left _ isChild)) 1)
          have inLines : ∀ item ∈ lines (first :: rest),
              item.reach ≤ (letIn location decls (first :: rest)).nesting :=
            all_lines (Nat.zero_le _) (Nat.le_add_right 1 _) (fun child isChild =>
              Nat.add_le_add_left (le_deepest (List.mem_append_right _ isChild)) 1)
          simp only [sketch, List.forall_mem_cons, List.forall_mem_append]
          exact ⟨Nat.zero_le _, inBlocks, ⟨Nat.zero_le _, Nat.zero_le _, by simp⟩, inLines,
            Nat.zero_le _, Nat.zero_le _, by simp⟩
  | call location function site arguments =>
      have inJoined : ∀ item ∈ joined [.text ", "] 0 arguments,
          item.reach ≤ (call location function site arguments).nesting := by
        refine all_joined (by simp [reach]) ?_
        intro child isChild
        rw [reach, Nat.zero_add]
        exact le_deepest isChild
      simp only [sketch, List.forall_mem_cons, List.forall_mem_append]
      exact ⟨Nat.zero_le _, Nat.zero_le _, Nat.zero_le _, inJoined, Nat.zero_le _, by simp⟩
  | varDecl heading initializer =>
      simp only [sketch, List.forall_mem_cons, List.forall_mem_append]
      refine ⟨Nat.zero_le _, Nat.zero_le _, Nat.zero_le _, shallow_variableType heading _,
        Nat.zero_le _, ?_, by simp⟩
      rw [reach, Nat.zero_add]
      exact le_deepest List.mem_cons_self
  | parameter heading =>
      simp only [sketch, List.forall_mem_cons]
      exact ⟨Nat.zero_le _, Nat.zero_le _, shallow_variableType heading _⟩
  | funDecl heading loweredName parameters body =>
      cases parameters with
      | error fault => simp [sketch, reach]
      | ok parameters =>
          have inJoined : ∀ item ∈ joined [.text ", "] 0 parameters,
              item.reach ≤ (funDecl heading loweredName (.ok parameters) body).nesting := by
            refine all_joined (by simp [reach]) ?_
            intro child isChild
            rw [reach, Nat.zero_add]
            exact (le_deepest isChild).trans (le_max_left _ _)
          simp only [sketch, List.forall_mem_cons, List.forall_mem_append]
          refine ⟨Nat.zero_le _, Nat.zero_le _, Nat.zero_le _, Nat.zero_le _, inJoined,
            Nat.zero_le _, shallow_resultType heading _, Nat.zero_le _, ?_⟩
          simp only [block, List.forall_mem_cons, List.not_mem_nil, false_implies, implies_true,
            and_true, reach, nesting]
          omega
  | forLoop location start high body =>
      cases start with
      | lost fault => simp [sketch, reach]
      | missing => simp [sketch, violated, reach]
      | bound heading low =>
          simp only [sketch, block, List.forall_mem_cons, List.not_mem_nil, false_implies,
            implies_true, and_true, reach, nesting, deepest, LoopStart.children, List.cons_append,
            List.nil_append, List.foldr_cons, List.foldr_nil]
          omega
  | _ =>
      simp only [sketch, block, List.forall_mem_cons, List.not_mem_nil, false_implies,
        implies_true, and_true, List.cons_append, List.nil_append, reach, nesting, deepest,
        children, List.foldr_cons, List.foldr_nil]
      omega

theorem Tree.level_le_nesting {tree : Tree} (verbose : Bool) {level : Nat}
    (written : .line level ∈ (tree.passage verbose).pieces) : level ≤ tree.nesting := by
  induction tree generalizing level with
  | node layer ih =>
      rw [nesting, fold_node]
      rw [passage_eq_concat] at written
      obtain ⟨passage, isPassage, written⟩ := Passage.mem_concat written
      obtain ⟨item, isItem, rfl⟩ := List.mem_map.mp isPassage
      have reaches : (item.map nesting).reach ≤ (layer.map nesting).nesting := by
        refine Layer.reach_le_nesting _ _ ?_
        rw [Layer.sketch_map]
        exact List.mem_map_of_mem isItem
      cases item with
      | line depth =>
          cases List.mem_singleton.mp written
          exact reaches
      | child depth inner =>
          obtain ⟨piece, isPiece, raised⟩ := List.mem_map.mp written
          cases piece with
          | line deeper =>
              cases raised
              have inside := ih inner (layer.admits_of_mem_sketch _ isItem).2 isPiece
              rw [Item.map, Item.reach] at reaches
              exact le_trans (by omega) reaches
          | text words => cases raised
          | literal contents => cases raised
          | comment words => cases raised
      | text words => simp [Item.map, Passage.text, Passage.write] at written
      | name spelling =>
          cases spelling <;>
            simp [Item.map, Passage.text, Passage.write, Passage.halt] at written
      | literal contents =>
          cases contents <;> simp [Item.map, Passage.write, Passage.halt] at written
      | note words =>
          cases words with
          | none => cases written
          | some words =>
              cases verbose <;> cases words <;>
                simp [Item.map, Item.passage, Passage.empty, Passage.write, Passage.halt]
                  at written
      | stop reason => cases written

/-- Where the block nesting leaves room for the indentation, no line is too wide. -/
theorem Tree.fits_of_nesting {tree : Tree} (verbose : Bool) {indentSize : UInt64}
    (room : indentSize.toNat * tree.nesting < Page.widthLimit) :
    Fits indentSize 0 (tree.passage verbose).pieces := by
  intro level written
  have shallow := Tree.level_le_nesting verbose written
  calc (0 + level) * indentSize.toNat
      = level * indentSize.toNat := by rw [Nat.zero_add]
    _ ≤ tree.nesting * indentSize.toNat := Nat.mul_le_mul_right _ shallow
    _ = indentSize.toNat * tree.nesting := Nat.mul_comm _ _
    _ < Page.widthLimit := room

end TigerTree
