import TigerTree.Proofs.Unfolding.Layer

/-! Unfolded trees. A tree is a layer whose children are trees, so what is shared or linked in an
arena stands here as often as it is reached. Folding a tree is structural recursion on it, and
nearly everything that is computed from a tree is such a fold. -/

set_option autoImplicit false

namespace TigerTree

inductive Tree where
  | node (layer : Layer Tree)

namespace Tree

variable {Result : Type}

mutual

/-- Recursion on the tree, given what to do with a node whose children are done. -/
def fold (algebra : Layer Result → Result) : Tree → Result
  | .node (.broken fault) => algebra (.broken fault)
  | .node (.int location value) => algebra (.int location value)
  | .node (.string location contents) => algebra (.string location contents)
  | .node (.binary location operator left right) =>
      algebra (.binary location operator (fold algebra left) (fold algebra right))
  | .node (.sequence location elements) =>
      algebra (.sequence location (foldAll algebra elements))
  | .node (.letIn location decls body) =>
      algebra (.letIn location (foldAll algebra decls) (foldAll algebra body))
  | .node (.identifier location name site depth) =>
      algebra (.identifier location name site depth)
  | .node (.ifThenElse location condition thenBranch elseBranch) =>
      algebra (.ifThenElse location (fold algebra condition) (fold algebra thenBranch)
        (fold algebra elseBranch))
  | .node (.call location function site arguments) =>
      algebra (.call location function site (foldAll algebra arguments))
  | .node (.whileLoop location condition body) =>
      algebra (.whileLoop location (fold algebra condition) (fold algebra body))
  | .node (.forLoop location (.lost fault) high body) =>
      algebra (.forLoop location (.lost fault) (fold algebra high) (fold algebra body))
  | .node (.forLoop location .missing high body) =>
      algebra (.forLoop location .missing (fold algebra high) (fold algebra body))
  | .node (.forLoop location (.bound heading low) high body) =>
      algebra (.forLoop location (.bound heading (fold algebra low)) (fold algebra high)
        (fold algebra body))
  | .node (.breakLoop location target) => algebra (.breakLoop location target)
  | .node (.assign location target value) =>
      algebra (.assign location (fold algebra target) (fold algebra value))
  | .node (.varDecl heading initializer) =>
      algebra (.varDecl heading (fold algebra initializer))
  | .node (.parameter heading) => algebra (.parameter heading)
  | .node (.funDecl heading loweredName (.error fault) body) =>
      algebra (.funDecl heading loweredName (.error fault) (fold algebra body))
  | .node (.funDecl heading loweredName (.ok parameters) body) =>
      algebra (.funDecl heading loweredName (.ok (foldAll algebra parameters))
        (fold algebra body))

def foldAll (algebra : Layer Result → Result) : List Tree → List Result
  | [] => []
  | tree :: rest => fold algebra tree :: foldAll algebra rest

end

theorem foldAll_eq_map (algebra : Layer Result → Result) (trees : List Tree) :
    foldAll algebra trees = trees.map (fold algebra) := by
  induction trees with
  | nil => rfl
  | cons tree rest ih => simp only [foldAll, ih, List.map_cons]

/-- The law of folding; nothing else is used of it. -/
theorem fold_node (algebra : Layer Result → Result) (layer : Layer Tree) :
    fold algebra (.node layer) = algebra (layer.map (fold algebra)) := by
  cases layer with
  | forLoop location start high body =>
      cases start <;> simp [fold, Layer.map, LoopStart.map]
  | funDecl heading loweredName parameters body =>
      cases parameters <;> simp [fold, Layer.map, Except.map, foldAll_eq_map]
  | _ => simp [fold, Layer.map, foldAll_eq_map]

private theorem sizeOf_child_lt (layer : Layer Tree) (child : Tree)
    (member : child ∈ layer.children) : sizeOf child < sizeOf (Tree.node layer) := by
  have fromList (trees : List Tree) (inside : child ∈ trees) : sizeOf child < sizeOf trees :=
    List.sizeOf_lt_of_mem inside
  cases layer with
  | letIn location decls body =>
      rcases List.mem_append.mp member with inDecls | inBody
      · have smaller := fromList decls inDecls
        simp
        omega
      · have smaller := fromList body inBody
        simp
        omega
  | forLoop location start high body =>
      cases start <;> simp [Layer.children, LoopStart.children] at member <;>
        rcases member with rfl | rfl | rfl <;> simp <;> omega
  | funDecl heading loweredName parameters body =>
      cases parameters with
      | error fault =>
          simp [Layer.children, Layer.listed] at member
          subst member
          simp
          omega
      | ok trees =>
          rcases List.mem_append.mp member with inTrees | isBody
          · have smaller := fromList trees inTrees
            simp
            omega
          · rw [List.mem_singleton] at isBody
            subst isBody
            simp
            omega
  | sequence location elements =>
      have smaller := fromList elements member
      simp
      omega
  | call location function site arguments =>
      have smaller := fromList arguments member
      simp
      omega
  | _ =>
      simp [Layer.children] at member <;>
        rcases member with rfl | rfl | rfl <;> simp <;> omega

/-- What passes from the children of every node to the node holds of every tree. -/
@[elab_as_elim, induction_eliminator]
theorem induct {motive : Tree → Prop}
    (node : ∀ layer, (∀ child ∈ layer.children, motive child) → motive (.node layer)) :
    ∀ tree, motive tree
  | .node layer => node layer (fun child _member => induct node child)
termination_by tree => sizeOf tree
decreasing_by exact sizeOf_child_lt layer child _member

inductive Throughout (property : Layer Tree → Prop) : Tree → Prop
  | node (layer : Layer Tree) (here : property layer)
      (below : ∀ child ∈ layer.children, Throughout property child) :
      Throughout property (.node layer)

theorem Throughout.imp {property weaker : Layer Tree → Prop}
    (weakens : ∀ layer, property layer → weaker layer) {tree : Tree}
    (holds : tree.Throughout property) : tree.Throughout weaker := by
  induction holds with
  | node layer here _ ih => exact .node layer (weakens layer here) ih

end Tree
end TigerTree
