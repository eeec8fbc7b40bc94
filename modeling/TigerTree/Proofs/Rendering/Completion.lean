import TigerTree.Proofs.Rendering.Violations

/-! Trees whose writing is not stopped. The pieces of such a tree are the pieces of its sketch, one
item after the other. -/

set_option autoImplicit false

namespace TigerTree

def Item.output (verbose : Bool) (item : Item Tree) : Passage :=
  (item.map (Tree.passage verbose)).passage verbose

def Item.pieces (verbose : Bool) (items : List (Item Tree)) : List Piece :=
  items.flatMap (fun item => (item.output verbose).pieces)

theorem Item.pieces_cons (verbose : Bool) (item : Item Tree) (rest : List (Item Tree)) :
    pieces verbose (item :: rest) = (item.output verbose).pieces ++ pieces verbose rest :=
  List.flatMap_cons

theorem Item.pieces_append (verbose : Bool) (first second : List (Item Tree)) :
    pieces verbose (first ++ second) = pieces verbose first ++ pieces verbose second :=
  List.flatMap_append

def Tree.Completes (verbose : Bool) (tree : Tree) : Prop :=
  (tree.passage verbose).stop = none

namespace Tree

variable {verbose : Bool} {layer : Layer Tree}

namespace Completes

theorem item (completes : (node layer).Completes verbose) {item : Item Tree}
    (member : item ∈ layer.sketch) : (item.output verbose).stop = none := by
  unfold Completes at completes
  rw [passage_eq_concat] at completes
  exact Passage.stop_eq_none_of_mem completes (List.mem_map_of_mem member)

theorem not_stop (completes : (node layer).Completes verbose) (reason : Stop RenderError) :
    .stop reason ∉ layer.sketch := by
  intro member
  cases completes.item member

theorem child (completes : (node layer).Completes verbose) {depth : Nat} {inner : Tree}
    (member : .child depth inner ∈ layer.sketch) : inner.Completes verbose :=
  Option.map_eq_none_iff.mp (completes.item member)

theorem of_mem_children (completes : (node layer).Completes verbose) {child : Tree}
    (member : child ∈ layer.children) : child.Completes verbose := by
  rcases Layer.child_mem_sketch member with ⟨depth, inSketch⟩ | ⟨reason, inSketch⟩
  · exact completes.child inSketch
  · exact absurd inSketch (completes.not_stop reason)

end Completes

theorem pieces_of_completes (completes : (node layer).Completes verbose) :
    ((node layer).passage verbose).pieces = Item.pieces verbose layer.sketch := by
  unfold Completes at completes
  rw [passage_eq_concat] at completes ⊢
  rw [Passage.pieces_concat completes, List.flatMap_map]
  rfl

end Tree

/-- The tree of a node below which lookups succeed and nothing is violated is written to its
end. -/
theorem Arena.completes_of_sound {arena : Arena} {verbose : Bool} {root : NodeId}
    (acyclic : arena.Acyclic root)
    (readable : arena.Throughout (fun layer => layer.isReadable verbose) root)
    (sound : arena.Throughout (fun layer => layer.violation? = none) root) :
    (arena.unfold root).Completes verbose := by
  have stops := reason?_unfoldWithin acyclic.within readable
  have unobjected : (arena.preorder root).findSome?
      (fun node => (arena.layer node).violation?) = none := by
    rw [List.findSome?_eq_none_iff]
    intro node member
    exact sound node ((mem_preorder acyclic).mp member)
  have noReason := stops.trans (congrArg (Option.map Stop.ofViolation) unobjected)
  exact Option.map_eq_none_iff.mp noReason

end TigerTree
