import Mathlib.Data.List.Chain
import Mathlib.Data.List.Perm.Subperm
import Mathlib.Logic.Relation
import TigerTree.Proofs.Unfolding.Tree

/-! What lies below a node of an arena. Ownership leads from a node to the children of its layer;
where it never comes back to the node it left, the tables bound its paths, and the node unfolds
to a tree. Links may run anywhere. -/

set_option autoImplicit false

namespace TigerTree
namespace Arena

open Relation (ReflTransGen TransGen)

variable {arena : Arena}

def Owns (arena : Arena) (parent child : NodeId) : Prop :=
  child ∈ (arena.layer parent).children

/-- The node is the root or lies below it. -/
def Reaches (arena : Arena) (root node : NodeId) : Prop :=
  ReflTransGen arena.Owns root node

/-- No node that the root reaches lies below itself. -/
def Acyclic (arena : Arena) (root : NodeId) : Prop :=
  ∀ node, arena.Reaches root node → ¬ TransGen arena.Owns node node

/-- The property holds of every node that the root reaches. -/
def Throughout (arena : Arena) (property : Layer NodeId → Prop) (root : NodeId) : Prop :=
  ∀ node, arena.Reaches root node → property (arena.layer node)

/-- The paths down from the node have at most the given number of nodes. -/
def Within (arena : Arena) : Nat → NodeId → Prop
  | 0, _ => False
  | length + 1, node => ∀ child ∈ (arena.layer node).children, arena.Within length child

def decideWithin (arena : Arena) : (length : Nat) → (node : NodeId) →
    Decidable (arena.Within length node)
  | 0, _ => .isFalse id
  | length + 1, node =>
      have (child : NodeId) : Decidable (arena.Within length child) :=
        arena.decideWithin length child
      inferInstanceAs (Decidable (∀ child ∈ (arena.layer node).children, _))

instance (length : Nat) (node : NodeId) : Decidable (arena.Within length node) :=
  arena.decideWithin length node

theorem Within.mono {length longer : Nat} {node : NodeId} (within : arena.Within length node)
    (bound : length ≤ longer) : arena.Within longer node := by
  induction length generalizing longer node with
  | zero => exact within.elim
  | succ length ih =>
      obtain ⟨longer, rfl⟩ : ∃ shorter, longer = shorter + 1 := ⟨longer - 1, by omega⟩
      intro child member
      exact ih (within child member) (by omega)

theorem Within.below {length : Nat} {root node : NodeId} (within : arena.Within length root)
    (reached : TransGen arena.Owns root node) :
    ∃ shorter < length, arena.Within shorter node := by
  induction reached with
  | single owned =>
      cases length with
      | zero => exact within.elim
      | succ length => exact ⟨length, Nat.lt_succ_self length, within _ owned⟩
  | tail _ owned ih =>
      obtain ⟨shorter, bound, inside⟩ := ih
      cases shorter with
      | zero => exact inside.elim
      | succ shorter => exact ⟨shorter, by omega, inside _ owned⟩

theorem Within.irreflexive {length : Nat} {node : NodeId} (within : arena.Within length node) :
    ¬ TransGen arena.Owns node node := by
  intro cycle
  induction length using Nat.strong_induction_on with
  | _ length ih =>
      obtain ⟨shorter, bound, inside⟩ := within.below cycle
      exact ih shorter bound inside

theorem Within.acyclic {length : Nat} {root : NodeId} (within : arena.Within length root) :
    arena.Acyclic root := by
  intro node reached
  rcases Relation.reflTransGen_iff_eq_or_transGen.mp reached with same | below
  · exact same ▸ within.irreflexive
  · obtain ⟨shorter, _, inside⟩ := within.below below
    exact inside.irreflexive

def checkWithin (arena : Arena) (check : Layer NodeId → Bool) : Nat → NodeId → Bool
  | 0, _ => false
  | length + 1, node =>
      check (arena.layer node) &&
        (arena.layer node).children.all (arena.checkWithin check length)

theorem throughout_of_checkWithin {check : Layer NodeId → Bool} {length : Nat} {root : NodeId}
    (checked : arena.checkWithin check length root) :
    arena.Throughout (fun layer => check layer) root := by
  intro node reached
  induction reached using ReflTransGen.head_induction_on generalizing length with
  | refl =>
      cases length with
      | zero => cases checked
      | succ length =>
          rw [checkWithin, Bool.and_eq_true] at checked
          exact checked.1
  | head owned _ ih =>
      cases length with
      | zero => cases checked
      | succ length =>
          rw [checkWithin, Bool.and_eq_true, List.all_eq_true] at checked
          exact ih (checked.2 _ owned)

/-! ### The tables bound the paths -/

private def stored (arena : Arena) : List NodeId :=
  (List.range arena.exprs.size).map (fun index => .expr ⟨index.toUInt32⟩) ++
    (List.range arena.decls.size).map (fun index => .decl ⟨index.toUInt32⟩)

private theorem Owns.stored {parent child : NodeId} (owned : arena.Owns parent child) :
    parent ∈ arena.stored := by
  unfold Owns at owned
  cases parent with
  | expr id =>
      have inside : id.index.toNat < arena.exprs.size := by
        by_contra outside
        simp [layer, expr, Array.getElem?_eq_none (Nat.le_of_not_lt outside), Layer.children]
          at owned
      refine List.mem_append_left _ (List.mem_map.mpr ⟨id.index.toNat, ?_, ?_⟩)
      · exact List.mem_range.mpr inside
      · simp
  | decl id =>
      have inside : id.index.toNat < arena.decls.size := by
        by_contra outside
        simp [layer, decl, Array.getElem?_eq_none (Nat.le_of_not_lt outside), Layer.children]
          at owned
      refine List.mem_append_right _ (List.mem_map.mpr ⟨id.index.toNat, ?_, ?_⟩)
      · exact List.mem_range.mpr inside
      · simp

private theorem exists_path {length : Nat} {node : NodeId} (outside : ¬ arena.Within length node) :
    ∃ path last, path.length = length ∧ List.IsChain arena.Owns (path ++ [last]) ∧
      (path ++ [last]).head? = some node := by
  induction length generalizing node with
  | zero => exact ⟨[], node, rfl, List.isChain_singleton node, rfl⟩
  | succ length ih =>
      simp only [Within, not_forall] at outside
      obtain ⟨child, owned, deeper⟩ := outside
      obtain ⟨path, last, size, chain, start⟩ := ih deeper
      refine ⟨node :: path, last, by simp [size], ?_, rfl⟩
      refine List.isChain_cons.mpr ⟨?_, chain⟩
      intro next isNext
      have same : some child = some next := start.symm.trans isNext
      cases same
      exact owned

private theorem path_stored {path : List NodeId} {last : NodeId}
    (chain : List.IsChain arena.Owns (path ++ [last])) : path ⊆ arena.stored := by
  induction path with
  | nil => exact List.nil_subset _
  | cons node rest ih =>
      obtain ⟨first, later⟩ := List.isChain_cons.mp chain
      refine List.cons_subset.mpr ⟨?_, ih later⟩
      cases rest with
      | nil => exact (first last rfl).stored
      | cons next rest => exact (first next rfl).stored

private theorem path_nodup {root : NodeId} {path : List NodeId} (acyclic : arena.Acyclic root)
    (chain : List.IsChain arena.Owns path) (start : path.head? = some root) : path.Nodup := by
  have ordered : path.Pairwise (TransGen arena.Owns) :=
    List.isChain_iff_pairwise.mp (chain.imp (fun _ _ owned => TransGen.single owned))
  have reached : ∀ node ∈ path, arena.Reaches root node := by
    cases path with
    | nil => cases start
    | cons first rest =>
        cases start
        intro node member
        rcases List.mem_cons.mp member with same | later
        · exact same ▸ ReflTransGen.refl
        · exact ((List.pairwise_cons.mp ordered).1 node later).to_reflTransGen
  refine ordered.imp_of_mem ?_
  intro earlier later isEarlier _ below same
  subst same
  exact acyclic earlier (reached earlier isEarlier) below

/-- The fuel of every walk suffices below a root that reaches no cycle. -/
theorem Acyclic.within {root : NodeId} (acyclic : arena.Acyclic root) :
    arena.Within arena.pathBound root := by
  by_contra outside
  obtain ⟨path, last, size, chain, start⟩ := exists_path outside
  have distinct : path.Nodup :=
    (path_nodup acyclic chain start).sublist (List.sublist_append_left path [last])
  have bound := (distinct.subperm (path_stored chain)).length_le
  simp only [size, pathBound, stored, List.length_append, List.length_map, List.length_range]
    at bound
  omega

/-- The tree below a node, cut off where a path is longer than the given number of nodes. -/
def unfoldWithin (arena : Arena) : Nat → NodeId → Tree
  | 0, _ => .node (.broken .cyclicTree)
  | length + 1, node => .node ((arena.layer node).map (arena.unfoldWithin length))

/-- The tree below a node. -/
def unfold (arena : Arena) (root : NodeId) : Tree :=
  arena.unfoldWithin arena.pathBound root

/-- Nodes that read the same down from the root unfold to the same tree. -/
theorem unfold_congr {other : Arena} {root : NodeId}
    (layers : ∀ node, arena.Reaches root node → other.layer node = arena.layer node)
    (bound : other.pathBound = arena.pathBound) : other.unfold root = arena.unfold root := by
  have within (length : Nat) (node : NodeId) (reached : arena.Reaches root node) :
      other.unfoldWithin length node = arena.unfoldWithin length node := by
    induction length generalizing node with
    | zero => rfl
    | succ length ih =>
        rw [unfoldWithin, unfoldWithin, layers node reached]
        refine congrArg Tree.node (Layer.map_congr _ ?_)
        exact fun child member => ih child (reached.tail member)
  rw [unfold, unfold, bound, within _ root .refl]

theorem unfoldWithin_of_within {length longer : Nat} {node : NodeId}
    (within : arena.Within length node) (bound : length ≤ longer) :
    arena.unfoldWithin longer node = arena.unfoldWithin length node := by
  induction length generalizing longer node with
  | zero => exact within.elim
  | succ length ih =>
      obtain ⟨longer, rfl⟩ : ∃ shorter, longer = shorter + 1 := ⟨longer - 1, by omega⟩
      simp only [unfoldWithin]
      congr 1
      refine Layer.map_congr _ ?_
      intro child member
      exact ih (within child member) (by omega)

/-- Nothing is cut off below a root that reaches no cycle: its tree is its layer with the trees
of its children. -/
theorem unfold_eq {root : NodeId} (acyclic : arena.Acyclic root) :
    arena.unfold root = .node ((arena.layer root).map arena.unfold) := by
  have within := acyclic.within
  unfold unfold at *
  rw [show arena.pathBound = arena.exprs.size + arena.decls.size + 1 from rfl] at within ⊢
  simp only [unfoldWithin]
  congr 1
  refine Layer.map_congr _ ?_
  intro child member
  exact (unfoldWithin_of_within (within child member) (Nat.le_succ _)).symm

/-- What holds of every node below a root holds of every layer of its tree. -/
theorem throughout_unfold {property : Layer NodeId → Prop} {onTrees : Layer Tree → Prop}
    (carry : ∀ layer change, property layer → onTrees (layer.map change)) {root : NodeId}
    (acyclic : arena.Acyclic root) (holds : arena.Throughout property root) :
    (arena.unfold root).Throughout onTrees := by
  have within := acyclic.within
  unfold unfold
  generalize arena.pathBound = length at within
  clear acyclic
  induction length generalizing root with
  | zero => exact within.elim
  | succ length ih =>
      simp only [unfoldWithin]
      refine .node _ (carry _ _ (holds root .refl)) ?_
      intro tree member
      rw [Layer.children_map] at member
      obtain ⟨child, owned, rfl⟩ := List.mem_map.mp member
      refine ih (fun node reached => holds node (.head owned reached)) (within child owned)

/-- The node and all below it, parents before their children and children in document order, cut
off where a path is longer than the given number of nodes. What is shared stands in every place. -/
def preorderWithin (arena : Arena) : Nat → NodeId → List NodeId
  | 0, _ => []
  | length + 1, node =>
      node :: (arena.layer node).children.flatMap (arena.preorderWithin length)

def preorder (arena : Arena) (root : NodeId) : List NodeId :=
  arena.preorderWithin arena.pathBound root

theorem mem_preorderWithin {length : Nat} {root node : NodeId}
    (within : arena.Within length root) :
    node ∈ arena.preorderWithin length root ↔ arena.Reaches root node := by
  induction length generalizing root with
  | zero => exact within.elim
  | succ length ih =>
      rw [preorderWithin, List.mem_cons, List.mem_flatMap, Reaches,
        Relation.ReflTransGen.cases_head_iff]
      constructor
      · rintro (same | ⟨child, owned, inside⟩)
        · exact .inl same.symm
        · exact .inr ⟨child, owned, (ih (within child owned)).mp inside⟩
      · rintro (same | ⟨child, owned, reached⟩)
        · exact .inl same.symm
        · exact .inr ⟨child, owned, (ih (within child owned)).mpr reached⟩

theorem mem_preorder {root node : NodeId} (acyclic : arena.Acyclic root) :
    node ∈ arena.preorder root ↔ arena.Reaches root node :=
  mem_preorderWithin acyclic.within

end Arena
end TigerTree
