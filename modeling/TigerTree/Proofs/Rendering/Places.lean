import TigerTree.Proofs.Rendering.Objections

/-! Where the nodes of a tree stand in its text. An element of a sequence, a declaration or body
expression of a `let`, a part of an `if` and the body of a loop or function stand one level deeper
than their node, every other child at its level. Levels add up along a path. -/

set_option autoImplicit false

namespace TigerTree

variable {Child Other : Type}

def LoopStart.positions : LoopStart Child → List (Nat × Child)
  | .lost _ | .missing => []
  | .bound _ low => [(0, low)]

/-- The children in document order, with the number of levels each stands deeper than the node. -/
def Layer.positions : Layer Child → List (Nat × Child)
  | .broken _ | .int _ _ | .string _ _ | .identifier _ _ _ _ | .breakLoop _ _ | .parameter _ =>
      []
  | .binary _ _ left right => [(0, left), (0, right)]
  | .sequence _ elements => elements.map (Prod.mk 1)
  | .letIn _ decls body => (decls ++ body).map (Prod.mk 1)
  | .ifThenElse _ condition thenBranch elseBranch =>
      [(1, condition), (1, thenBranch), (1, elseBranch)]
  | .call _ _ _ arguments => arguments.map (Prod.mk 0)
  | .whileLoop _ condition body => [(0, condition), (1, body)]
  | .forLoop _ start high body => start.positions ++ [(0, high), (1, body)]
  | .assign _ target value => [(0, target), (0, value)]
  | .varDecl _ initializer => [(0, initializer)]
  | .funDecl _ _ parameters body => (listed parameters).map (Prod.mk 0) ++ [(1, body)]

theorem Layer.map_positions (layer : Layer Child) :
    layer.positions.map Prod.snd = layer.children := by
  cases layer with
  | forLoop location start high body => cases start <;> rfl
  | _ => simp [positions, children, Function.comp_def]

namespace Item

def position? : Item Child → Option (Nat × Child)
  | .child depth inner => some (depth, inner)
  | _ => none

@[simp]
theorem position?_child (depth : Nat) (inner : Child) :
    (child depth inner).position? = some (depth, inner) := rfl

@[simp]
theorem position?_text (words : String) : (text words : Item Child).position? = none := rfl

@[simp]
theorem position?_name (spelling : Except Fault String) :
    (name spelling : Item Child).position? = none := rfl

@[simp]
theorem position?_note (words : Option (Except Fault String)) :
    (note words : Item Child).position? = none := rfl

@[simp]
theorem position?_line (depth : Nat) : (line depth : Item Child).position? = none := rfl

theorem filterMap_joined {separator : List (Item Child)}
    (childless : separator.filterMap position? = []) (depth : Nat) (children : List Child) :
    (joined separator depth children).filterMap position? = children.map (Prod.mk depth) := by
  cases children with
  | nil => rfl
  | cons first rest =>
      simp [joined, List.filterMap_flatMap, childless, ← List.map_eq_flatMap]

theorem filterMap_listed (children : List Child) :
    (joined [text ", "] 0 children).filterMap position? = children.map (Prod.mk 0) :=
  filterMap_joined rfl 0 children

theorem filterMap_lines (children : List Child) :
    (lines children).filterMap position? = children.map (Prod.mk 1) :=
  filterMap_joined rfl 1 children

theorem filterMap_blocks (children : List Child) :
    (children.flatMap block).filterMap position? = children.map (Prod.mk 1) := by
  simp [block, List.filterMap_cons, List.filterMap_flatMap, ← List.map_eq_flatMap]

theorem filterMap_variableType (heading : Heading) :
    (variableType heading : List (Item Child)).filterMap position? = [] := by
  unfold variableType
  cases heading.typeName with
  | some typeName => rfl
  | none => cases heading.type.surfaceName? <;> rfl

theorem filterMap_resultType (heading : Heading) :
    (resultType heading : List (Item Child)).filterMap position? = [] := by
  unfold resultType
  cases heading.typeName <;> rfl

end Item

open Item in
/-- A sketch shows all children in their places, unless the node itself stops it. -/
theorem Layer.filterMap_sketch {layer : Layer Child} (intact : layer.withoutLinks.isIntact)
    (sound : layer.violation? = none) : layer.sketch.filterMap position? = layer.positions := by
  cases layer with
  | broken fault => cases intact
  | sequence location elements =>
      cases elements with
      | nil => cases sound
      | cons first rest =>
          simp [sketch, positions, List.filterMap_cons, filterMap_lines]
  | letIn location decls body =>
      cases body with
      | nil => cases sound
      | cons first rest =>
          simp [sketch, positions, List.filterMap_cons, filterMap_lines, filterMap_blocks]
  | call location function site arguments =>
      simp [sketch, positions, List.filterMap_cons, filterMap_listed]
  | forLoop location start high body =>
      cases start with
      | lost fault => cases intact
      | missing => cases sound
      | bound heading low => rfl
  | varDecl heading initializer =>
      simp [sketch, positions, List.filterMap_cons, filterMap_variableType]
  | parameter heading => simp [sketch, positions, List.filterMap_cons, filterMap_variableType]
  | funDecl heading loweredName parameters body =>
      cases parameters with
      | error fault => simp [isIntact, withoutLinks, Except.isOk, Except.toBool] at intact
      | ok parameters =>
          simp [sketch, positions, listed, List.filterMap_cons, filterMap_listed,
            filterMap_resultType, block]
  | _ => rfl

structure Place where
  node : NodeId
  depth : Nat
  deriving DecidableEq

def Place.deeper (levels : Nat) (place : Place) : Place :=
  { place with depth := place.depth + levels }

namespace Arena

variable {arena : Arena}

def placesWithin (arena : Arena) : Nat → NodeId → List Place
  | 0, _ => []
  | length + 1, node =>
      ⟨node, 0⟩ :: (arena.layer node).positions.flatMap (fun (levels, child) =>
        (arena.placesWithin length child).map (Place.deeper levels))

/-- The places of the node and of all below it. A node that is shared has several. -/
def places (arena : Arena) (root : NodeId) : List Place :=
  arena.placesWithin arena.pathBound root

theorem map_placesWithin (length : Nat) (root : NodeId) :
    (arena.placesWithin length root).map Place.node = arena.preorderWithin length root := by
  induction length generalizing root with
  | zero => rfl
  | succ length ih =>
      have below (levels : Nat) (child : NodeId) :
          ((arena.placesWithin length child).map (Place.deeper levels)).map Place.node =
            arena.preorderWithin length child := by
        rw [List.map_map, ← ih]
        rfl
      simp only [placesWithin, preorderWithin, List.map_cons, List.map_flatMap, below]
      rw [← Layer.map_positions, List.flatMap_map]

theorem find?_placesWithin_of_some {length : Nat} {root : NodeId}
    {found : Violation × Location} (violated : (arena.layer root).violation? = some found) :
    (arena.placesWithin (length + 1) root).find? (fun place =>
      (arena.layer place.node).violation?.isSome) = some ⟨root, 0⟩ := by
  rw [placesWithin, List.find?_cons, violated]
  rfl

/-- A node with a text leads to the first offender that one of its children leads to. -/
theorem find?_placesWithin_of_none {length : Nat} {root : NodeId}
    (sound : (arena.layer root).violation? = none) :
    (arena.placesWithin (length + 1) root).find? (fun place =>
        (arena.layer place.node).violation?.isSome) =
      (arena.layer root).positions.findSome? (fun (levels, child) =>
        ((arena.placesWithin length child).find? (fun place =>
          (arena.layer place.node).violation?.isSome)).map (Place.deeper levels)) := by
  rw [placesWithin, List.find?_cons, sound, List.find?_flatMap]
  simp only [List.find?_map]
  rfl

def firstOffence? (arena : Arena) (root : NodeId) : Option Place :=
  (arena.places root).find? (fun place => (arena.layer place.node).violation?.isSome)

theorem node_firstOffence? (root : NodeId) :
    (arena.firstOffence? root).map Place.node = arena.firstOffender? root := by
  rw [firstOffender?, preorder, ← map_placesWithin, List.find?_map]
  rfl

end Arena
end TigerTree
