import TigerTree.Proofs.Names.Interning
import TigerTree.Proofs.Rendering.Layout

/-! What a rendering tells of a tree. It reads texts, not the numbers of names, and of a link only
where it leads; which entries of the tables the nodes came from cannot be seen in it. So a node
that is used in several places renders as if it had been built once for each of them. -/

set_option autoImplicit false

namespace TigerTree

variable {Child Other : Type}

def LoweredName.comparedWith (name : Except Fault String) (loweredName : LoweredName) :
    LoweredName :=
  { loweredName with isOwn := loweredName.text = name }

/-- The layer as text and comments tell of it. Of the declaration behind a call only the location
is kept, and lowered names are compared as they read. -/
def Layer.annotated : Layer Child → Layer Child
  | .call location function site arguments =>
      .call location function (site.map (Except.map (fun site => ⟨site.location, 0⟩))) arguments
  | .funDecl heading loweredName parameters body =>
      .funDecl heading (loweredName.map (.comparedWith heading.name)) parameters body
  | layer => layer

theorem Layer.annotated_map (change : Child → Other) (layer : Layer Child) :
    (layer.map change).annotated = layer.annotated.map change := by
  cases layer <;> rfl

def Tree.annotated (tree : Tree) : Tree :=
  tree.fold (fun layer => .node layer.annotated)

theorem Tree.annotated_node (layer : Layer Tree) :
    (Tree.node layer).annotated = .node (layer.map Tree.annotated).annotated :=
  Tree.fold_node (fun layer => Tree.node layer.annotated) layer

/-- A lowered name is the function's own exactly if it reads like the name of the function. -/
def Layer.IsFaithful : Layer Child → Prop
  | .funDecl heading (some loweredName) _ _ =>
      ∀ text, heading.name = .ok text → loweredName.isOwn = decide (loweredName.text = .ok text)
  | _ => True

theorem Layer.isFaithful_map (change : Child → Other) {layer : Layer Child}
    (faithful : layer.IsFaithful) : (layer.map change).IsFaithful := by
  cases layer with
  | funDecl heading loweredName parameters body =>
      cases loweredName with
      | none => trivial
      | some loweredName => exact faithful
  | _ => trivial

/-- Where a table tells texts apart by their names, comparing the numbers is comparing the texts. -/
theorem NameTable.Faithful.eq_iff {table : NameTable} (faithful : table.Faithful)
    {name symbol : Name} {text : String} (named : table.text name = .ok text) :
    symbol = name ↔ table.text symbol = .ok text := by
  constructor
  · intro same
    rw [same]
    exact named
  · intro reads
    exact faithful.name_eq reads named

theorem Arena.isFaithful_layer {arena : Arena} (faithful : arena.names.Faithful)
    (node : NodeId) : (arena.layer node).IsFaithful := by
  refine layer_cases ?broken ?expr ?decl node
  case broken =>
      intro fault
      trivial
  case expr =>
      intro location shape
      cases shape <;> trivial
  case decl =>
      rintro ⟨name, location, depth, typeName, type, escapes, form⟩
      cases form with
      | value initializer => cases initializer <;> trivial
      | function parameters body loweredName =>
          cases loweredName with
          | none => trivial
          | some symbol =>
              intro text named
              exact decide_eq_decide.mpr (faithful.eq_iff named)

/-- Annotating a node whose names are compared rightly changes nothing that it writes. -/
theorem Layer.passage_annotated (verbose : Bool) {layer : Layer Passage}
    (faithful : layer.IsFaithful) : layer.annotated.passage verbose = layer.passage verbose := by
  cases layer with
  | call location function site arguments =>
      cases site with
      | none => rfl
      | some site => cases site <;> rfl
  | funDecl heading loweredName parameters body =>
      cases loweredName with
      | none => rfl
      | some loweredName =>
          cases named : heading.name with
          | error fault =>
              -- The name of the function comes first, so the comment is never reached.
              have stops (rest : Passage) : Passage.halt (.faulted fault) ++ rest =
                  .halt (.faulted fault) := Passage.append_of_stopped rfl
              cases parameters <;> simp [Layer.passage, annotated, sketch, named, stops]
          | ok text =>
              have unchanged : loweredName.comparedWith heading.name = loweredName := by
                rw [named, LoweredName.comparedWith, ← faithful text named]
              rw [annotated, Option.map_some, unchanged]
  | _ => rfl

private theorem Arena.passage_annotated_unfoldWithin {arena : Arena}
    (faithful : arena.names.Faithful) (verbose : Bool) (length : Nat) (node : NodeId) :
    (arena.unfoldWithin length node).annotated.passage verbose =
      (arena.unfoldWithin length node).passage verbose := by
  induction length generalizing node with
  | zero => rfl
  | succ length ih =>
      have below : (fun child => (arena.unfoldWithin length child).annotated.passage verbose) =
          fun child => (arena.unfoldWithin length child).passage verbose := funext ih
      have here : ((arena.layer node).map
          (fun child => (arena.unfoldWithin length child).passage verbose)).IsFaithful :=
        Layer.isFaithful_map _ (arena.isFaithful_layer faithful node)
      rw [unfoldWithin, Tree.annotated_node, Tree.passage_node, Tree.passage_node,
        ← Layer.annotated_map, Layer.map_map, Layer.map_map, Layer.map_map, below,
        Layer.passage_annotated verbose here]

/-- Annotating the tree of a node does not change its passage. -/
theorem Arena.passage_annotated {arena : Arena} (faithful : arena.names.Faithful) (verbose : Bool)
    (root : NodeId) :
    (arena.unfold root).annotated.passage verbose = (arena.unfold root).passage verbose :=
  arena.passage_annotated_unfoldWithin faithful verbose arena.pathBound root

theorem draftLoweredName_eq {arena : Arena} (faithful : arena.names.Faithful) {name symbol : Name}
    {text external : String} (named : arena.text name = .ok text)
    (lowered : arena.text symbol = .ok external) :
    draftLoweredName arena name (some symbol) =
      if external = text then pure () else Draft.comment external := by
  have compared : symbol = name ↔ external = text := by
    rw [faithful.eq_iff named]
    change arena.text symbol = .ok text ↔ external = text
    rw [lowered]
    exact Except.ok.injEq external text ▸ Iff.rfl
  by_cases same : external = text
  · rw [draftLoweredName, if_pos (compared.mpr same), if_pos same]
  · rw [draftLoweredName, if_neg (fun equal => same (compared.mp equal)), if_neg same, lowered]
    rfl

/-- Two nodes whose annotated trees are equal render alike in every style, in whatever order and
under whatever names their arenas were built. The comment of a lowered name is written exactly
where it reads differently from the name of its function. -/
theorem Arena.render_eq_of_annotated_eq {left right : Arena} (leftNames : left.names.Interned)
    (rightNames : right.names.Interned) {leftRoot rightRoot : NodeId}
    (same : (left.unfold leftRoot).annotated = (right.unfold rightRoot).annotated) :
    (∀ style, left.render style leftRoot = right.render style rightRoot) ∧
      ∀ name symbol text external, left.text name = .ok text → left.text symbol = .ok external →
        draftLoweredName left name (some symbol) =
          if external = text then pure () else Draft.comment external := by
  constructor
  · intro style
    apply render_eq_of_passage_eq
    rw [← passage_annotated leftNames.faithful, same, passage_annotated rightNames.faithful]
  · intro name symbol text external named lowered
    exact draftLoweredName_eq leftNames.faithful named lowered

def sharedCall : Arena where
  exprs := #[
    ⟨.int 7, ⟨1, 1⟩⟩,
    ⟨.call ⟨1⟩ ⟨0, 0⟩ (some ⟨0⟩), ⟨1, 2⟩⟩,
    ⟨.binary .add ⟨1⟩ ⟨1⟩, ⟨1, 3⟩⟩,
    ⟨.letIn ⟨0, 1⟩ ⟨0, 1⟩, ⟨1, 4⟩⟩]
  exprLists := #[⟨2⟩]
  decls := #[⟨⟨1⟩, ⟨2, 1⟩, 0, none, .int, false, .function ⟨0, 0⟩ ⟨0⟩ (some ⟨2⟩)⟩]
  declLists := #[⟨0⟩]
  names := ⟨[("f_1", ⟨2⟩), ("f", ⟨1⟩), ("", ⟨0⟩)], #["", "f", "f_1"]⟩

def separateCalls : Arena where
  exprs := #[
    ⟨.letIn ⟨1, 1⟩ ⟨1, 1⟩, ⟨1, 4⟩⟩,
    ⟨.binary .add ⟨2⟩ ⟨3⟩, ⟨1, 3⟩⟩,
    ⟨.call ⟨2⟩ ⟨2, 0⟩ (some ⟨1⟩), ⟨1, 2⟩⟩,
    ⟨.call ⟨2⟩ ⟨2, 0⟩ (some ⟨1⟩), ⟨1, 2⟩⟩,
    ⟨.int 7, ⟨1, 1⟩⟩]
  exprLists := #[⟨0⟩, ⟨1⟩]
  decls := #[
    ⟨⟨0⟩, ⟨9, 9⟩, 3, none, .undefined, true, .value none⟩,
    ⟨⟨2⟩, ⟨2, 1⟩, 0, none, .int, false, .function ⟨0, 0⟩ ⟨4⟩ (some ⟨1⟩)⟩]
  declLists := #[⟨0⟩, ⟨1⟩]
  names := ⟨[("f", ⟨2⟩), ("f_1", ⟨1⟩), ("", ⟨0⟩)], #["", "f_1", "f"]⟩

theorem render_sharedCall :
    sharedCall.names.Interned ∧ separateCalls.names.Interned ∧
      (sharedCall.unfold (.expr ⟨3⟩)).annotated = (separateCalls.unfold (.expr ⟨0⟩)).annotated ∧
      sharedCall.render ⟨2, true⟩ (.expr ⟨3⟩) =
        .ok "let\n  function f/*f_1*/() =\n    7\nin\n  (f/*decl:2:1*/() + f/*decl:2:1*/())\nend" := by
  have sharedNames : sharedCall.names.Interned :=
    .intern (.intern .initial "f" rfl) "f_1" rfl
  have separateNames : separateCalls.names.Interned :=
    .intern (.intern .initial "f_1" rfl) "f" rfl
  have same : (sharedCall.unfold (.expr ⟨3⟩)).annotated =
      (separateCalls.unfold (.expr ⟨0⟩)).annotated := rfl
  refine ⟨sharedNames, separateNames, same, ?_⟩
  rw [(Arena.render_eq_of_annotated_eq sharedNames separateNames same).1 ⟨2, true⟩]
  decide +kernel

end TigerTree
