import TigerTree.Proofs.Rendering.Passage
import TigerTree.Proofs.Unfolding.Tree

/-! The text of a node laid out around its children. A sketch lists what a node writes in order,
each line and each child with the number of levels it stands deeper than the node. The passage of
a tree is the concatenation of its sketch, down to the leaves. -/

set_option autoImplicit false

namespace TigerTree

variable {Child Other : Type}

def Site.text (site : Site) : String := "decl:" ++ site.location.text

def Site.textFrom (depth : UInt32) (site : Site) : String :=
  let distance : Int := (depth.toNat : Int) - (site.depth.toNat : Int)
  if distance = 0 then site.text else site.text ++ " depth_diff:" ++ toString distance

def Heading.captureNote (heading : Heading) : Option (Except Fault String) :=
  if heading.escapes then some (.ok "e") else none

def LoweredName.note (loweredName : LoweredName) : Option (Except Fault String) :=
  if loweredName.isOwn then none else some loweredName.text

def Layer.note : Layer Child → Option (Except Fault String)
  | .identifier _ _ site depth => site.map (Except.map (Site.textFrom depth))
  | .call _ _ site _ => site.map (Except.map Site.text)
  | .forLoop _ (.bound heading _) _ _ => heading.captureNote
  | .breakLoop _ target => target.map (Except.map (fun location => "loop:" ++ location.text))
  | .varDecl heading _ => heading.captureNote
  | .parameter heading => heading.captureNote
  | .funDecl _ loweredName _ _ => loweredName.bind LoweredName.note
  | _ => none

inductive Item (Child : Type) where
  | text (words : String)
  | name (spelling : Except Fault String)
  | literal (contents : Except Fault String)
  | note (words : Option (Except Fault String))
  | line (depth : Nat)
  | child (depth : Nat) (child : Child)
  | stop (stop : Stop RenderError)

namespace Item

def violated (violation : Violation) (location : Location) : Item Child :=
  .stop (.diagnosed (.violated violation location))

def joined (separator : List (Item Child)) (depth : Nat) : List Child → List (Item Child)
  | [] => []
  | first :: rest =>
      .child depth first :: rest.flatMap (fun next => separator ++ [.child depth next])

def lines (children : List Child) : List (Item Child) :=
  .line 1 :: joined [.text ";", .line 1] 1 children

def block (body : Child) : List (Item Child) := [.line 1, .child 1 body]

def variableType (heading : Heading) : List (Item Child) :=
  match heading.typeName with
  | some typeName => [.text ": ", .name typeName]
  | none =>
      match heading.type.surfaceName? with
      | some spelling => [.text ": ", .text spelling]
      | none => []

def resultType (heading : Heading) : List (Item Child) :=
  match heading.typeName with
  | some typeName => [.text ": ", .name typeName]
  | none => []

def map (change : Child → Other) : Item Child → Item Other
  | .text words => .text words
  | .name spelling => .name spelling
  | .literal contents => .literal contents
  | .note words => .note words
  | .line depth => .line depth
  | .child depth inner => .child depth (change inner)
  | .stop reason => .stop reason

end Item

open Item in
def Layer.sketch (layer : Layer Child) : List (Item Child) :=
  match layer with
  | .broken fault => [.stop (.faulted fault)]
  | .int _ value => [.text (toString value.toInt)]
  | .string _ contents => [.literal contents]
  | .binary _ operator left right =>
      [.text "(", .child 0 left, .text (" " ++ operator.symbol ++ " "), .child 0 right, .text ")"]
  | .sequence location [] => [violated .emptySequence location]
  | .sequence _ (first :: rest) => .text "(" :: (lines (first :: rest) ++ [.line 0, .text ")"])
  | .letIn location _ [] => [violated .emptyLetBody location]
  | .letIn _ decls (first :: rest) =>
      .text "let" :: (decls.flatMap block ++ ([.line 0, .text "in"] ++
        (lines (first :: rest) ++ [.line 0, .text "end"])))
  | .identifier _ spelling _ _ => [.name spelling, .note layer.note]
  | .ifThenElse _ condition thenBranch elseBranch =>
      .text "if" :: (block condition ++ (.line 0 :: .text "then" :: (block thenBranch ++
        (.line 0 :: .text "else" :: block elseBranch))))
  | .call _ function _ arguments =>
      .name function :: .note layer.note :: .text "(" ::
        (joined [.text ", "] 0 arguments ++ [.text ")"])
  | .whileLoop _ condition body =>
      .text "while " :: .child 0 condition :: .text " do" :: block body
  | .forLoop _ (.lost fault) _ _ => [.stop (.faulted fault)]
  | .forLoop location .missing _ _ => [violated .missingLoopBound location]
  | .forLoop _ (.bound heading low) high body =>
      .text "for " :: .name heading.name :: .note layer.note :: .text " := " :: .child 0 low ::
        .text " to " :: .child 0 high :: .text " do" :: block body
  | .breakLoop _ _ => [.text "break", .note layer.note]
  | .assign _ target value => [.child 0 target, .text " := ", .child 0 value]
  | .varDecl heading initializer =>
      .text "var " :: .name heading.name :: .note layer.note ::
        (variableType heading ++ [.text " := ", .child 0 initializer])
  | .parameter heading => .name heading.name :: .note layer.note :: variableType heading
  | .funDecl heading _ (.error fault) _ =>
      [.text "function ", .name heading.name, .note layer.note, .text "(", .stop (.faulted fault)]
  | .funDecl heading _ (.ok parameters) body =>
      .text "function " :: .name heading.name :: .note layer.note :: .text "(" ::
        (joined [.text ", "] 0 parameters ++ (.text ")" :: (resultType heading ++
          (.text " =" :: block body))))

/-! ### Passages of sketches -/

def Item.passage (verbose : Bool) : Item Passage → Passage
  | .text words => Passage.text words
  | .name spelling => Passage.look spelling Passage.text
  | .literal contents => Passage.look contents (fun contents => .write (.literal contents))
  | .note none => Passage.empty
  | .note (some words) =>
      if verbose then Passage.look words (fun words => .write (.comment words)) else .empty
  | .line depth => Passage.write (.line depth)
  | .child depth inner => Passage.raise depth inner
  | .stop reason => Passage.halt reason

section

variable (verbose : Bool)

@[simp]
theorem Item.passage_text (words : String) :
    Item.passage verbose (.text words) = .text words := rfl

@[simp]
theorem Item.passage_name (spelling : Except Fault String) :
    Item.passage verbose (.name spelling) = .look spelling .text := rfl

@[simp]
theorem Item.passage_literal (contents : Except Fault String) :
    Item.passage verbose (.literal contents) =
      .look contents (fun contents => .write (.literal contents)) := rfl

@[simp]
theorem Item.passage_line (depth : Nat) :
    Item.passage verbose (.line depth) = .write (.line depth) := rfl

@[simp]
theorem Item.passage_child (depth : Nat) (inner : Passage) :
    Item.passage verbose (.child depth inner) = .raise depth inner := rfl

@[simp]
theorem Item.passage_stop (reason : Stop RenderError) :
    Item.passage verbose (.stop reason) = .halt reason := rfl

theorem Item.passage_note_true (words : Except Fault String) :
    Item.passage true (.note (some words)) =
      .look words (fun words => .write (.comment words)) := rfl

@[simp]
theorem Item.passage_note_false (note : Option (Except Fault String)) :
    Item.passage false (.note note) = .empty := by
  cases note <;> rfl

end

def Passage.ofItems (verbose : Bool) (items : List (Item Passage)) : Passage :=
  .concat (items.map (Item.passage verbose))

def Layer.passage (verbose : Bool) (layer : Layer Passage) : Passage :=
  .ofItems verbose layer.sketch

def Tree.passage (verbose : Bool) (tree : Tree) : Passage :=
  tree.fold (Layer.passage verbose)

theorem Tree.passage_node (verbose : Bool) (layer : Layer Tree) :
    (Tree.node layer).passage verbose = (layer.map (Tree.passage verbose)).passage verbose :=
  Tree.fold_node (Layer.passage verbose) layer

namespace Item

theorem map_joined (change : Child → Other) (separator : List (Item Child)) (depth : Nat)
    (children : List Child) :
    (joined separator depth children).map (map change) =
      joined (separator.map (map change)) depth (children.map change) := by
  cases children with
  | nil => rfl
  | cons first rest => simp [joined, map, List.map_flatMap, List.flatMap_map]

theorem map_lines (change : Child → Other) (children : List Child) :
    (lines children).map (map change) = lines (children.map change) := by
  rw [lines, List.map_cons, map_joined]
  rfl

theorem map_blocks (change : Child → Other) (children : List Child) :
    (children.flatMap block).map (map change) = (children.map change).flatMap block := by
  simp [block, map, List.map_flatMap, List.flatMap_map]

theorem map_variableType (change : Child → Other) (heading : Heading) :
    (variableType heading).map (map change) = variableType heading := by
  unfold variableType
  cases heading.typeName with
  | some typeName => rfl
  | none => cases heading.type.surfaceName? <;> rfl

theorem map_resultType (change : Child → Other) (heading : Heading) :
    (resultType heading).map (map change) = resultType heading := by
  unfold resultType
  cases heading.typeName <;> rfl

end Item

/-- A sketch knows nothing of its children but their places. -/
theorem Layer.sketch_map (change : Child → Other) (layer : Layer Child) :
    (layer.map change).sketch = layer.sketch.map (Item.map change) := by
  cases layer with
  | sequence location elements =>
      cases elements with
      | nil => rfl
      | cons first rest =>
          simp [map, sketch, Item.map_lines, Item.map]
  | letIn location decls body =>
      cases body with
      | nil => rfl
      | cons first rest =>
          simp [map, sketch, Item.map_lines, Item.map_blocks, Item.map]
  | call location function site arguments =>
      simp [map, sketch, note, Item.map_joined, Item.map]
  | forLoop location start high body => cases start <;> rfl
  | varDecl heading initializer =>
      simp [map, sketch, note, Item.map_variableType, Item.map]
  | parameter heading => simp [map, sketch, note, Item.map_variableType, Item.map]
  | funDecl heading loweredName parameters body =>
      cases parameters with
      | error fault => rfl
      | ok parameters =>
          simp [map, sketch, note, Except.map, Item.map_joined, Item.map_resultType, Item.map,
            Item.block]
  | _ => rfl

theorem Layer.passage_map (verbose : Bool) (change : Child → Passage) (layer : Layer Child) :
    (layer.map change).passage verbose =
      .concat (layer.sketch.map (fun item => (item.map change).passage verbose)) := by
  rw [passage, sketch_map, Passage.ofItems, List.map_map]
  rfl

/-- The passage of a tree is the concatenation of its sketch. -/
theorem Tree.passage_eq_concat (verbose : Bool) (layer : Layer Tree) :
    (Tree.node layer).passage verbose =
      .concat (layer.sketch.map (fun item =>
        (item.map (Tree.passage verbose)).passage verbose)) := by
  rw [passage_node, Layer.passage_map]

namespace Item

theorem mem_joined {item : Item Child} {separator : List (Item Child)} {depth : Nat}
    {children : List Child} (member : item ∈ joined separator depth children) :
    item ∈ separator ∨ ∃ child ∈ children, item = .child depth child := by
  cases children with
  | nil => cases member
  | cons first rest =>
      rcases List.mem_cons.mp member with isFirst | later
      · exact .inr ⟨first, List.mem_cons_self, isFirst⟩
      · obtain ⟨next, isNext, inside⟩ := List.mem_flatMap.mp later
        rcases List.mem_append.mp inside with inSeparator | isChild
        · exact .inl inSeparator
        · exact .inr ⟨next, List.mem_cons_of_mem _ isNext, List.mem_singleton.mp isChild⟩

theorem mem_lines {item : Item Child} {children : List Child} (member : item ∈ lines children) :
    item = .text ";" ∨ item = .line 1 ∨ ∃ child ∈ children, item = .child 1 child := by
  rcases List.mem_cons.mp member with isLine | inside
  · exact .inr (.inl isLine)
  · rcases mem_joined inside with inSeparator | isChild
    · simp at inSeparator
      exact inSeparator.elim .inl (fun isLine => .inr (.inl isLine))
    · exact .inr (.inr isChild)

theorem mem_blocks {item : Item Child} {children : List Child}
    (member : item ∈ children.flatMap block) :
    item = .line 1 ∨ ∃ child ∈ children, item = .child 1 child := by
  obtain ⟨child, isChild, inside⟩ := List.mem_flatMap.mp member
  simp [block] at inside
  exact inside.elim .inl (fun same => .inr ⟨child, isChild, same⟩)

end Item

/-- A sketch that does not stop shows all children. -/
theorem Layer.child_mem_sketch {layer : Layer Child} {child : Child}
    (member : child ∈ layer.children) :
    (∃ depth, .child depth child ∈ layer.sketch) ∨ ∃ reason, .stop reason ∈ layer.sketch := by
  have joined (separator : List (Item Child)) (depth : Nat) {children : List Child}
      (inside : child ∈ children) : .child depth child ∈ Item.joined separator depth children := by
    cases children with
    | nil => cases inside
    | cons first rest =>
        rcases List.mem_cons.mp inside with rfl | later
        · exact List.mem_cons_self
        · refine .tail _ (List.mem_flatMap.mpr ⟨child, later, ?_⟩)
          simp
  cases layer with
  | sequence location elements =>
      cases elements with
      | nil => cases member
      | cons first rest =>
          refine .inl ⟨1, ?_⟩
          have inside : .child 1 child ∈ Item.joined [.text ";", .line 1] 1 (first :: rest) :=
            joined _ 1 member
          simp [sketch, Item.lines, inside]
  | letIn location decls body =>
      cases body with
      | nil => exact .inr ⟨_, List.mem_singleton_self _⟩
      | cons first rest =>
          refine .inl ⟨1, ?_⟩
          rcases List.mem_append.mp member with inDecls | inBody
          · have inside : .child 1 child ∈ decls.flatMap Item.block :=
              List.mem_flatMap.mpr ⟨child, inDecls, by simp [Item.block]⟩
            simp [sketch, inside]
          · have inside : .child 1 child ∈ Item.joined [.text ";", .line 1] 1 (first :: rest) :=
              joined _ 1 inBody
            simp [sketch, Item.lines, inside]
  | call location function site arguments =>
      refine .inl ⟨0, ?_⟩
      have inside : .child 0 child ∈ Item.joined [.text ", "] 0 arguments := joined _ 0 member
      simp [sketch, inside]
  | forLoop location start high body =>
      cases start with
      | lost fault | missing => exact .inr ⟨_, List.mem_singleton_self _⟩
      | bound heading low =>
          simp only [children, LoopStart.children, List.cons_append, List.nil_append, List.mem_cons,
            List.not_mem_nil, or_false] at member
          rcases member with rfl | rfl | rfl <;> simp [sketch, Item.block, exists_or]
  | funDecl heading loweredName parameters body =>
      cases parameters with
      | error fault => exact .inr ⟨.faulted fault, by simp [sketch]⟩
      | ok parameters =>
          rcases List.mem_append.mp member with inParameters | isBody
          · refine .inl ⟨0, ?_⟩
            have inside : .child 0 child ∈ Item.joined [.text ", "] 0 parameters :=
              joined _ 0 inParameters
            simp [sketch, inside]
          · rw [List.mem_singleton] at isBody
            exact .inl ⟨1, by simp [sketch, Item.block, isBody]⟩
  | _ =>
      simp only [children, List.mem_cons, List.not_mem_nil, or_false] at member
      all_goals rcases member with rfl | rfl | rfl <;> simp [sketch, Item.block, exists_or]

end TigerTree
