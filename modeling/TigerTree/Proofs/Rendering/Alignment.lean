import TigerTree.Proofs.Rendering.Lines

/-! Where closing keywords stand. A sequence, a `let` and a conditional open a block on the line on
which they happen to start, and close it on a line of their own level. The two lines are indented
alike exactly if nothing before the block has left that line deeper: a loop, a function and the
last branch of a conditional end on a line of theirs, and what follows goes on there. -/

set_option autoImplicit false

namespace TigerTree

variable {Child Other : Type}

structure Closer (Child : Type) where
  opener : String
  closer : String
  before : List (Item Child)

open Item in
def Layer.closers : Layer Child → List (Closer Child)
  | .sequence _ (first :: rest) =>
      [⟨"(", ")", .text "(" :: (lines (first :: rest) ++ [.line 0])⟩]
  | .letIn _ decls (first :: rest) =>
      [⟨"let", "in", .text "let" :: (decls.flatMap block ++ [.line 0])⟩,
        ⟨"let", "end", .text "let" :: (decls.flatMap block ++ ([.line 0, .text "in"] ++
          (lines (first :: rest) ++ [.line 0])))⟩]
  | .ifThenElse _ condition thenBranch _ =>
      [⟨"if", "then", .text "if" :: (block condition ++ [.line 0])⟩,
        ⟨"if", "else", .text "if" :: (block condition ++ (.line 0 :: .text "then" ::
          (block thenBranch ++ [.line 0])))⟩]
  | _ => []

/-- Two keywords in the text of a tree, one of which closes what the other has opened, and what is
written before them. -/
structure Enclosure where
  opener : String
  closer : String
  beforeOpener : List Piece
  beforeCloser : List Piece

def Enclosure.placed (before : List Piece) (depth : Nat) (enclosure : Enclosure) : Enclosure :=
  { enclosure with
    beforeOpener := before ++ enclosure.beforeOpener.map (Piece.raise depth)
    beforeCloser := before ++ enclosure.beforeCloser.map (Piece.raise depth) }

inductive Tree.Encloses (verbose : Bool) : Tree → Enclosure → Prop
  | ofRoot {layer : Layer Tree} {closer : Closer Tree} (closes : closer ∈ layer.closers) :
      Encloses verbose (.node layer)
        ⟨closer.opener, closer.closer, [], Item.pieces verbose closer.before⟩
  | ofChild {layer : Layer Tree} {before after : List (Item Tree)} {depth : Nat} {inner : Tree}
      {enclosure : Enclosure} (place : layer.sketch = before ++ .child depth inner :: after)
      (inside : Encloses verbose inner enclosure) :
      Encloses verbose (.node layer) (enclosure.placed (Item.pieces verbose before) depth)

namespace Enclosure

def openerAt (indentSize : UInt64) (enclosure : Enclosure) : Nat :=
  (spell indentSize 0 enclosure.beforeOpener).length

def closerAt (indentSize : UInt64) (enclosure : Enclosure) : Nat :=
  (spell indentSize 0 enclosure.beforeCloser).length

end Enclosure

/-! ### The course of lines through a tree -/

/-- Given the level of a node and that of the line on which its text starts, the level of the line
on which the text ends, and whether all blocks in it open on a line of their own level. -/
abbrev Course := Nat → Nat → Nat × Bool

namespace Course

def still : Course := fun _ line => (line, true)

def andThen (first second : Course) : Course := fun level line =>
  let between := first level line
  let last := second level between.1
  (last.1, between.2 && last.2)

def all (courses : List Course) : Course := courses.foldr andThen still

def onOwnLine (part : Course) : Course := fun level _ => part (level + 1) (level + 1)

def enclosed (parts : List Course) : Course := fun level line =>
  (level, line = level && parts.all (fun part => (part (level + 1) (level + 1)).2))

end Course

open Course in
def Layer.course : Layer Course → Course
  | .sequence _ elements => enclosed elements
  | .letIn _ decls body => enclosed (decls ++ body)
  | .ifThenElse _ condition thenBranch elseBranch =>
      (enclosed [condition, thenBranch]).andThen elseBranch.onOwnLine
  | .whileLoop _ condition body => condition.andThen body.onOwnLine
  | .forLoop _ start high body => (all (start.children ++ [high])).andThen body.onOwnLine
  | .funDecl _ _ parameters body => (all (listed parameters)).andThen body.onOwnLine
  | layer => all layer.children

def Tree.course (tree : Tree) : Course :=
  tree.fold Layer.course

/-- Every sequence, `let` and conditional opens on a line of its own level: before it no loop, no
function and no last branch has ended on that line. -/
def Tree.isEven (tree : Tree) : Bool := (tree.course 0 0).2

namespace Course

theorem still_andThen (course : Course) : still.andThen course = course := by
  funext level line
  simp [andThen, still]

theorem andThen_still (course : Course) : course.andThen still = course := by
  funext level line
  simp [andThen, still]

theorem andThen_assoc (first second third : Course) :
    (first.andThen second).andThen third = first.andThen (second.andThen third) := by
  funext level line
  simp [andThen, Bool.and_assoc]

theorem all_cons (course : Course) (rest : List Course) :
    all (course :: rest) = course.andThen (all rest) := rfl

theorem all_append (first second : List Course) :
    all (first ++ second) = (all first).andThen (all second) := by
  induction first with
  | nil => exact (still_andThen _).symm
  | cons course rest ih => rw [List.cons_append, all_cons, ih, all_cons, andThen_assoc]

/-- Parts on lines of their own do not depend on the line before them. -/
theorem all_onOwnLine (parts : List Course) (level line : Nat) :
    (all (parts.map onOwnLine) level line).2 =
      parts.all (fun part => (part (level + 1) (level + 1)).2) := by
  induction parts generalizing line with
  | nil => rfl
  | cons part rest ih =>
      rw [List.map_cons, all_cons, List.all_cons, ← ih]
      rfl

end Course

namespace Item

open Course

def course : Item Course → Course
  | .line depth => fun level _ => (level + depth, true)
  | .child depth inner => fun level line => inner (level + depth) line
  | _ => still

def courseOf (items : List (Item Course)) : Course := all (items.map course)

theorem courseOf_cons (item : Item Course) (rest : List (Item Course)) :
    courseOf (item :: rest) = item.course.andThen (courseOf rest) := rfl

theorem courseOf_append (first second : List (Item Course)) :
    courseOf (first ++ second) = (courseOf first).andThen (courseOf second) := by
  rw [courseOf, List.map_append, all_append]
  rfl

theorem courseOf_still {item : Item Course} (isStill : item.course = still)
    (rest : List (Item Course)) : courseOf (item :: rest) = courseOf rest := by
  rw [courseOf_cons, isStill, still_andThen]

theorem courseOf_line_zero (rest : List (Item Course)) :
    courseOf (.line 0 :: rest) = Course.andThen (fun level _ => (level, true)) (courseOf rest) :=
  rfl

theorem courseOf_child_zero (inner : Course) (rest : List (Item Course)) :
    courseOf (.child 0 inner :: rest) = inner.andThen (courseOf rest) := rfl

theorem courseOf_block (body : Course) : courseOf (block body) = body.onOwnLine := by
  funext level line
  simp [block, courseOf, all, andThen, still, course, onOwnLine]

theorem courseOf_blocks (parts : List Course) :
    courseOf (parts.flatMap block) = all (parts.map onOwnLine) := by
  induction parts with
  | nil => rfl
  | cons part rest ih =>
      rw [List.flatMap_cons, courseOf_append, courseOf_block, ih]
      rfl

theorem courseOf_lines (first : Course) (rest : List Course) :
    courseOf (lines (first :: rest)) = all ((first :: rest).map onOwnLine) := by
  have others (rest : List Course) :
      courseOf (rest.flatMap (fun next => [.text ";", .line 1, .child 1 next])) =
        all (rest.map onOwnLine) := by
    induction rest with
    | nil => rfl
    | cons next rest ih =>
        rw [List.flatMap_cons, courseOf_append, ih, courseOf_still rfl]
        exact congrArg (andThen · _) (courseOf_block next)
  have whole : courseOf (lines (first :: rest)) = courseOf (block first ++
      rest.flatMap (fun next => [.text ";", .line 1, .child 1 next])) := rfl
  rw [whole, courseOf_append, courseOf_block, others]
  rfl

theorem courseOf_listed (children : List Course) :
    courseOf (joined [.text ", "] 0 children) = all children := by
  have others (rest : List Course) :
      courseOf (rest.flatMap (fun next => [.text ", ", .child 0 next])) = all rest := by
    induction rest with
    | nil => rfl
    | cons next rest ih =>
        rw [List.flatMap_cons, courseOf_append, ih, courseOf_still rfl]
        exact congrArg (andThen · _) (andThen_still next)
  cases children with
  | nil => rfl
  | cons first rest =>
      have whole : courseOf (joined [.text ", "] 0 (first :: rest)) = first.andThen
          (courseOf (rest.flatMap (fun next => [.text ", ", .child 0 next]))) := rfl
      rw [whole, others]
      rfl

theorem courseOf_variableType (heading : Heading) : courseOf (variableType heading) = still := by
  unfold variableType
  cases heading.typeName with
  | some typeName => rfl
  | none => cases heading.type <;> rfl

theorem courseOf_resultType (heading : Heading) : courseOf (resultType heading) = still := by
  unfold resultType
  cases heading.typeName <;> rfl

end Item

def Layer.encloses : Layer Child → Bool
  | .sequence _ _ | .letIn _ _ _ | .ifThenElse _ _ _ _ => true
  | _ => false

theorem Layer.encloses_map (change : Child → Other) (layer : Layer Child) :
    (layer.map change).encloses = layer.encloses := by
  cases layer <;> rfl

theorem Layer.encloses_of_closer {layer : Layer Child} {closer : Closer Child}
    (closes : closer ∈ layer.closers) : layer.encloses := by
  cases layer with
  | sequence _ _ | letIn _ _ _ | ifThenElse _ _ _ _ => rfl
  | _ => cases closes

theorem Layer.exists_closer {layer : Layer Child} (enclosing : layer.encloses)
    (goesOn : ∀ reason, .stop reason ∉ layer.sketch) : ∃ closer, closer ∈ layer.closers := by
  cases layer with
  | sequence location elements =>
      cases elements with
      | nil => exact absurd (List.mem_singleton_self _) (goesOn _)
      | cons first rest => exact ⟨_, List.mem_cons_self⟩
  | letIn location decls body =>
      cases body with
      | nil => exact absurd (List.mem_singleton_self _) (goesOn _)
      | cons first rest => exact ⟨_, List.mem_cons_self⟩
  | ifThenElse location condition thenBranch elseBranch => exact ⟨_, List.mem_cons_self⟩
  | _ => cases enclosing

/-- A closing keyword stands at the start of a line of the level of the node, and the opening one
at the start of the node. -/
theorem Layer.split_at_closer {layer : Layer Child} {closer : Closer Child}
    (closes : closer ∈ layer.closers) :
    (∃ after, layer.sketch = .text closer.opener :: after) ∧
      (∃ after, layer.sketch = closer.before ++ .text closer.closer :: after) ∧
      ∃ earlier, closer.before = earlier ++ [.line 0] := by
  cases layer with
  | sequence location elements =>
      cases elements with
      | nil => cases closes
      | cons first rest =>
          cases List.mem_singleton.mp closes
          exact ⟨⟨_, rfl⟩, ⟨[], by simp [sketch]⟩, ⟨.text "(" :: Item.lines (first :: rest), rfl⟩⟩
  | letIn location decls body =>
      cases body with
      | nil => cases closes
      | cons first rest =>
          rcases List.mem_cons.mp closes with rfl | second
          · exact ⟨⟨_, rfl⟩, ⟨Item.lines (first :: rest) ++ [.line 0, .text "end"],
              by simp [sketch]⟩, ⟨.text "let" :: decls.flatMap Item.block, rfl⟩⟩
          · cases List.mem_singleton.mp second
            exact ⟨⟨_, rfl⟩, ⟨[], by simp [sketch]⟩,
              ⟨.text "let" :: (decls.flatMap Item.block ++ ([.line 0, .text "in"] ++
                Item.lines (first :: rest))), by simp⟩⟩
  | ifThenElse location condition thenBranch elseBranch =>
      rcases List.mem_cons.mp closes with rfl | second
      · exact ⟨⟨_, rfl⟩, ⟨_, rfl⟩, ⟨.text "if" :: Item.block condition, rfl⟩⟩
      · cases List.mem_singleton.mp second
        exact ⟨⟨_, rfl⟩, ⟨_, rfl⟩, ⟨.text "if" :: (Item.block condition ++ (.line 0 ::
          .text "then" :: Item.block thenBranch)), rfl⟩⟩
  | _ => cases closes

open Item Course in
/-- The course of a node is that of its sketch, and that its own block opens on a line of its
level. -/
theorem Layer.course_eq {layer : Layer Course} (goesOn : ∀ reason, .stop reason ∉ layer.sketch)
    (level line : Nat) :
    layer.course level line =
      ((courseOf layer.sketch level line).1,
        (!layer.encloses || line = level) && (courseOf layer.sketch level line).2) := by
  have closing (words : String) :
      courseOf [.line 0, .text words] = fun level _ => (level, true) := rfl
  cases layer with
  | broken fault => exact absurd (List.mem_singleton_self _) (goesOn _)
  | sequence location elements =>
      cases elements with
      | nil => exact absurd (List.mem_singleton_self _) (goesOn _)
      | cons first rest =>
          have walked : courseOf (sequence location (first :: rest)).sketch =
              (all ((first :: rest).map onOwnLine)).andThen (fun level _ => (level, true)) := by
            rw [sketch, courseOf_still rfl, courseOf_append, courseOf_lines, closing]
          rw [walked]
          simp [course, enclosed, andThen, all_onOwnLine, encloses, -List.map_cons, -List.all_cons]
  | letIn location decls body =>
      cases body with
      | nil => exact absurd (List.mem_singleton_self _) (goesOn _)
      | cons first rest =>
          have walked : courseOf (letIn location decls (first :: rest)).sketch =
              (all (decls.map onOwnLine)).andThen (Course.andThen (fun level _ => (level, true))
                ((all ((first :: rest).map onOwnLine)).andThen
                  (fun level _ => (level, true)))) := by
            rw [sketch, courseOf_still rfl, courseOf_append, courseOf_blocks, courseOf_append,
              courseOf_append, courseOf_lines, closing, closing]
          rw [walked]
          simp [course, enclosed, andThen, all_onOwnLine, encloses, -List.map_cons, -List.all_cons]
  | ifThenElse location condition thenBranch elseBranch =>
      have walked : courseOf (ifThenElse location condition thenBranch elseBranch).sketch =
          condition.onOwnLine.andThen (Course.andThen (fun level _ => (level, true))
            (thenBranch.onOwnLine.andThen (Course.andThen (fun level _ => (level, true))
              elseBranch.onOwnLine))) := by
        rw [sketch, courseOf_still rfl, courseOf_append, courseOf_block, courseOf_line_zero,
          courseOf_still rfl, courseOf_append, courseOf_block, courseOf_line_zero,
          courseOf_still rfl, courseOf_block]
      rw [walked]
      simp [course, enclosed, andThen, onOwnLine, encloses, Bool.and_assoc]
  | call location function site arguments =>
      have walked : courseOf (call location function site arguments).sketch = all arguments := by
        rw [sketch, courseOf_still rfl, courseOf_still rfl, courseOf_still rfl, courseOf_append,
          courseOf_listed]
        exact andThen_still _
      rw [walked]
      simp [course, children, encloses]
  | whileLoop location condition body =>
      have walked : courseOf (whileLoop location condition body).sketch =
          condition.andThen body.onOwnLine := by
        rw [sketch, courseOf_still rfl, courseOf_child_zero, courseOf_still rfl, courseOf_block]
      rw [walked]
      simp [course, encloses]
  | forLoop location start high body =>
      cases start with
      | lost fault => exact absurd (List.mem_singleton_self _) (goesOn _)
      | missing => exact absurd (List.mem_singleton_self _) (goesOn _)
      | bound heading low =>
          have walked : courseOf (forLoop location (.bound heading low) high body).sketch =
              low.andThen (high.andThen body.onOwnLine) := by
            rw [sketch, courseOf_still rfl, courseOf_still rfl, courseOf_still rfl,
              courseOf_still rfl, courseOf_child_zero, courseOf_still rfl, courseOf_child_zero,
              courseOf_still rfl, courseOf_block]
          have parts : all [low, high] = low.andThen high := by
            rw [all_cons, all_cons]
            exact congrArg low.andThen (andThen_still high)
          rw [walked, ← andThen_assoc, ← parts]
          simp [course, encloses, LoopStart.children]
  | varDecl heading initializer =>
      have walked : courseOf (varDecl heading initializer).sketch = initializer := by
        rw [sketch, courseOf_still rfl, courseOf_still rfl, courseOf_still rfl, courseOf_append,
          courseOf_variableType, still_andThen, courseOf_still rfl, courseOf_child_zero]
        exact andThen_still initializer
      rw [walked]
      simp [course, children, encloses, all, andThen_still]
  | parameter heading =>
      have walked : courseOf (parameter heading : Layer Course).sketch = still := by
        rw [sketch, courseOf_still rfl, courseOf_still rfl, courseOf_variableType]
      rw [walked]
      simp [course, children, encloses, all]
  | funDecl heading loweredName parameters body =>
      cases parameters with
      | error fault => exact absurd (by simp [sketch]) (goesOn (.faulted fault))
      | ok parameters =>
          have walked : courseOf (funDecl heading loweredName (.ok parameters) body).sketch =
              (all parameters).andThen body.onOwnLine := by
            rw [sketch, courseOf_still rfl, courseOf_still rfl, courseOf_still rfl,
              courseOf_still rfl, courseOf_append, courseOf_listed, courseOf_still rfl,
              courseOf_append, courseOf_resultType, still_andThen, courseOf_still rfl,
              courseOf_block]
          rw [walked]
          simp [course, encloses, listed]
  | binary location operator left right =>
      have walked : courseOf (binary location operator left right).sketch =
          left.andThen right := by
        rw [sketch, courseOf_still rfl, courseOf_child_zero, courseOf_still rfl,
          courseOf_child_zero]
        exact congrArg left.andThen (andThen_still right)
      rw [walked]
      simp [course, children, encloses, all, andThen_still]
  | assign location target value =>
      have walked : courseOf (assign location target value).sketch = target.andThen value := by
        rw [sketch, courseOf_child_zero, courseOf_still rfl, courseOf_child_zero]
        exact congrArg target.andThen (andThen_still value)
      rw [walked]
      simp [course, children, encloses, all, andThen_still]
  | int _ _ | string _ _ | identifier _ _ _ _ | breakLoop _ _ => rfl

/-! ### What the course tells -/

/-- An enclosure whose keywords stand on lines of the same level, if the text starts at the given
level on a line of the given level. -/
def Enclosure.LinesUp (level line : Nat) (enclosure : Enclosure) : Prop :=
  lineLevel line (enclosure.beforeCloser.map (Piece.raise level)) =
    lineLevel line (enclosure.beforeOpener.map (Piece.raise level))

private theorem raise_raised (depth level : Nat) (pieces : List Piece) :
    (pieces.map (Piece.raise depth)).map (Piece.raise level) =
      pieces.map (Piece.raise (level + depth)) := by
  rw [List.map_map, Nat.add_comm]
  exact List.map_congr_left (fun piece _ => Piece.raise_raise depth level piece)

theorem Enclosure.linesUp_placed (before : List Piece) (depth level line : Nat)
    (enclosure : Enclosure) :
    (enclosure.placed before depth).LinesUp level line ↔
      enclosure.LinesUp (level + depth) (lineLevel line (before.map (Piece.raise level))) := by
  simp only [LinesUp, placed, List.map_append, lineLevel_append, raise_raised]

/-- The course of the tree tells how its text runs. -/
def Tree.CourseTells (verbose : Bool) (tree : Tree) : Prop :=
  ∀ level line,
    (tree.course level line).1 =
        lineLevel line ((tree.passage verbose).pieces.map (Piece.raise level)) ∧
      ((tree.course level line).2 ↔
        ∀ enclosure, tree.Encloses verbose enclosure → enclosure.LinesUp level line)

section

variable {verbose : Bool}

private theorem course_item_tells {item : Item Tree}
    (completes : (item.output verbose).stop = none)
    (below : ∀ depth inner, item = .child depth inner → inner.CourseTells verbose)
    (level line : Nat) :
    let here := (item.map Tree.course).course level line
    here.1 = lineLevel line ((item.output verbose).pieces.map (Piece.raise level)) ∧
      (here.2 ↔ ∀ depth inner, item = .child depth inner →
        ∀ enclosure, inner.Encloses verbose enclosure →
          enclosure.LinesUp (level + depth) line) := by
  cases item with
  | child depth inner =>
      obtain ⟨ends, tells⟩ := below depth inner rfl (level + depth) line
      refine ⟨?_, ?_⟩
      · rw [← raise_raised] at ends
        exact ends
      · rw [Item.map, Item.course, tells]
        constructor
        · intro linesUp depth inner same
          cases same
          exact linesUp
        · intro linesUp
          exact linesUp depth inner rfl
  | line depth =>
      refine ⟨?_, by simp [Item.map, Item.course]⟩
      change level + depth = depth + level
      omega
  | name spelling =>
      cases spelling with
      | error fault => cases completes
      | ok spelling => exact ⟨rfl, by simp [Item.map, Item.course, Course.still]⟩
  | literal contents =>
      cases contents with
      | error fault => cases completes
      | ok contents => exact ⟨rfl, by simp [Item.map, Item.course, Course.still]⟩
  | note words =>
      refine ⟨?_, by simp [Item.map, Item.course, Course.still]⟩
      cases verbose <;> rcases words with _ | _ | words <;> rfl
  | text words => exact ⟨rfl, by simp [Item.map, Item.course, Course.still]⟩
  | stop reason => cases completes

private theorem courseOf_tells {items : List (Item Tree)}
    (completes : ∀ item ∈ items, (item.output verbose).stop = none)
    (below : ∀ depth inner, .child depth inner ∈ items → inner.CourseTells verbose)
    (level line : Nat) :
    let walk := Item.courseOf (items.map (Item.map Tree.course)) level line
    walk.1 = lineLevel line ((Item.pieces verbose items).map (Piece.raise level)) ∧
      (walk.2 ↔ ∀ before depth inner after, items = before ++ .child depth inner :: after →
        ∀ enclosure, inner.Encloses verbose enclosure →
          (enclosure.placed (Item.pieces verbose before) depth).LinesUp level line) := by
  induction items generalizing line with
  | nil =>
      refine ⟨rfl, ?_⟩
      simp [Item.courseOf, Course.all, Course.still]
  | cons item rest ih =>
      obtain ⟨ends, tells⟩ := course_item_tells (completes item List.mem_cons_self)
        (fun depth inner same => below depth inner (same ▸ List.mem_cons_self)) level line
      obtain ⟨endsLater, tellsLater⟩ := ih (fun item member => completes item (.tail _ member))
        (fun depth inner member => below depth inner (.tail _ member))
        (lineLevel line ((item.output verbose).pieces.map (Piece.raise level)))
      rw [List.map_cons, Item.courseOf_cons]
      simp only [Course.andThen, ends, Bool.and_eq_true, tells, tellsLater]
      constructor
      · rw [endsLater, Item.pieces_cons, List.map_append, lineLevel_append]
      · constructor
        · rintro ⟨here, later⟩ before depth inner after split enclosure encloses
          cases before with
          | nil =>
              cases split
              rw [Enclosure.linesUp_placed]
              exact here depth inner rfl enclosure encloses
          | cons first before =>
              cases split
              have placed := later before depth inner after rfl enclosure encloses
              rw [Enclosure.linesUp_placed] at placed ⊢
              rw [Item.pieces_cons, List.map_append, lineLevel_append]
              exact placed
        · intro linesUp
          constructor
          · rintro depth inner rfl enclosure encloses
            have placed := linesUp [] depth inner rest rfl enclosure encloses
            rw [Enclosure.linesUp_placed] at placed
            exact placed
          · rintro before depth inner after rfl enclosure encloses
            have placed := linesUp (item :: before) depth inner after rfl enclosure encloses
            rw [Enclosure.linesUp_placed, Item.pieces_cons, List.map_append,
              lineLevel_append] at placed
            rw [Enclosure.linesUp_placed]
            exact placed

private theorem lineLevel_closer {layer : Layer Tree} {closer : Closer Tree}
    (closes : closer ∈ layer.closers) (level line : Nat) :
    lineLevel line ((Item.pieces verbose closer.before).map (Piece.raise level)) = level := by
  obtain ⟨_, _, earlier, split⟩ := layer.split_at_closer closes
  rw [split, Item.pieces_append, List.map_append, lineLevel_append]
  exact Nat.zero_add level

theorem Tree.courseTells {tree : Tree} (completes : tree.Completes verbose) :
    tree.CourseTells verbose := by
  induction tree with
  | node layer ih =>
      intro level line
      have goesOn : ∀ reason, .stop reason ∉ (layer.map course).sketch := by
        intro reason member
        rw [Layer.sketch_map] at member
        obtain ⟨item, inSketch, isStop⟩ := List.mem_map.mp member
        cases item with
        | stop other => exact completes.not_stop other inSketch
        | _ => cases isStop
      have below : ∀ depth inner, .child depth inner ∈ layer.sketch → inner.CourseTells verbose :=
        fun depth inner member =>
          ih inner (layer.admits_of_mem_sketch _ member).2 (completes.child member)
      obtain ⟨ends, tells⟩ := courseOf_tells (fun item => completes.item) below level line
      have isCourse : (node layer).course = (layer.map course).course := fold_node _ layer
      rw [isCourse, Layer.course_eq goesOn, Layer.sketch_map, Layer.encloses_map,
        pieces_of_completes completes, Bool.and_eq_true, tells]
      refine ⟨ends, ?_⟩
      constructor
      · rintro ⟨opens, inside⟩ enclosure encloses
        cases encloses with
        | ofRoot closes =>
            have enclosing := layer.encloses_of_closer closes
            have isLevel : line = level := by simpa [enclosing] using opens
            rw [Enclosure.LinesUp, lineLevel_closer closes]
            exact isLevel.symm
        | ofChild place within => exact inside _ _ _ _ place _ within
      · intro linesUp
        constructor
        · by_cases enclosing : layer.encloses
          · obtain ⟨closer, closes⟩ := layer.exists_closer enclosing completes.not_stop
            have here := linesUp _ (.ofRoot closes)
            rw [Enclosure.LinesUp, lineLevel_closer closes] at here
            have isLevel : line = level := here.symm
            simp [isLevel]
          · simp [enclosing]
        · intro before depth inner after place enclosure within
          exact linesUp _ (.ofChild place within)

/-- The keywords of an enclosure stand where it says. -/
theorem Tree.Encloses.split {tree : Tree} {enclosure : Enclosure}
    (encloses : tree.Encloses verbose enclosure) (completes : tree.Completes verbose) :
    (∃ after, (tree.passage verbose).pieces =
      enclosure.beforeOpener ++ .text enclosure.opener :: after) ∧
    ∃ after, (tree.passage verbose).pieces =
      enclosure.beforeCloser ++ .text enclosure.closer :: after := by
  induction encloses with
  | @ofRoot layer closer closes =>
      obtain ⟨⟨behindOpener, opens⟩, ⟨behindCloser, splits⟩, _⟩ := layer.split_at_closer closes
      rw [pieces_of_completes completes]
      constructor
      · rw [opens]
        exact ⟨Item.pieces verbose behindOpener, rfl⟩
      · rw [splits, Item.pieces_append]
        exact ⟨Item.pieces verbose behindCloser, rfl⟩
  | @ofChild layer before after depth inner enclosure place inside ih =>
      have inSketch : .child depth inner ∈ layer.sketch := by
        rw [place]
        exact List.mem_append_right _ List.mem_cons_self
      have written : ((node layer).passage verbose).pieces =
          Item.pieces verbose before ++ ((inner.passage verbose).pieces.map (Piece.raise depth) ++
            Item.pieces verbose after) := by
        rw [pieces_of_completes completes, place, Item.pieces_append, Item.pieces_cons]
        rfl
      obtain ⟨⟨behindOpener, opens⟩, behindCloser, closes⟩ := ih (completes.child inSketch)
      rw [written]
      constructor
      · rw [opens]
        exact ⟨behindOpener.map (Piece.raise depth) ++ Item.pieces verbose after,
          by simp [Enclosure.placed, Piece.raise]⟩
      · rw [closes]
        exact ⟨behindCloser.map (Piece.raise depth) ++ Item.pieces verbose after,
          by simp [Enclosure.placed, Piece.raise]⟩

end

/-! ### Keywords in a text -/

namespace Arena

variable {arena : Arena} {style : Style} {root : NodeId}

private theorem starts_at {indentSize : UInt64} {pieces before after : List Piece} {words : String}
    (split : pieces = before ++ .text words :: after) :
    words.toList <+: (String.ofList (spell indentSize 0 pieces)).toList.drop
      (spell indentSize 0 before).length := by
  rw [split, String.toList_ofList, spell_append, List.drop_left, spell_cons]
  exact List.prefix_append _ _

/-- In the text of a node below which lookups succeed, nothing is violated and printed names are
neither empty nor have white space in them, all closing keywords stand on lines that are indented
like those of their opening ones exactly if every block opens on a line of its own level, or levels
have no width. -/
theorem closers_line_up_iff (acyclic : arena.Acyclic root)
    (readable : arena.Throughout (fun layer => layer.isReadable style.verbose) root)
    (sound : arena.Throughout (fun layer => layer.violation? = none) root)
    (solid : arena.Throughout (fun layer => layer.isSolid style.verbose) root)
    (narrow : arena.render style root ≠ .error (.faulted .arithmeticOverflow)) :
    ∃ text, arena.render style root = .ok text ∧
      (∀ enclosure, (arena.unfold root).Encloses style.verbose enclosure →
        enclosure.opener.toList <+: text.toList.drop (enclosure.openerAt style.indentSize) ∧
        enclosure.closer.toList <+: text.toList.drop (enclosure.closerAt style.indentSize)) ∧
      ((∀ enclosure, (arena.unfold root).Encloses style.verbose enclosure →
          indentationAt text (enclosure.closerAt style.indentSize) =
            indentationAt text (enclosure.openerAt style.indentSize)) ↔
        style.indentSize = 0 ∨ (arena.unfold root).isEven) := by
  have completes := completes_of_sound acyclic readable sound
  have tidy := Tree.tidy_passage (solid_unfold acyclic solid) completes
  obtain ⟨text, rendered⟩ := exists_render_of_sound acyclic readable sound narrow
  obtain ⟨_, spelled⟩ := spell_of_render rfl rendered
  subst spelled
  refine ⟨_, rendered, ?keywords, ?aligned⟩
  case keywords =>
    intro enclosure encloses
    obtain ⟨⟨_, opens⟩, _, closes⟩ := encloses.split completes
    exact ⟨starts_at opens, starts_at closes⟩
  case aligned =>
    have indented {before after : List Piece}
        (split : ((arena.unfold root).passage style.verbose).pieces = before ++ after) :
        indentationAt (String.ofList (spell style.indentSize 0
            ((arena.unfold root).passage style.verbose).pieces))
          (spell style.indentSize 0 before).length =
          lineLevel 0 before * style.indentSize.toNat := by
      rw [split] at tidy ⊢
      exact indentationAt_spell tidy
    have even_iff : (arena.unfold root).isEven ↔
        ∀ enclosure, (arena.unfold root).Encloses style.verbose enclosure →
          lineLevel 0 enclosure.beforeCloser = lineLevel 0 enclosure.beforeOpener := by
      have tells := (Tree.courseTells completes 0 0).2
      simp only [Enclosure.LinesUp, Piece.map_raise_zero] at tells
      exact tells
    constructor
    · intro aligned
      by_cases flat : style.indentSize = 0
      · exact .inl flat
      · refine .inr (even_iff.mpr ?_)
        intro enclosure encloses
        obtain ⟨⟨_, opens⟩, _, closes⟩ := encloses.split completes
        have same := aligned enclosure encloses
        rw [Enclosure.closerAt, Enclosure.openerAt, indented closes, indented opens] at same
        have positive : 0 < style.indentSize.toNat := by
          rw [Nat.pos_iff_ne_zero]
          intro none
          exact flat (UInt64.toNat_inj.mp none)
        exact Nat.eq_of_mul_eq_mul_right positive same
    · intro flat_or_even enclosure encloses
      obtain ⟨⟨_, opens⟩, _, closes⟩ := encloses.split completes
      rw [Enclosure.closerAt, Enclosure.openerAt, indented closes, indented opens]
      rcases flat_or_even with flat | even
      · rw [flat]
        exact (Nat.mul_zero _).trans (Nat.mul_zero _).symm
      · rw [even_iff.mp even enclosure encloses]

end Arena

def nestedBlocks : Arena where
  exprs := #[
    ⟨.int 1, ⟨1, 1⟩⟩,
    ⟨.sequence ⟨0, 1⟩, ⟨1, 2⟩⟩,
    ⟨.ifThenElse ⟨1⟩ ⟨0⟩ ⟨1⟩, ⟨1, 3⟩⟩,
    ⟨.whileLoop ⟨0⟩ ⟨2⟩, ⟨1, 4⟩⟩,
    ⟨.letIn ⟨0, 1⟩ ⟨0, 2⟩, ⟨1, 5⟩⟩]
  exprLists := #[⟨0⟩, ⟨3⟩]
  decls := #[⟨⟨1⟩, ⟨2, 1⟩, 0, none, .undefined, false, .value (some ⟨1⟩)⟩]
  declLists := #[⟨0⟩]
  names := ⟨[("x", ⟨1⟩), ("", ⟨0⟩)], #["", "x"]⟩

def nestedBlocksText : String :=
  "let\n  var x := (\n    1\n  )\nin\n  1;\n  while 1 do\n    if\n      (\n        1\n      )\n" ++
    "    then\n      1\n    else\n      (\n        1\n      )\nend"

theorem closers_line_up_nestedBlocks :
    nestedBlocks.render ⟨2, false⟩ (.expr ⟨4⟩) = .ok nestedBlocksText ∧
      (∃ enclosure, (nestedBlocks.unfold (.expr ⟨4⟩)).Encloses false enclosure) ∧
      ∀ enclosure, (nestedBlocks.unfold (.expr ⟨4⟩)).Encloses false enclosure →
        indentationAt nestedBlocksText (enclosure.closerAt 2) =
          indentationAt nestedBlocksText (enclosure.openerAt 2) := by
  have acyclic : nestedBlocks.Acyclic (.expr ⟨4⟩) :=
    (by decide : nestedBlocks.Within 7 (.expr ⟨4⟩)).acyclic
  have unviolated : nestedBlocks.Throughout (fun layer => layer.violation?.isNone) (.expr ⟨4⟩) :=
    Arena.throughout_of_checkWithin (by decide : nestedBlocks.checkWithin _ 7 _)
  have wellNamed : nestedBlocks.Throughout (fun layer => layer.isWellNamed) (.expr ⟨4⟩) :=
    Arena.throughout_of_checkWithin (by decide : nestedBlocks.checkWithin _ 7 _)
  have written : nestedBlocks.render ⟨2, false⟩ (.expr ⟨4⟩) = .ok nestedBlocksText := by
    decide +kernel
  have narrow : nestedBlocks.render ⟨2, false⟩ (.expr ⟨4⟩) ≠
      .error (.faulted .arithmeticOverflow) := by
    rw [written]
    simp
  obtain ⟨text, rendered, _, aligned⟩ := Arena.closers_line_up_iff acyclic
    (Arena.throughout_of_checkWithin (by decide : nestedBlocks.checkWithin _ 7 _))
    (fun node reached => Option.isNone_iff_eq_none.mp (unviolated node reached))
    (fun node reached => Layer.isSolid_of_isWellNamed (wellNamed node reached)) narrow
  cases written.symm.trans rendered
  have even : (nestedBlocks.unfold (.expr ⟨4⟩)).isEven := by decide +kernel
  refine ⟨written, ?_, aligned.mpr (.inr even)⟩
  rw [Arena.unfold_eq acyclic]
  exact ⟨_, .ofRoot List.mem_cons_self⟩

/-- The sequence opens on the line on which the conditional before it ends, and that is a line of
the conditional's own. -/
def trailingSequence : Arena :=
  { Arena.initial with
    exprs := #[
      ⟨.int 1, ⟨1, 1⟩⟩,
      ⟨.int 2, ⟨1, 2⟩⟩,
      ⟨.int 3, ⟨1, 3⟩⟩,
      ⟨.ifThenElse ⟨0⟩ ⟨1⟩ ⟨2⟩, ⟨1, 4⟩⟩,
      ⟨.int 4, ⟨2, 1⟩⟩,
      ⟨.sequence ⟨0, 1⟩, ⟨2, 2⟩⟩,
      ⟨.binary .add ⟨3⟩ ⟨5⟩, ⟨2, 3⟩⟩]
    exprLists := #[⟨4⟩] }

def trailingSequenceText : String :=
  "(if\n  1\nthen\n  2\nelse\n  3 + (\n  4\n))"

def trailingEnclosure : Enclosure where
  opener := "("
  closer := ")"
  beforeOpener := [.text "(", .text "if", .line 1, .text "1", .line 0, .text "then", .line 1,
    .text "2", .line 0, .text "else", .line 1, .text "3", .text " + "]
  beforeCloser := [.text "(", .text "if", .line 1, .text "1", .line 0, .text "then", .line 1,
    .text "2", .line 0, .text "else", .line 1, .text "3", .text " + ", .text "(", .line 1,
    .text "4", .line 0]

/-- Nothing is amiss with the tree, but the closing parenthesis of its sequence stands on a line
without indentation, the opening one on a line with two blanks. -/
theorem closer_out_of_line_trailingSequence :
    trailingSequence.Acyclic (.expr ⟨6⟩) ∧
      trailingSequence.Throughout (fun layer => layer.isIntact) (.expr ⟨6⟩) ∧
      trailingSequence.Throughout (fun layer => layer.violation?.isNone) (.expr ⟨6⟩) ∧
      trailingSequence.Throughout (fun layer => layer.isWellNamed) (.expr ⟨6⟩) ∧
      trailingSequence.render ⟨2, false⟩ (.expr ⟨6⟩) = .ok trailingSequenceText ∧
      (trailingSequence.unfold (.expr ⟨6⟩)).Encloses false trailingEnclosure ∧
      indentationAt trailingSequenceText (trailingEnclosure.openerAt 2) = 2 ∧
      indentationAt trailingSequenceText (trailingEnclosure.closerAt 2) = 0 := by
  have acyclic : trailingSequence.Acyclic (.expr ⟨6⟩) :=
    (by decide : trailingSequence.Within 8 (.expr ⟨6⟩)).acyclic
  have place : ((trailingSequence.layer (.expr ⟨6⟩)).map trailingSequence.unfold).sketch =
      [.text "(", .child 0 (trailingSequence.unfold (.expr ⟨3⟩)), .text " + "] ++
        .child 0 (trailingSequence.unfold (.expr ⟨5⟩)) :: [.text ")"] := rfl
  have closes : (⟨"(", ")", [.text "(", .line 1, .child 1 (trailingSequence.unfold (.expr ⟨4⟩)),
      .line 0]⟩ : Closer Tree) ∈
        ((trailingSequence.layer (.expr ⟨5⟩)).map trailingSequence.unfold).closers :=
    List.mem_cons_self
  have inside : (trailingSequence.unfold (.expr ⟨5⟩)).Encloses false
      ⟨"(", ")", [], [.text "(", .line 1, .text "4", .line 0]⟩ := by
    rw [Arena.unfold_eq (by decide : trailingSequence.Within 8 (.expr ⟨5⟩)).acyclic]
    exact .ofRoot closes
  have encloses : (trailingSequence.unfold (.expr ⟨6⟩)).Encloses false trailingEnclosure := by
    rw [Arena.unfold_eq acyclic]
    exact .ofChild place inside
  exact ⟨acyclic,
    Arena.throughout_of_checkWithin (by decide : trailingSequence.checkWithin _ 8 _),
    Arena.throughout_of_checkWithin (by decide : trailingSequence.checkWithin _ 8 _),
    Arena.throughout_of_checkWithin (by decide : trailingSequence.checkWithin _ 8 _),
    by decide +kernel, encloses, by decide +kernel, by decide +kernel⟩

end TigerTree
