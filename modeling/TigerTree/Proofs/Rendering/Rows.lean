import TigerTree.Proofs.Rendering.Breaks

/-! The lines of a text as they are cut at its line breaks. Where printed names are neither empty
nor have white space in them, each line is the indentation of its level with something behind it
that neither starts nor ends with a blank, and no line is more than one level deeper than the line
before it. -/

set_option autoImplicit false

namespace TigerTree

/-- Lines of the levels may follow a line of any level, each at most one level deeper than the line
before it. -/
def IsGradual (levels : List Nat) : Prop :=
  ∀ start, List.IsChain (fun level next => next ≤ level + 1) (start :: levels)

namespace IsGradual

variable {levels : List Nat}

theorem nil : IsGradual [] := fun start => List.isChain_singleton start

theorem append {first second : List Nat} (gradual : IsGradual first)
    (gradualToo : IsGradual second) : IsGradual (first ++ second) := by
  intro start
  rw [← List.cons_append, List.isChain_append]
  refine ⟨gradual start, (gradualToo 0).tail, ?_⟩
  intro last _ next isNext
  exact (List.isChain_cons.mp (gradualToo last)).1 next isNext

theorem flatten {lists : List (List Nat)} (gradual : ∀ levels ∈ lists, IsGradual levels) :
    IsGradual lists.flatten := by
  induction lists with
  | nil => exact nil
  | cons first rest ih =>
      rw [List.flatten_cons]
      exact (gradual first List.mem_cons_self).append
        (ih (fun levels member => gradual levels (.tail _ member)))

/-- What closes a block stands at the level of its node, which is no step down. -/
theorem closing (gradual : IsGradual levels) : IsGradual (0 :: levels) :=
  fun _ => List.isChain_cons_cons.mpr ⟨Nat.zero_le _, gradual 0⟩

/-- Own lines start one level deeper, wherever the line before them stands. -/
theorem ownLines (gradual : IsGradual levels) : IsGradual (ownLines levels) := by
  intro _
  refine List.isChain_cons_cons.mpr ⟨Nat.le_add_left 1 _, ?_⟩
  have raised : List.IsChain (fun level next => next ≤ level + 1) ((0 :: levels).map (· + 1)) := by
    rw [List.isChain_map]
    exact (gradual 0).imp (fun _ _ near => Nat.succ_le_succ near)
  exact raised

theorem parts {lists : List (List Nat)} (gradual : ∀ levels ∈ lists, IsGradual levels) :
    IsGradual (lists.flatMap TigerTree.ownLines) := by
  rw [List.flatMap_def]
  apply flatten
  intro levels member
  obtain ⟨part, isPart, rfl⟩ := List.mem_map.mp member
  exact (gradual part isPart).ownLines

end IsGradual

theorem Layer.gradual_breaks {layer : Layer (List Nat)}
    (below : ∀ levels ∈ layer.children, IsGradual levels) : IsGradual layer.breaks := by
  cases layer with
  | sequence location elements => exact (IsGradual.parts below).append IsGradual.nil.closing
  | letIn location decls body =>
      have inDecls := IsGradual.parts (fun levels member => below levels (List.mem_append_left _ member))
      have inBody := IsGradual.parts (fun levels member => below levels (List.mem_append_right _ member))
      exact inDecls.append (inBody.append IsGradual.nil.closing).closing
  | ifThenElse location condition thenBranch elseBranch =>
      have inCondition := below condition List.mem_cons_self
      have inThen := below thenBranch (.tail _ List.mem_cons_self)
      have inElse := below elseBranch (.tail _ (.tail _ List.mem_cons_self))
      exact inCondition.ownLines.append (inThen.ownLines.append inElse.ownLines.closing).closing
  | whileLoop location condition body =>
      have inCondition := below condition List.mem_cons_self
      have inBody := below body (.tail _ List.mem_cons_self)
      exact inCondition.append inBody.ownLines
  | forLoop location start high body =>
      have inStart := IsGradual.flatten
        (fun levels member => below levels (List.mem_append_left _ member))
      have inHigh := below high (List.mem_append_right _ List.mem_cons_self)
      have inBody := below body (List.mem_append_right _ (.tail _ List.mem_cons_self))
      exact inStart.append (inHigh.append inBody.ownLines)
  | funDecl heading loweredName parameters body =>
      have inParameters := IsGradual.flatten
        (fun levels member => below levels (List.mem_append_left _ member))
      have inBody := below body (List.mem_append_right _ List.mem_cons_self)
      exact inParameters.append inBody.ownLines
  | _ => exact IsGradual.flatten below

theorem Tree.gradual_breaks (tree : Tree) : IsGradual tree.breaks := by
  induction tree with
  | node layer ih =>
      rw [breaks, fold_node]
      apply Layer.gradual_breaks
      intro levels member
      rw [Layer.children_map] at member
      obtain ⟨child, isChild, rfl⟩ := List.mem_map.mp member
      exact ih child isChild

/-- The words go on to the end of a line behind a text that ends so: they break no line, and the
line does not end in a blank. -/
def EndsLine (ending : Ending) (words : String) : Prop :=
  '\n' ∉ words.toList ∧ (words.toList.getLast?.any isInk ∨ words = "" ∧ ending = .ink)

def IsContent (words : List Char) : Prop :=
  words.head?.any isInk ∧ words.getLast?.any isInk

/-- The line is the indentation of the level and something behind it that neither starts nor ends
with a blank. -/
def IsIndented (indentSize : UInt64) (level : Nat) (line : List Char) : Prop :=
  ∃ content, line = List.replicate (level * indentSize.toNat) ' ' ++ content ∧ IsContent content

private theorem ends_in_ink_append {first : List Char} (ends : first.getLast?.any isInk)
    (second : List Char) : (second ++ first).getLast?.any isInk := by
  cases last : first.getLast? with
  | none =>
      rw [last] at ends
      cases ends
  | some char =>
      rw [List.getLast?_append, last]
      rw [last] at ends
      exact ends

private theorem ends_in_ink_quote (contents : String) :
    (Literal.quote contents).toList.getLast?.any isInk := by
  rw [Literal.quote, String.toList_append]
  exact ends_in_ink_append rfl _

private theorem ends_in_ink_comment (words : String) :
    ("/*" ++ words ++ "*/").toList.getLast?.any isInk := by
  rw [String.toList_append]
  exact ends_in_ink_append rfl _

theorem EndsLine.before {ending later : Ending} {words rest : String} (goesOn : EndsLine later rest)
    (unbroken : '\n' ∉ words.toList) (ends : later = .ink → words.toList.getLast?.any isInk) :
    EndsLine ending (words ++ rest) := by
  obtain ⟨unbrokenRest, inked | ⟨rfl, isInk⟩⟩ := goesOn
  · rw [EndsLine, String.toList_append, List.mem_append, not_or]
    exact ⟨⟨unbroken, unbrokenRest⟩, .inl (ends_in_ink_append inked _)⟩
  · rw [String.append_empty]
    exact ⟨unbroken, .inl (ends isInk)⟩

/-- Tidy pieces fill every line to its end. -/
theorem Tidy.ends_lines {ending : Ending} {pieces : List Piece} (tidy : Tidy ending pieces) :
    EndsLine ending (Layout.ofPieces pieces).opening ∧
      ∀ line ∈ (Layout.ofPieces pieces).lines, EndsLine .indentation line.content := by
  induction pieces generalizing ending with
  | nil =>
      have isInk : ending = .ink := tidy
      exact ⟨⟨by simp [Layout.ofPieces], .inr ⟨rfl, isInk⟩⟩, fun line inside => by cases inside⟩
  | cons piece rest ih =>
      obtain ⟨unbroken, follows, later⟩ := tidy
      obtain ⟨onLine, below⟩ := ih later
      cases piece with
      | line level =>
          have isInk : ending = .ink := of_decide_eq_true follows
          refine ⟨⟨by simp [Layout.ofPieces], .inr ⟨rfl, isInk⟩⟩, ?_⟩
          intro line inside
          rcases List.mem_cons.mp inside with rfl | inRest
          · exact onLine
          · exact below line inRest
      | text words =>
          refine ⟨onLine.before (of_decide_eq_true unbroken) ?_, below⟩
          intro isInk
          by_contra notInk
          rw [Piece.ending, if_neg notInk] at isInk
          cases isInk
      | literal contents =>
          exact ⟨onLine.before (newline_notMem_quote contents)
            (fun _ => ends_in_ink_quote contents), below⟩
      | comment words =>
          exact ⟨onLine.before (newline_notMem_comment (of_decide_eq_true unbroken))
            (fun _ => ends_in_ink_comment words), below⟩

/-- Of tidy pieces that start a line, the opening and every line of their layout have content. -/
theorem Tidy.contents {pieces : List Piece} (tidy : Tidy .indentation pieces) :
    ∀ words ∈ (Layout.ofPieces pieces).opening :: (Layout.ofPieces pieces).lines.map (·.content),
      '\n' ∉ words.toList ∧ IsContent words.toList := by
  obtain ⟨starts, startsBelow⟩ := tidy.starts_in_ink
  obtain ⟨ends, endsBelow⟩ := tidy.ends_lines
  have whole {words : String} (starts : words.toList.head?.any isInk)
      (ends : EndsLine .indentation words) : '\n' ∉ words.toList ∧ IsContent words.toList :=
    ⟨ends.1, starts, ends.2.resolve_right (fun isEmpty => by cases isEmpty.2)⟩
  intro words member
  rcases List.mem_cons.mp member with rfl | inLines
  · exact whole (starts rfl) ends
  · obtain ⟨line, inside, rfl⟩ := List.mem_map.mp inLines
    exact whole (startsBelow line inside) (endsBelow line inside)

def linesOf (text : String) : List (List Char) := text.toList.splitOn '\n'

private theorem toList_joined (opening : String) (rows : List String) :
    (opening ++ String.join (rows.map (fun row => "\n" ++ row))).toList =
      ['\n'].intercalate ((opening :: rows).map String.toList) := by
  induction rows generalizing opening with
  | nil => simp
  | cons row rest ih =>
      have later := ih row
      rw [List.map_cons] at later ⊢
      rw [List.map_cons, List.map_cons, List.intercalate_cons_cons, ← later]
      simp

/-- Where nothing that stands on a line breaks it, a text is cut into the lines of its layout. -/
theorem Layout.linesOf_textAt {layout : Layout}
    (unbroken : ∀ words ∈ layout.opening :: layout.lines.map (·.content), '\n' ∉ words.toList)
    (indentSize : UInt64) (level : Nat) :
    linesOf (layout.textAt indentSize level) =
      (layout.opening :: layout.rowsAt indentSize level).map String.toList := by
  rw [linesOf, textAt, toList_joined]
  apply List.splitOn_intercalate
  · intro row member
    obtain ⟨words, isRow, rfl⟩ := List.mem_map.mp member
    rcases List.mem_cons.mp isRow with rfl | inRows
    · exact unbroken _ List.mem_cons_self
    · obtain ⟨line, inside, rfl⟩ := List.mem_map.mp inRows
      have content := unbroken line.content (.tail _ (List.mem_map_of_mem inside))
      simp [blanks, content]
  · exact List.cons_ne_nil _ _

/-- Tidy pieces that start a line are cut where they break lines, and nowhere else. -/
theorem Tidy.indented {pieces : List Piece} (tidy : Tidy .indentation pieces)
    (indentSize : UInt64) :
    List.Forall₂ (IsIndented indentSize) (0 :: pieces.filterMap Piece.level?)
      (linesOf (String.ofList (spell indentSize 0 pieces))) := by
  have contents := tidy.contents
  rw [← Layout.textAt_ofPieces,
    Layout.linesOf_textAt (fun words member => (contents words member).1),
    ← Layout.map_depth_ofPieces, List.map_cons]
  refine .cons ?first ?others
  case first =>
    refine ⟨_, ?_, (contents _ List.mem_cons_self).2⟩
    rw [Nat.zero_mul]
    rfl
  case others =>
    rw [Layout.rowsAt, List.map_map, List.forall₂_map_left_iff, List.forall₂_map_right_iff,
      List.forall₂_same]
    intro line inside
    refine ⟨_, ?_, (contents _ (.tail _ (List.mem_map_of_mem inside))).2⟩
    simp [blanks]

theorem Tidy.isUnbroken_of_mem {ending : Ending} {pieces : List Piece} (tidy : Tidy ending pieces) :
    ∀ piece ∈ pieces, piece.isUnbroken := by
  induction pieces generalizing ending with
  | nil => exact fun piece member => by cases member
  | cons piece rest ih => exact List.forall_mem_cons.mpr ⟨tidy.1, ih tidy.2.2⟩

theorem Piece.isLine_of_newline_mem {piece : Piece} (unbroken : piece.isUnbroken)
    {indentSize : UInt64} {base : Nat} (broken : '\n' ∈ piece.chars indentSize base) :
    ∃ level, piece = .line level := by
  cases piece with
  | line level => exact ⟨level, rfl⟩
  | text words => exact absurd broken (of_decide_eq_true unbroken)
  | literal contents => exact absurd broken (newline_notMem_quote contents)
  | comment words => exact absurd broken (newline_notMem_comment (of_decide_eq_true unbroken))

def Draft.levels (draft : Draft) : List Nat := draft.pieces.toList.filterMap Piece.level?

namespace Arena

variable {arena : Arena} {style : Style} {root : NodeId}

private theorem draftWithin_of_completes
    (completes : (arena.unfold root).Completes style.verbose) :
    arena.draftWithin style.verbose arena.pathBound root Draft.blank =
      .ok () ⟨((arena.unfold root).passage style.verbose).pieces.toArray, 0⟩ := by
  unfold Tree.Completes at completes
  rw [draftWithin_eq_perform, ← Arena.unfold]
  simp [Passage.perform, completes, Draft.blank, Piece.map_raise_zero]

/-- Below a node where lookups succeed, nothing is violated and printed names are neither empty nor
have white space in them, the text is what the pieces of the draft spell. Nothing but the line
breaks that the shape of the tree tells breaks a line. The first line has level zero and every
other the level at its line break. Each line is the indentation of its level and something behind
it that neither starts nor ends with a blank, and is at most one level deeper than the line before
it. -/
theorem lines_of_render (acyclic : arena.Acyclic root)
    (readable : arena.Throughout (fun layer => layer.isReadable style.verbose) root)
    (sound : arena.Throughout (fun layer => layer.violation? = none) root)
    (solid : arena.Throughout (fun layer => layer.isSolid style.verbose) root)
    (narrow : arena.render style root ≠ .error (.faulted .arithmeticOverflow)) :
    ∃ text draft, arena.render style root = .ok text ∧
      arena.draftWithin style.verbose arena.pathBound root Draft.blank = .ok () draft ∧
      text = String.ofList (spell style.indentSize 0 draft.pieces.toList) ∧
      draft.levels = (arena.unfold root).breaks ∧
      (∀ piece ∈ draft.pieces.toList, '\n' ∈ piece.chars style.indentSize 0 →
        ∃ level, piece = .line level) ∧
      List.Forall₂ (IsIndented style.indentSize) (0 :: draft.levels) (linesOf text) ∧
      List.IsChain (fun level next => next ≤ level + 1) (0 :: draft.levels) := by
  have completes := completes_of_sound acyclic readable sound
  have tidy := Tree.tidy_passage (solid_unfold acyclic solid) completes
  obtain ⟨text, rendered⟩ := exists_render_of_sound acyclic readable sound narrow
  obtain ⟨_, spelled⟩ := spell_of_render rfl rendered
  have levels := Tree.levels_passage completes
  have gradual := (arena.unfold root).gradual_breaks 0
  rw [← levels] at gradual
  refine ⟨text, _, rendered, draftWithin_of_completes completes, spelled, levels, ?unbroken,
    ?indented, gradual⟩
  case unbroken =>
    intro piece member broken
    exact piece.isLine_of_newline_mem (tidy.isUnbroken_of_mem piece member) broken
  case indented =>
    rw [spelled]
    exact tidy.indented style.indentSize

end Arena

/-- A function with a lowered name. Its body has a conditional that ends in the middle of a line, a
`let` without declarations, a loop, and a string of a line break and a blank. -/
def ragged : Arena where
  exprs := #[
    ⟨.int 1, ⟨1, 1⟩⟩,
    ⟨.string ⟨3⟩, ⟨1, 2⟩⟩,
    ⟨.ifThenElse ⟨0⟩ ⟨1⟩ ⟨0⟩, ⟨1, 3⟩⟩,
    ⟨.whileLoop ⟨0⟩ ⟨2⟩, ⟨1, 4⟩⟩,
    ⟨.letIn ⟨0, 0⟩ ⟨0, 1⟩, ⟨1, 5⟩⟩,
    ⟨.binary .add ⟨2⟩ ⟨4⟩, ⟨1, 6⟩⟩,
    ⟨.sequence ⟨1, 2⟩, ⟨1, 7⟩⟩]
  exprLists := #[⟨3⟩, ⟨5⟩, ⟨1⟩]
  decls := #[⟨⟨1⟩, ⟨2, 1⟩, 0, none, .undefined, false, .function ⟨0, 0⟩ ⟨6⟩ (some ⟨2⟩)⟩]
  declLists := #[]
  names := ⟨[], #["", "f", "f_1", "\n "]⟩

def raggedText : String :=
  "function f/*f_1*/() =\n  (\n    (if\n      1\n    then\n      \"\\n \"\n    else\n" ++
    "      1 + let\n    in\n      while 1 do\n        if\n          1\n        then\n" ++
    "          \"\\n \"\n        else\n          1\n    end);\n    \"\\n \"\n  )"

theorem lines_of_render_ragged :
    ragged.render Style.commented (.decl ⟨0⟩) = .ok raggedText ∧
      List.Forall₂ (IsIndented 2) [0, 1, 2, 3, 2, 3, 2, 3, 2, 3, 4, 5, 4, 5, 4, 5, 2, 2, 1]
        (linesOf raggedText) := by
  have acyclic : ragged.Acyclic (.decl ⟨0⟩) := (by decide : ragged.Within 9 (.decl ⟨0⟩)).acyclic
  have unviolated : ragged.Throughout (fun layer => layer.violation?.isNone) (.decl ⟨0⟩) :=
    Arena.throughout_of_checkWithin (by decide : ragged.checkWithin _ 9 _)
  have written : ragged.render Style.commented (.decl ⟨0⟩) = .ok raggedText := by
    decide +kernel
  have narrow : ragged.render Style.commented (.decl ⟨0⟩) ≠
      .error (.faulted .arithmeticOverflow) := by
    rw [written]
    simp
  obtain ⟨text, draft, rendered, _, _, levels, _, indented, _⟩ := Arena.lines_of_render acyclic
    (Arena.throughout_of_checkWithin (by decide : ragged.checkWithin _ 9 _))
    (fun node reached => Option.isNone_iff_eq_none.mp (unviolated node reached))
    (Arena.throughout_of_checkWithin (by decide : ragged.checkWithin _ 9 _)) narrow
  cases written.symm.trans rendered
  have breaks : (ragged.unfold (.decl ⟨0⟩)).breaks =
      [1, 2, 3, 2, 3, 2, 3, 2, 3, 4, 5, 4, 5, 4, 5, 2, 2, 1] := by
    decide +kernel
  rw [levels, breaks] at indented
  exact ⟨written, indented⟩

end TigerTree
