import TigerTree.Proofs.Rendering.Comments
import TigerTree.Proofs.Rendering.Objections
import TigerTree.Proofs.Rendering.Sharing
import TigerTree.Proofs.Reading.Spelled

/-! The comments of a verbose text. They are the diagnostics of the nodes in document order, those
of a shared node as often as the node is printed, and nothing else. -/

set_option autoImplicit false

namespace TigerTree

variable {Child Other : Type}

/-- The contents of the comments in a text, the first one first; of a comment that the scan starts
in, the contents so far are given. A comment that is not closed reaches to the end. -/
def listComments : Scan → List Char → List Char → List (List Char)
  | .comment, contents, [] => [contents]
  | _, _, [] => []
  | .outside, _, '/' :: '*' :: rest => listComments .comment [] rest
  | .outside, _, '"' :: rest => listComments .literal [] rest
  | .outside, _, _ :: rest => listComments .outside [] rest
  | .literal, _, '\\' :: rest => listComments .escaped [] rest
  | .literal, _, '"' :: rest => listComments .outside [] rest
  | .literal, _, _ :: rest => listComments .literal [] rest
  | .escaped, _, _ :: rest => listComments .literal [] rest
  | .comment, contents, '*' :: '/' :: rest => contents :: listComments .outside [] rest
  | .comment, contents, char :: rest => listComments .comment (contents ++ [char]) rest

def commentsIn (text : String) : List String :=
  (listComments .outside [] text.toList).map String.ofList

example : commentsIn "x/*decl:1:2*/ / \"/*\\\"*/\"/**/" = ["decl:1:2", ""] := by decide

def Piece.comment? : Piece → Option String
  | .comment words => some words
  | _ => none

def Passage.comments (passage : Passage) : List String :=
  passage.pieces.filterMap Piece.comment?

theorem listComments_of_not_mem {words : List Char} (noSlash : '/' ∉ words) (noQuote : '"' ∉ words)
    (rest : List Char) :
    listComments .outside [] (words ++ rest) = listComments .outside [] rest := by
  induction words with
  | nil => rfl
  | cons char words ih =>
      rw [List.mem_cons, not_or] at noSlash noQuote
      rw [List.cons_append, listComments, ih noSlash.2 noQuote.2]
      · intro _ isSlash _
        exact noSlash.1 isSlash.symm
      · exact fun isQuote => noQuote.1 isQuote.symm

theorem listComments_comment {words : List Char} (contained : closesComment words = false)
    (contents rest : List Char) :
    listComments .comment contents (words ++ ('*' :: '/' :: rest)) =
      (contents ++ words) :: listComments .outside [] rest := by
  induction words generalizing contents with
  | nil =>
      rw [List.append_nil]
      rfl
  | cons char words ih =>
      obtain ⟨later, goesOn⟩ := closesComment_cons contained
      rw [List.cons_append, listComments, ih later, List.append_assoc]
      · rfl
      · exact goesOn rest

private theorem listComments_escapeChar (char : Char) (rest : List Char) :
    listComments .literal [] (Literal.escapeChar char ++ rest) =
      listComments .literal [] rest := by
  unfold Literal.escapeChar
  split
  case h_10 notQuote notBackslash _ _ _ _ _ _ _ =>
    rw [List.singleton_append, listComments]
    · exact notBackslash
    · exact notQuote
  all_goals rfl

theorem listComments_literal (contents rest : List Char) :
    listComments .literal [] (contents.flatMap Literal.escapeChar ++ ('"' :: rest)) =
      listComments .outside [] rest := by
  induction contents with
  | nil => rfl
  | cons char contents ih =>
      rw [List.flatMap_cons, List.append_assoc, listComments_escapeChar, ih]

section

variable {indentSize : UInt64} {base : Nat}

/-- A scan outside of literals and comments is outside again after the piece, and has found just
the comment that the piece is. -/
theorem listComments_piece {piece : Piece} (unmarked : piece.IsUnmarked) (rest : List Char) :
    listComments .outside [] (piece.chars indentSize base ++ rest) =
      piece.comment?.toList.map String.toList ++ listComments .outside [] rest := by
  cases piece with
  | text words =>
      rcases unmarked with rfl | ⟨noSlash, noQuote⟩
      · rfl
      · exact listComments_of_not_mem noSlash noQuote rest
  | comment words =>
      have scanned := listComments_comment unmarked [] rest
      simp only [Piece.chars, String.toList_append, List.append_assoc]
      exact scanned
  | literal contents =>
      have scanned := listComments_literal contents.toList rest
      simp only [Piece.chars, Literal.toList_quote, List.cons_append, List.append_assoc,
        List.nil_append]
      exact scanned
  | line level =>
      refine listComments_of_not_mem ?_ ?_ rest
      · simp [Piece.chars]
      · simp [Piece.chars]

theorem commentsIn_spell {passage : Passage}
    (unmarked : ∀ piece ∈ passage.pieces, piece.IsUnmarked) :
    commentsIn (String.ofList (spell indentSize base passage.pieces)) = passage.comments := by
  have scanned {pieces : List Piece} (unmarked : ∀ piece ∈ pieces, piece.IsUnmarked) :
      listComments .outside [] (spell indentSize base pieces) =
        (pieces.filterMap Piece.comment?).map String.toList := by
    induction pieces with
    | nil => rfl
    | cons piece rest ih =>
        rw [spell_cons, listComments_piece (unmarked piece List.mem_cons_self),
          ih (fun other member => unmarked other (List.mem_cons_of_mem _ member)),
          List.filterMap_cons]
        cases piece.comment? <;> rfl
  rw [commentsIn, String.toList_ofList, scanned unmarked, List.map_map]
  simp [Function.comp_def, Passage.comments]

end

/-! ### Comments of a passage -/

namespace Passage

theorem comments_raise (levels : Nat) (passage : Passage) :
    (raise levels passage).comments = passage.comments := by
  have same : Piece.comment? ∘ Piece.raise levels = Piece.comment? := by
    funext piece
    cases piece <;> rfl
  rw [comments, raise, List.filterMap_map, same]
  rfl

theorem comments_concat {passages : List Passage} (complete : (concat passages).stop = none) :
    (concat passages).comments = passages.flatMap comments := by
  rw [comments, pieces_concat complete, List.filterMap_flatMap]
  rfl

end Passage

def Layer.comment? (layer : Layer Child) : Option String := layer.note.bind Except.toOption

theorem Layer.comment?_map (change : Child → Other) (layer : Layer Child) :
    (layer.map change).comment? = layer.comment? := by
  cases layer with
  | forLoop location start high body => cases start <;> rfl
  | _ => rfl

namespace Item

def comments : Item Passage → List String
  | .note words => (words.bind Except.toOption).toList
  | .child _ inner => inner.comments
  | _ => []

theorem comments_passage (item : Item Passage) : (item.passage true).comments = item.comments := by
  cases item with
  | name spelling => cases spelling <;> rfl
  | literal contents => cases contents <;> rfl
  | note words => rcases words with _ | _ | words <;> rfl
  | child depth inner => exact Passage.comments_raise depth inner
  | _ => rfl

theorem comments_listed (children : List Passage) :
    (joined [.text ", "] 0 children).flatMap comments = children.flatMap Passage.comments :=
  flatMap_joined rfl 0 children

theorem comments_lines (children : List Passage) :
    (lines children).flatMap comments = children.flatMap Passage.comments :=
  flatMap_joined rfl 1 children

theorem comments_block (body : Passage) : (block body).flatMap comments = body.comments :=
  List.append_nil _

theorem comments_blocks (children : List Passage) :
    (children.flatMap block).flatMap comments = children.flatMap Passage.comments := by
  rw [List.flatMap_assoc]
  exact List.flatMap_congr (fun child _ => comments_block child)

theorem comments_variableType (heading : Heading) : (variableType heading).flatMap comments = [] :=
  flatMap_variableType (fun _ => rfl) (fun _ => rfl) heading

theorem comments_resultType (heading : Heading) : (resultType heading).flatMap comments = [] :=
  flatMap_resultType (fun _ => rfl) (fun _ => rfl) heading

end Item

/-- A sketch that does not stop tells the diagnostic of the node before its children, and these in
their order. -/
theorem Layer.comments_passage {layer : Layer Passage}
    (complete : (layer.passage true).stop = none) :
    (layer.passage true).comments =
      layer.comment?.toList ++ layer.children.flatMap Passage.comments := by
  have goesOn := layer.stop_notMem_sketch complete
  have sketched : (layer.passage true).comments = layer.sketch.flatMap Item.comments := by
    rw [Layer.passage, Passage.ofItems, Passage.comments_concat complete, List.flatMap_map]
    exact List.flatMap_congr (fun item _ => Item.comments_passage item)
  rw [sketched]
  clear sketched complete
  cases layer with
  | broken fault => rfl
  | sequence location elements =>
      cases elements with
      | nil => rfl
      | cons first rest =>
          simp [sketch, Item.comments, Item.comments_lines, comment?, note, children]
  | letIn location decls body =>
      cases body with
      | nil => exact absurd (List.mem_singleton_self _) (goesOn _)
      | cons first rest =>
          simp [sketch, Item.comments, Item.comments_lines, Item.comments_blocks, comment?, note,
            children]
  | call location function site arguments =>
      simp [sketch, Item.comments, Item.comments_listed, comment?, children]
  | forLoop location start high body =>
      cases start with
      | lost fault => exact absurd (List.mem_singleton_self _) (goesOn _)
      | missing => exact absurd (List.mem_singleton_self _) (goesOn _)
      | bound heading low =>
          simp [sketch, Item.comments, Item.comments_block, comment?, children,
            LoopStart.children]
  | varDecl heading initializer =>
      simp [sketch, Item.comments, Item.comments_variableType, comment?, children]
  | parameter heading =>
      simp [sketch, Item.comments, Item.comments_variableType, comment?, children]
  | funDecl heading loweredName parameters body =>
      cases parameters with
      | error fault =>
          have stopped : .stop (.faulted fault) ∈
              (funDecl heading loweredName (.error fault) body).sketch := by
            simp [sketch]
          exact absurd stopped (goesOn _)
      | ok parameters =>
          simp [sketch, Item.comments, Item.comments_listed, Item.comments_block,
            Item.comments_resultType, comment?, children, listed]
  | _ =>
      simp [sketch, Item.comments, Item.comments_block, comment?, note, children]

/-- The diagnostic of a node. Names are compared as they read. -/
def Layer.diagnostic? : Layer Child → Option String
  | .identifier _ _ (some (.ok site)) depth =>
      if depth = site.depth then some ("decl:" ++ site.location.text)
      else some ("decl:" ++ site.location.text ++
        " depth_diff:" ++ toString ((depth.toNat : Int) - (site.depth.toNat : Int)))
  | .call _ _ (some (.ok site)) _ => some ("decl:" ++ site.location.text)
  | .breakLoop _ (some (.ok loop)) => some ("loop:" ++ loop.text)
  | .varDecl heading _ | .parameter heading | .forLoop _ (.bound heading _) _ _ =>
      if heading.escapes then some "e" else none
  | .funDecl heading (some loweredName) _ _ =>
      if loweredName.text = heading.name then none else loweredName.text.toOption
  | _ => none

/-- The sites of a use are told apart by the difference of two depths, which is exact. -/
theorem Site.textFrom_eq (depth : UInt32) (site : Site) :
    site.textFrom depth =
      if depth = site.depth then "decl:" ++ site.location.text
      else "decl:" ++ site.location.text ++
        " depth_diff:" ++ toString ((depth.toNat : Int) - (site.depth.toNat : Int)) := by
  have zero : (depth.toNat : Int) - (site.depth.toNat : Int) = 0 ↔ depth = site.depth := by
    rw [← UInt32.toNat_inj]
    omega
  simp only [Site.textFrom, zero, Site.text]

theorem Layer.comment?_eq_diagnostic? {layer : Layer Child} (named : layer.isWellNamed)
    (faithful : layer.IsFaithful) : layer.comment? = layer.diagnostic? := by
  have captured (heading : Heading) : heading.captureNote.bind Except.toOption =
      if heading.escapes then some "e" else none := by
    unfold Heading.captureNote
    split <;> rfl
  cases layer with
  | identifier location name site depth =>
      rcases site with _ | _ | site
      · rfl
      · rfl
      · change some (site.textFrom depth) = _
        rw [Site.textFrom_eq, diagnostic?]
        split <;> rfl
  | call location function site arguments => rcases site with _ | _ | site <;> rfl
  | breakLoop location target => rcases target with _ | _ | loop <;> rfl
  | forLoop location start high body =>
      cases start with
      | bound heading low => exact captured heading
      | lost fault | missing => rfl
  | varDecl heading initializer => exact captured heading
  | parameter heading => exact captured heading
  | funDecl heading loweredName parameters body =>
      cases loweredName with
      | none => rfl
      | some loweredName =>
          obtain ⟨text, isText, _⟩ := exists_identifier named List.mem_cons_self
          have isOwn : loweredName.isOwn = decide (loweredName.text = heading.name) := by
            rw [isText]
            exact faithful text isText
          change loweredName.note.bind Except.toOption = _
          rw [LoweredName.note, isOwn, diagnostic?]
          by_cases same : loweredName.text = heading.name <;> simp [same]
  | _ => rfl

namespace Arena

variable {arena : Arena} {root : NodeId}

/-- What drafting writes in comments, in document order. -/
theorem comments_unfoldWithin {length : Nat}
    (complete : ((arena.unfoldWithin length root).passage true).reason? = none) :
    ((arena.unfoldWithin length root).passage true).comments =
      (arena.preorderWithin length root).filterMap (fun node => (arena.layer node).comment?) := by
  induction length generalizing root with
  | zero => cases complete
  | succ length ih =>
      rw [unfoldWithin, Tree.passage_node, Layer.map_map] at complete ⊢
      have noted := Layer.comments_passage (Option.map_eq_none_iff.mp complete)
      have here := Layer.reason?_of_unfaulted (complete ▸ unfaulted_none)
      rw [complete, eq_comm, Option.or_eq_none_iff, List.findSome?_eq_none_iff] at here
      rw [Layer.children_map] at here noted
      rw [noted, Layer.comment?_map, preorderWithin, List.filterMap_cons, List.filterMap_flatMap,
        List.flatMap_map]
      have below : ∀ child ∈ (arena.layer root).children,
          ((arena.unfoldWithin length child).passage true).comments =
            (arena.preorderWithin length child).filterMap
              (fun node => (arena.layer node).comment?) :=
        fun child owned => ih (here.2 _ (List.mem_map_of_mem owned))
      rw [List.flatMap_congr below]
      cases (arena.layer root).comment? <;> rfl

private theorem harmless_unfold (acyclic : arena.Acyclic root)
    (wellNamed : arena.Throughout (fun layer => layer.isWellNamed) root)
    (contained : arena.Throughout (fun layer => layer.isContained) root) :
    (arena.unfold root).Throughout (fun layer => layer.isWellNamed ∧ layer.isContained) := by
  have both : arena.Throughout (fun layer => layer.isWellNamed ∧ layer.isContained) root :=
    fun node reached => ⟨wellNamed node reached, contained node reached⟩
  refine throughout_unfold ?_ acyclic both
  intro layer change holds
  rw [Layer.isWellNamed_map, Layer.isContained_map]
  exact holds

/-- The comments of a verbose text are the diagnostics of the nodes in document order. -/
theorem commentsIn_render (names : arena.names.Interned) (acyclic : arena.Acyclic root)
    (intact : arena.Throughout (fun layer => layer.isIntact) root)
    (sound : arena.Throughout (fun layer => layer.violation? = none) root)
    (wellNamed : arena.Throughout (fun layer => layer.isWellNamed) root)
    (contained : arena.Throughout (fun layer => layer.isContained) root) (indentSize : UInt64) :
    arena.render ⟨indentSize, true⟩ root = .error (.faulted .arithmeticOverflow) ∨
    ∃ text, arena.render ⟨indentSize, true⟩ root = .ok text ∧
      commentsIn text =
        (arena.preorder root).filterMap (fun node => (arena.layer node).diagnostic?) := by
  by_cases narrow :
      arena.render ⟨indentSize, true⟩ root = .error (.faulted .arithmeticOverflow)
  · exact .inl narrow
  · have readable : arena.Throughout (fun layer => layer.isReadable true) root := intact
    obtain ⟨text, isText⟩ := exists_render_of_sound acyclic readable sound narrow
    obtain ⟨complete, rfl⟩ := spell_of_render rfl isText
    refine .inr ⟨_, isText, ?_⟩
    have harmless := harmless_unfold acyclic wellNamed contained
    rw [commentsIn_spell (Tree.isUnmarked_of_mem_passage true harmless)]
    have told : ((arena.unfold root).passage true).comments =
        (arena.preorder root).filterMap (fun node => (arena.layer node).comment?) :=
      comments_unfoldWithin (Option.map_eq_none_iff.mpr complete)
    rw [told]
    apply List.filterMap_congr
    intro node member
    have reached := (mem_preorder acyclic).mp member
    exact Layer.comment?_eq_diagnostic? (wellNamed node reached)
      (arena.isFaithful_layer names.faithful node)

end Arena

/-- A captured variable that is used in a call and in both bounds of a loop with a captured
variable of its own, each time by the one stored use, and a function with a lowered name. -/
def diagnosedProgram : Arena where
  exprs := #[
    ⟨.int 8, ⟨1, 1⟩⟩,
    ⟨.identifier ⟨1⟩ (some ⟨0⟩) 0, ⟨1, 2⟩⟩,
    ⟨.breakLoop (some ⟨3⟩), ⟨1, 3⟩⟩,
    ⟨.forLoop ⟨1⟩ ⟨1⟩ ⟨2⟩, ⟨1, 4⟩⟩,
    ⟨.call ⟨3⟩ ⟨0, 1⟩ (some ⟨2⟩), ⟨1, 5⟩⟩,
    ⟨.letIn ⟨1, 2⟩ ⟨1, 2⟩, ⟨1, 6⟩⟩]
  exprLists := #[⟨1⟩, ⟨3⟩, ⟨4⟩]
  decls := #[
    ⟨⟨1⟩, ⟨2, 1⟩, 1, some ⟨6⟩, .int, true, .value (some ⟨0⟩)⟩,
    ⟨⟨2⟩, ⟨2, 2⟩, 0, none, .int, true, .value (some ⟨1⟩)⟩,
    ⟨⟨3⟩, ⟨2, 3⟩, 0, none, .undefined, false, .function ⟨0, 1⟩ ⟨0⟩ (some ⟨4⟩)⟩,
    ⟨⟨5⟩, ⟨2, 4⟩, 1, some ⟨6⟩, .undefined, false, .value none⟩]
  declLists := #[⟨3⟩, ⟨0⟩, ⟨2⟩]
  names := ⟨[("int", ⟨6⟩), ("n", ⟨5⟩), ("f_1", ⟨4⟩), ("f", ⟨3⟩), ("i", ⟨2⟩), ("x", ⟨1⟩), ("", ⟨0⟩)],
    #["", "x", "i", "f", "f_1", "n", "int"]⟩

theorem commentsIn_render_diagnosedProgram :
    ∃ text, diagnosedProgram.render Style.commented (.expr ⟨5⟩) = .ok text ∧
      commentsIn text = ["e", "f_1", "e", "decl:2:1 depth_diff:-1", "decl:2:1 depth_diff:-1",
        "loop:1:4", "decl:2:3", "decl:2:1 depth_diff:-1"] := by
  have names : diagnosedProgram.names.Interned :=
    .intern (.intern (.intern (.intern (.intern (.intern .initial "x" rfl) "i" rfl) "f" rfl)
      "f_1" rfl) "n" rfl) "int" rfl
  have within : diagnosedProgram.Within 11 (.expr ⟨5⟩) := by decide
  have sound : diagnosedProgram.Throughout (fun layer => layer.violation?.isNone) (.expr ⟨5⟩) :=
    Arena.throughout_of_checkWithin (by decide : diagnosedProgram.checkWithin _ 11 _)
  rcases Arena.commentsIn_render names within.acyclic
    (Arena.throughout_of_checkWithin (by decide : diagnosedProgram.checkWithin _ 11 _))
    (fun node reached => Option.isNone_iff_eq_none.mp (sound node reached))
    (Arena.throughout_of_checkWithin (by decide : diagnosedProgram.checkWithin _ 11 _))
    (Arena.throughout_of_checkWithin (by decide : diagnosedProgram.checkWithin _ 11 _)) 2 with
    wide | ⟨text, rendered, told⟩
  · exact absurd wide (by decide +kernel)
  · refine ⟨text, rendered, told.trans ?_⟩
    decide +kernel

end TigerTree
