import TigerTree.Proofs.Rendering.Layout
import TigerTree.Proofs.Rendering.Vocabulary

/-! Comments only add to the text. A scan that knows string literals deletes every comment from a
verbose text and finds the plain one; in the plain text it finds nothing to delete. -/

set_option autoImplicit false

namespace TigerTree

inductive Scan where
  | outside
  | literal
  | escaped
  | comment

/-- Copies string literals, and outside them drops what stands from `/*` to the next `*/`. -/
def dropComments : Scan → List Char → List Char
  | _, [] => []
  | .outside, '/' :: '*' :: rest => dropComments .comment rest
  | .outside, '"' :: rest => '"' :: dropComments .literal rest
  | .outside, char :: rest => char :: dropComments .outside rest
  | .literal, '\\' :: rest => '\\' :: dropComments .escaped rest
  | .literal, '"' :: rest => '"' :: dropComments .outside rest
  | .literal, char :: rest => char :: dropComments .literal rest
  | .escaped, char :: rest => char :: dropComments .literal rest
  | .comment, '*' :: '/' :: rest => dropComments .outside rest
  | .comment, _ :: rest => dropComments .comment rest

def withoutComments (text : String) : String :=
  String.ofList (dropComments .outside text.toList)

def closesComment : List Char → Bool
  | '*' :: '/' :: _ => true
  | _ :: rest => closesComment rest
  | [] => false

/-- The lowered name of a function, if there is one, keeps inside its comment. -/
def Layer.isContained {Child : Type} : Layer Child → Bool
  | .funDecl _ (some loweredName) _ _ =>
      loweredName.text.toOption.all (fun symbol => !closesComment symbol.toList)
  | _ => true

example : withoutComments "x/*decl:1:2*/ / \"a/*b*/\\\"\"" = "x / \"a/*b*/\\\"\"" := by decide

theorem Layer.isContained_map {Child Other : Type} (change : Child → Other)
    (layer : Layer Child) : (layer.map change).isContained = layer.isContained := by
  cases layer with
  | funDecl heading loweredName parameters body => cases loweredName <;> rfl
  | _ => rfl

/-! ### Scanning pieces -/

/-- A scan outside of literals and comments copies the text and is outside again. -/
def Passes (words : List Char) : Prop :=
  ∀ rest, dropComments .outside (words ++ rest) = words ++ dropComments .outside rest

theorem dropComments_outside_cons {char : Char} (rest : List Char) (notSlash : char ≠ '/')
    (notQuote : char ≠ '"') :
    dropComments .outside (char :: rest) = char :: dropComments .outside rest := by
  rw [dropComments]
  · intro _ isSlash _
    exact notSlash isSlash
  · exact notQuote

theorem passes_of_not_mem {words : List Char} (noSlash : '/' ∉ words) (noQuote : '"' ∉ words) :
    Passes words := by
  intro rest
  induction words with
  | nil => rfl
  | cons char words ih =>
      rw [List.mem_cons, not_or] at noSlash noQuote
      rw [List.cons_append, List.cons_append,
        dropComments_outside_cons _ (Ne.symm noSlash.1) (Ne.symm noQuote.1),
        ih noSlash.2 noQuote.2]

/-- In front of words that do not close a comment none is closed either, and the end of the
comment cannot straddle the end of the words. -/
theorem closesComment_cons {char : Char} {words : List Char}
    (contained : closesComment (char :: words) = false) :
    closesComment words = false ∧
      ∀ rest tail, char = '*' → words ++ ('*' :: '/' :: rest) ≠ '/' :: tail := by
  constructor
  · rw [closesComment] at contained
    · exact contained
    · intro tail isStar isSlash
      rw [isStar, isSlash] at contained
      cases contained
  · intro rest tail isStar same
    cases words with
    | nil => cases same
    | cons next words =>
        cases same
        rw [isStar] at contained
        cases contained

theorem dropComments_comment {words : List Char} (contained : closesComment words = false)
    (rest : List Char) :
    dropComments .comment (words ++ ('*' :: '/' :: rest)) = dropComments .outside rest := by
  induction words with
  | nil => rfl
  | cons char words ih =>
      obtain ⟨later, goesOn⟩ := closesComment_cons contained
      rw [List.cons_append, dropComments]
      · exact ih later
      · exact goesOn rest

theorem dropComments_escapeChar (char : Char) (rest : List Char) :
    dropComments .literal (Literal.escapeChar char ++ rest) =
      Literal.escapeChar char ++ dropComments .literal rest := by
  unfold Literal.escapeChar
  split
  case h_10 notQuote notBackslash _ _ _ _ _ _ _ =>
    rw [List.singleton_append, dropComments]
    · rfl
    · exact notBackslash
    · exact notQuote
  all_goals rfl

theorem dropComments_literal (contents rest : List Char) :
    dropComments .literal (contents.flatMap Literal.escapeChar ++ ('"' :: rest)) =
      contents.flatMap Literal.escapeChar ++ ('"' :: dropComments .outside rest) := by
  induction contents with
  | nil => rfl
  | cons char contents ih =>
      rw [List.flatMap_cons, List.append_assoc, dropComments_escapeChar, ih, List.append_assoc]

def Piece.isComment : Piece → Bool
  | .comment _ => true
  | _ => false

def Piece.Passes : Piece → Prop
  | .text words => TigerTree.Passes words.toList
  | .comment words => closesComment words.toList = false
  | .literal _ | .line _ => True

def Passage.uncommented (passage : Passage) : Passage :=
  ⟨passage.pieces.filter (fun piece => !piece.isComment), passage.stop⟩

variable {indentSize : UInt64} {base : Nat}

/-- A scan outside of literals and comments is outside again after the characters of the piece, and
has dropped them just if it is a comment. -/
def Piece.Scans (indentSize : UInt64) (base : Nat) (piece : Piece) : Prop :=
  ∀ rest, dropComments .outside (piece.chars indentSize base ++ rest) =
    (if piece.isComment then [] else piece.chars indentSize base) ++ dropComments .outside rest

theorem Piece.scans_comment {words : String}
    (closes : ∀ rest, dropComments .comment (words.toList ++ ('*' :: '/' :: rest)) =
      dropComments .outside rest) : (Piece.comment words).Scans indentSize base := by
  intro rest
  simp only [chars, String.toList_append, List.append_assoc]
  exact closes rest

theorem Piece.scans_literal (contents : String) :
    (Piece.literal contents).Scans indentSize base := by
  intro rest
  have scanned := dropComments_literal contents.toList rest
  simp only [chars, isComment, Literal.toList_quote, List.cons_append, List.append_assoc,
    List.nil_append, Bool.false_eq_true, if_false]
  exact congrArg ('"' :: ·) scanned

theorem Piece.scans_line (level : Nat) : (Piece.line level).Scans indentSize base := by
  refine passes_of_not_mem ?_ ?_
  · simp [chars]
  · simp [chars]

theorem Piece.Passes.scans {piece : Piece} (passes : piece.Passes) :
    piece.Scans indentSize base := by
  cases piece with
  | text words => exact passes
  | comment words => exact scans_comment (dropComments_comment passes)
  | literal contents => exact scans_literal contents
  | line level => exact scans_line level

theorem withoutComments_of_scans {passage : Passage}
    (scans : ∀ piece ∈ passage.pieces, piece.Scans indentSize base) :
    withoutComments (String.ofList (spell indentSize base passage.pieces)) =
      String.ofList (spell indentSize base passage.uncommented.pieces) := by
  have scanned {pieces : List Piece} (scans : ∀ piece ∈ pieces, piece.Scans indentSize base) :
      dropComments .outside (spell indentSize base pieces) =
        spell indentSize base (pieces.filter (fun piece => !piece.isComment)) := by
    induction pieces with
    | nil => rfl
    | cons piece rest ih =>
        rw [spell_cons, scans piece List.mem_cons_self,
          ih (fun later member => scans later (List.mem_cons_of_mem _ member))]
        cases kind : piece.isComment with
        | true => simp [kind]
        | false => simp [kind, spell_cons]
  rw [withoutComments, String.toList_ofList, scanned scans]
  rfl

theorem withoutComments_spell {passage : Passage}
    (passes : ∀ piece ∈ passage.pieces, piece.Passes) :
    withoutComments (String.ofList (spell indentSize base passage.pieces)) =
      String.ofList (spell indentSize base passage.uncommented.pieces) :=
  withoutComments_of_scans (fun piece member => (passes piece member).scans)

theorem closesComment_of_not_mem {words : List Char} (noStar : '*' ∉ words) :
    closesComment words = false := by
  induction words with
  | nil => rfl
  | cons char words ih =>
      rw [List.mem_cons, not_or] at noStar
      rw [closesComment]
      · exact ih noStar.2
      · intro tail isStar
        exact absurd isStar.symm noStar.1

theorem closesComment_of_isNoteChar {words : String} (plain : words.toList.all isNoteChar) :
    closesComment words.toList = false := by
  apply closesComment_of_not_mem
  intro member
  exact absurd (List.all_eq_true.mp plain _ member) (by decide)

/-- The words start no comment and no literal: but for the sign of a division, none has a slash. -/
def IsUnmarked (words : String) : Prop :=
  words = " / " ∨ '/' ∉ words.toList ∧ '"' ∉ words.toList

theorem isUnmarked_of_mem_fragments {words : String} (member : words ∈ fragments) :
    IsUnmarked words := by
  have harmless : ∀ words ∈ fragments,
      words = " / " ∨ '/' ∉ words.toList ∧ '"' ∉ words.toList := by decide
  exact harmless words member

theorem isUnmarked_numeral (number : Int) : IsUnmarked (toString number) := by
  refine .inr ⟨?_, ?_⟩
  · intro member
    exact absurd (isDigit_of_mem_signed member (by decide)) (by decide)
  · intro member
    exact absurd (isDigit_of_mem_signed member (by decide)) (by decide)

theorem isUnmarked_identifier {words : String} (identifier : isIdentifier words) :
    IsUnmarked words := by
  refine .inr ⟨?_, ?_⟩
  · intro member
    exact absurd (isWordChar_of_mem identifier member) (by decide)
  · intro member
    exact absurd (isWordChar_of_mem identifier member) (by decide)

theorem IsUnmarked.passes {words : String} (unmarked : IsUnmarked words) :
    Passes words.toList := by
  rcases unmarked with rfl | ⟨noSlash, noQuote⟩
  · intro rest
    rfl
  · exact passes_of_not_mem noSlash noQuote

/-- No diagnostic ends its comment early. -/
theorem Layer.closesComment_note {Child : Type} {layer : Layer Child} {words : String}
    (contained : layer.isContained) (noted : layer.note = some (.ok words)) :
    closesComment words.toList = false := by
  rcases layer.note_cases noted with ⟨heading, loweredName, parameters, body, rfl, isText⟩ | plain
  · simpa [isContained, isText, Except.toOption] using contained
  · exact closesComment_of_isNoteChar plain

/-- The piece is a literal, a comment that ends where it should, or starts neither. -/
def Piece.IsUnmarked : Piece → Prop
  | .text words => TigerTree.IsUnmarked words
  | .comment words => closesComment words.toList = false
  | .literal _ | .line _ => True

theorem Piece.IsUnmarked.passes {piece : Piece} (unmarked : piece.IsUnmarked) : piece.Passes := by
  cases piece with
  | text words => exact TigerTree.IsUnmarked.passes unmarked
  | comment words => exact unmarked
  | literal _ | line _ => trivial

def Piece.Notes (noted : String → Prop) : Piece → Prop
  | .text words => TigerTree.IsUnmarked words
  | .comment words => noted words
  | .literal _ | .line _ => True

theorem Piece.notes_raise {noted : String → Prop} (levels : Nat) (piece : Piece) :
    (piece.raise levels).Notes noted ↔ piece.Notes noted := by
  cases piece <;> rfl

/-- The comments of a passage are notes of its layers. -/
theorem Tree.notes_of_mem_passage {tree : Tree} {noted : String → Prop} (verbose : Bool)
    (harmless : tree.Throughout (fun layer => layer.isWellNamed ∧
      ∀ words, layer.note = some (.ok words) → noted words)) :
    ∀ piece ∈ (tree.passage verbose).pieces, piece.Notes noted := by
  induction harmless with
  | node layer here below ih =>
      intro piece member
      rw [passage_eq_concat] at member
      obtain ⟨passage, isPassage, member⟩ := Passage.mem_concat member
      obtain ⟨item, isItem, rfl⟩ := List.mem_map.mp isPassage
      have admitted := layer.admits_of_mem_sketch item isItem
      cases item with
      | text words =>
          cases List.mem_singleton.mp member
          rcases admitted with inFragments | ⟨value, rfl⟩
          · exact isUnmarked_of_mem_fragments inFragments
          · exact isUnmarked_numeral value.toInt
      | name spelling =>
          cases spelling with
          | error fault => cases member
          | ok words =>
              cases List.mem_singleton.mp member
              exact isUnmarked_identifier (layer.isIdentifier_of_mem_names here.1 admitted)
      | literal contents =>
          cases contents with
          | error fault => cases member
          | ok contents =>
              cases List.mem_singleton.mp member
              trivial
      | note words =>
          cases verbose with
          | false =>
              rw [Item.map, Item.passage_note_false] at member
              cases member
          | true =>
              rcases words with _ | _ | words
              · cases member
              · cases member
              · cases List.mem_singleton.mp member
                exact here.2 words admitted.symm
      | line levels =>
          cases List.mem_singleton.mp member
          trivial
      | child levels inner =>
          obtain ⟨inside, isInside, rfl⟩ := List.mem_map.mp member
          exact (Piece.notes_raise levels inside).mpr (ih inner admitted.2 inside isInside)
      | stop reason => cases member

theorem Tree.isUnmarked_of_mem_passage {tree : Tree} (verbose : Bool)
    (harmless : tree.Throughout (fun layer => layer.isWellNamed ∧ layer.isContained)) :
    ∀ piece ∈ (tree.passage verbose).pieces, piece.IsUnmarked := by
  intro piece member
  have notes := tree.notes_of_mem_passage verbose
    (harmless.imp (fun layer both => ⟨both.1, fun _ => layer.closesComment_note both.2⟩))
    piece member
  cases piece <;> exact notes

theorem Tree.passes_of_mem_passage {tree : Tree} (verbose : Bool)
    (harmless : tree.Throughout (fun layer => layer.isWellNamed ∧ layer.isContained)) :
    ∀ piece ∈ (tree.passage verbose).pieces, piece.Passes :=
  fun piece member => (tree.isUnmarked_of_mem_passage verbose harmless piece member).passes

theorem Passage.uncommented_append (first second : Passage) :
    (first ++ second).uncommented = first.uncommented ++ second.uncommented := by
  cases stops : first.stop with
  | some stopped =>
      have stopsToo : first.uncommented.stop = some stopped := stops
      rw [append_of_stopped stops, append_of_stopped stopsToo]
  | none =>
      have completeToo : first.uncommented.stop = none := stops
      rw [append_of_complete stops, append_of_complete completeToo]
      simp only [uncommented, List.filter_append]

theorem Passage.uncommented_concat (passages : List Passage) :
    (concat passages).uncommented = concat (passages.map uncommented) := by
  induction passages with
  | nil => rfl
  | cons passage rest ih =>
      rw [concat, uncommented_append, ih]
      rfl

theorem Passage.uncommented_raise (levels : Nat) (passage : Passage) :
    (raise levels passage).uncommented = raise levels passage.uncommented := by
  have sameKind : (fun piece => !piece.isComment) ∘ Piece.raise levels =
      fun piece => !piece.isComment := by
    funext piece
    cases piece <;> rfl
  simp only [uncommented, raise, List.filter_map, sameKind]

/-- Comments apart, a verbose passage is the plain one. -/
theorem Tree.uncommented_passage {tree : Tree}
    (intact : tree.Throughout (fun layer => layer.isIntact)) :
    (tree.passage true).uncommented = tree.passage false := by
  induction intact with
  | node layer here below ih =>
      rw [passage_eq_concat, passage_eq_concat, Passage.uncommented_concat, List.map_map]
      congr 1
      refine List.map_congr_left ?_
      intro item isItem
      have admitted := layer.admits_of_mem_sketch item isItem
      cases item with
      | text words => rfl
      | name spelling => cases spelling <;> rfl
      | literal contents => cases contents <;> rfl
      | note words =>
          cases words with
          | none => rfl
          | some words =>
              have found := layer.isOk_of_note here admitted.symm
              cases words with
              | error fault => cases found
              | ok words => rfl
      | line levels => rfl
      | child levels inner =>
          change (Passage.raise levels (inner.passage true)).uncommented = _
          rw [Passage.uncommented_raise, ih inner admitted.2]
          rfl
      | stop reason => rfl

/-! ### Verbose and plain text -/

theorem Fits.uncommented {indentSize : UInt64} {base : Nat} (pieces : List Piece) :
    Fits indentSize base (pieces.filter (fun piece => !piece.isComment)) ↔
      Fits indentSize base pieces := by
  simp [Fits, Piece.isComment]

/-- Verbose and plain rendering object to the same thing at the same place, or the comments are
all that the verbose text has more. -/
theorem withoutComments_render (arena : Arena) (root : NodeId) (indentSize : UInt64)
    (acyclic : arena.Acyclic root)
    (intact : arena.Throughout (fun layer => layer.isIntact) root)
    (wellNamed : arena.Throughout (fun layer => layer.isWellNamed) root)
    (contained : arena.Throughout (fun layer => layer.isContained) root)
    (narrow : arena.render ⟨indentSize, false⟩ root ≠ .error (.faulted .arithmeticOverflow)) :
    (∃ violation location,
      arena.render ⟨indentSize, true⟩ root = .error (.diagnosed (.violated violation location)) ∧
      arena.render ⟨indentSize, false⟩ root =
        .error (.diagnosed (.violated violation location))) ∨
    (∃ verboseText plainText,
      arena.render ⟨indentSize, true⟩ root = .ok verboseText ∧
      arena.render ⟨indentSize, false⟩ root = .ok plainText ∧
      withoutComments verboseText = plainText ∧ withoutComments plainText = plainText) := by
  have intactTree := Arena.intact_unfold acyclic intact
  have harmless : (arena.unfold root).Throughout
      (fun layer => layer.isWellNamed ∧ layer.isContained) := by
    have both : arena.Throughout (fun layer => layer.isWellNamed ∧ layer.isContained) root :=
      fun node reached => ⟨wellNamed node reached, contained node reached⟩
    refine Arena.throughout_unfold ?_ acyclic both
    intro layer change holds
    rw [Layer.isWellNamed_map, Layer.isContained_map]
    exact holds
  generalize unfolded : arena.unfold root = tree at intactTree harmless
  have bare := Tree.uncommented_passage intactTree
  have fits : Fits indentSize 0 (tree.passage false).pieces := by
    by_contra wide
    exact narrow (render_of_not_fits (by rw [unfolded]) wide)
  have fitsVerbose : Fits indentSize 0 (tree.passage true).pieces := by
    rw [← bare] at fits
    exact (Fits.uncommented _).mp fits
  have verboseText : arena.render ⟨indentSize, true⟩ root = _ :=
    render_of_fits (congrArg _ unfolded) fitsVerbose
  have plainText : arena.render ⟨indentSize, false⟩ root = _ :=
    render_of_fits (congrArg _ unfolded) fits
  cases stops : (tree.passage true).stop with
  | some stopped =>
      obtain ⟨reason, depth⟩ := stopped
      obtain ⟨violation, location, rfl⟩ := Tree.diagnosed_of_intact true intactTree stops
      have stopsPlain : (tree.passage false).stop =
          some (.diagnosed (.violated violation location), depth) := by
        rw [← bare]
        exact stops
      rw [stops] at verboseText
      rw [stopsPlain] at plainText
      exact .inl ⟨violation, location, verboseText, plainText⟩
  | none =>
      have stopsPlain : (tree.passage false).stop = none := by
        rw [← bare]
        exact stops
      rw [stops] at verboseText
      rw [stopsPlain] at plainText
      refine .inr ⟨_, _, verboseText, plainText, ?_, ?_⟩
      · rw [withoutComments_spell (Tree.passes_of_mem_passage true harmless), bare]
      · rw [withoutComments_spell (Tree.passes_of_mem_passage false harmless), ← bare]
        simp only [Passage.uncommented, List.filter_filter, Bool.and_self]

/-- A captured parameter with a resolved use, a function with a lowered name, a division right
after a comment and a string that looks like one. -/
def annotated : Arena where
  exprs := #[
    ⟨.identifier ⟨2⟩ (some ⟨0⟩) 2, ⟨1, 1⟩⟩,
    ⟨.int 8, ⟨1, 2⟩⟩,
    ⟨.call ⟨1⟩ ⟨0, 1⟩ (some ⟨1⟩), ⟨1, 3⟩⟩,
    ⟨.binary .div ⟨2⟩ ⟨1⟩, ⟨1, 4⟩⟩,
    ⟨.string ⟨5⟩, ⟨1, 5⟩⟩,
    ⟨.letIn ⟨1, 1⟩ ⟨1, 2⟩, ⟨1, 6⟩⟩]
  exprLists := #[⟨1⟩, ⟨3⟩, ⟨4⟩]
  decls := #[
    ⟨⟨2⟩, ⟨2, 1⟩, 1, some ⟨3⟩, .undefined, true, .value none⟩,
    ⟨⟨1⟩, ⟨2, 2⟩, 0, none, .undefined, false, .function ⟨0, 1⟩ ⟨0⟩ (some ⟨4⟩)⟩]
  declLists := #[⟨0⟩, ⟨1⟩]
  names := ⟨[], #["", "f", "x", "int", "f_1", "/*\"*/"]⟩

def annotatedText : String :=
  "let\n function f(x: int) =\n  x\nin\n (f(8) / 8);\n \"/*\\\"*/\"\nend"

def annotatedVerboseText : String :=
  "let\n function f/*f_1*/(x/*e*/: int) =\n  x/*decl:2:1 depth_diff:1*/\nin\n " ++
    "(f/*decl:2:2*/(8) / 8);\n \"/*\\\"*/\"\nend"

theorem withoutComments_render_annotated :
    (annotated.render ⟨1, true⟩ (.expr ⟨5⟩)).toOption = some annotatedVerboseText ∧
      (annotated.render ⟨1, false⟩ (.expr ⟨5⟩)).toOption = some annotatedText ∧
      withoutComments annotatedVerboseText = annotatedText ∧
      withoutComments annotatedText = annotatedText := by
  have within : annotated.Within 9 (.expr ⟨5⟩) := by decide
  have verboseText : (annotated.render ⟨1, true⟩ (.expr ⟨5⟩)).toOption =
      some annotatedVerboseText := by decide +kernel
  have plainText : (annotated.render ⟨1, false⟩ (.expr ⟨5⟩)).toOption =
      some annotatedText := by decide +kernel
  refine ⟨verboseText, plainText, ?_⟩
  rcases withoutComments_render annotated (.expr ⟨5⟩) 1 within.acyclic
    (Arena.throughout_of_checkWithin (by decide : annotated.checkWithin _ 9 _))
    (Arena.throughout_of_checkWithin (by decide : annotated.checkWithin _ 9 _))
    (Arena.throughout_of_checkWithin (by decide : annotated.checkWithin _ 9 _))
    (by intro wide; rw [wide] at plainText; cases plainText) with
    ⟨violation, location, _, objected⟩ | ⟨verboseFound, plainFound, isVerbose, isPlain, same⟩
  · rw [objected] at plainText
    cases plainText
  · rw [isVerbose] at verboseText
    rw [isPlain] at plainText
    rw [← Option.some.inj verboseText, ← Option.some.inj plainText]
    exact same

end TigerTree
