import TigerTree.Proofs.Reading.Literals
import TigerTree.Proofs.Rendering.Completion
import TigerTree.Proofs.Rendering.Position

/-! The lines of a text. Where printed names are neither empty nor have white space in them, a line
ends only where something stands on it, something other than a blank stands behind the indentation
of every line, and no line is broken inside of a name, a literal or a comment. -/

set_option autoImplicit false

namespace TigerTree

variable {Child Other : Type}

def isSolid (text : String) : Bool :=
  !text.toList.isEmpty && text.toList.all (fun char => !char.isWhitespace)

def isInk (char : Char) : Bool := char != ' ' && char != '\n'

theorem isInk_of_not_isWhitespace {char : Char} (solid : char.isWhitespace = false) :
    isInk char := by
  simp only [isInk, Bool.and_eq_true, bne_iff_ne]
  constructor
  · rintro rfl
    cases solid
  · rintro rfl
    cases solid

theorem isInk_of_mem_solid {text : String} (solid : isSolid text) {char : Char}
    (member : char ∈ text.toList) : isInk char := by
  rw [isSolid, Bool.and_eq_true, List.all_eq_true] at solid
  exact isInk_of_not_isWhitespace ((Bool.not_eq_true' _).mp (solid.2 char member))

theorem isSolid_of_isIdentifier {text : String} (identifier : isIdentifier text) :
    isSolid text := by
  have inked : ∀ char ∈ text.toList, char.isWhitespace = false := by
    intro char member
    have isWord := isWordChar_of_mem identifier member
    by_contra spaced
    simp only [Char.isWhitespace, Bool.not_eq_false, Bool.or_eq_true, decide_eq_true_eq] at spaced
    rcases spaced with ((rfl | rfl) | rfl) | rfl
    all_goals exact absurd isWord (by decide)
  unfold isIdentifier at identifier
  split at identifier
  · cases identifier
  · rename_i first rest spelled
    rw [isSolid, Bool.and_eq_true, List.all_eq_true]
    constructor
    · rw [spelled]
      rfl
    · intro char member
      rw [inked char member]
      rfl

def Layer.loweredName? : Layer Child → Option (Except Fault String)
  | .funDecl _ loweredName _ _ => loweredName.map LoweredName.text
  | _ => none

/-- The names that a rendering may print; comments tell lowered names as well. -/
def Layer.printedNames (verbose : Bool) (layer : Layer Child) : List (Except Fault String) :=
  layer.names ++ if verbose then layer.loweredName?.toList else []

def Layer.isSolid (verbose : Bool) (layer : Layer Child) : Bool :=
  (layer.printedNames verbose).all (fun name => name.toOption.all TigerTree.isSolid)

theorem Layer.isSolid_map (verbose : Bool) (change : Child → Other) (layer : Layer Child) :
    (layer.map change).isSolid verbose = layer.isSolid verbose := by
  have sameLowered : (layer.map change).loweredName? = layer.loweredName? := by
    cases layer <;> rfl
  simp only [isSolid, printedNames, names_map, sameLowered]

theorem Layer.isSolid_of_mem_names {verbose : Bool} {layer : Layer Child}
    (solid : layer.isSolid verbose) {spelling : String} (member : .ok spelling ∈ layer.names) :
    TigerTree.isSolid spelling :=
  List.all_eq_true.mp solid _ (List.mem_append_left _ member)

theorem Layer.isSolid_of_isWellNamed {layer : Layer Child} (wellNamed : layer.isWellNamed) :
    layer.isSolid false := by
  rw [isSolid, List.all_eq_true]
  intro name member
  rw [printedNames, if_neg Bool.false_ne_true, List.append_nil] at member
  obtain ⟨spelling, rfl, identifier⟩ := exists_identifier wellNamed member
  exact isSolid_of_isIdentifier identifier

theorem Arena.solid_unfold {arena : Arena} {verbose : Bool} {root : NodeId}
    (acyclic : arena.Acyclic root)
    (solid : arena.Throughout (fun layer => layer.isSolid verbose) root) :
    (arena.unfold root).Throughout (fun layer => layer.isSolid verbose) := by
  refine throughout_unfold ?_ acyclic solid
  intro layer change holds
  rw [Layer.isSolid_map]
  exact holds

/-! ### What pieces end in -/

inductive Ending where
  | indentation
  | blank
  | ink
  deriving DecidableEq

namespace Piece

def ending : Piece → Ending
  | .text words => if words.toList.getLast?.any isInk then .ink else .blank
  | .literal _ | .comment _ => .ink
  | .line _ => .indentation

/-- The piece may stand behind a text that ends so: neither a blank nor a line break behind an
indentation, no line break behind a blank. -/
def follows (ending : Ending) : Piece → Bool
  | .text words => ending ≠ .indentation ∨ words.toList.head?.any isInk
  | .literal _ | .comment _ => true
  | .line _ => ending = .ink

def isUnbroken : Piece → Bool
  | .text words | .comment words => '\n' ∉ words.toList
  | .literal _ | .line _ => true

end Piece

/-- The pieces may stand behind a text that ends so, each behind the one before it, and end in
ink. -/
def Tidy : Ending → List Piece → Prop
  | ending, [] => ending = .ink
  | ending, piece :: rest => piece.isUnbroken ∧ piece.follows ending ∧ Tidy piece.ending rest

namespace Item

def ending : Item Child → Ending
  | .text words => (Piece.text words).ending
  | .line depth => (Piece.line depth).ending
  | _ => .ink

def follows (ending : Ending) : Item Child → Bool
  | .text words => (Piece.text words).follows ending
  | .line depth => (Piece.line depth).follows ending
  | _ => true

/-- The items may stand behind a text that ends so, whatever stands for names, literals and
children. A diagnostic is not seen here. -/
def tidy : Ending → List (Item Child) → Bool
  | ending, [] => ending = .ink
  | ending, .note _ :: rest => tidy ending rest
  | ending, item :: rest => item.follows ending && tidy item.ending rest

theorem tidy_cons {ending : Ending} {item : Item Child} {rest : List (Item Child)}
    (written : ∀ words, item ≠ .note words) :
    tidy ending (item :: rest) = (item.follows ending && tidy item.ending rest) := by
  cases item with
  | note words => exact absurd rfl (written words)
  | _ => rfl

theorem tidy_append {ending : Ending} {first second : List (Item Child)}
    (tidied : tidy ending first) (tidiedToo : tidy .ink second) :
    tidy ending (first ++ second) := by
  induction first generalizing ending with
  | nil =>
      have isInk : ending = .ink := of_decide_eq_true tidied
      rw [isInk]
      exact tidiedToo
  | cons item rest ih =>
      cases item with
      | note words => exact ih tidied
      | _ =>
          rw [List.cons_append]
          rw [tidy_cons (by simp), Bool.and_eq_true] at tidied ⊢
          exact ⟨tidied.1, ih tidied.2⟩

theorem tidy_flatMap {Source : Type} {items : Source → List (Item Child)}
    (tidied : ∀ source, tidy .ink (items source)) (sources : List Source) :
    tidy .ink (sources.flatMap items) := by
  induction sources with
  | nil => rfl
  | cons source rest ih =>
      rw [List.flatMap_cons]
      exact tidy_append (tidied source) ih

private theorem tidy_lines (first : Child) (rest : List Child) :
    tidy .ink (lines (first :: rest)) := by
  have others : tidy .ink (rest.flatMap (fun next => [.text ";", .line 1, .child 1 next])) :=
    tidy_flatMap (fun _ => rfl) rest
  exact others

private theorem tidy_listed (children : List Child) :
    tidy .ink (joined [.text ", "] 0 children) := by
  cases children with
  | nil => rfl
  | cons first rest => exact tidy_flatMap (fun _ => rfl) rest

private theorem tidy_blocks (children : List Child) : tidy .ink (children.flatMap block) :=
  tidy_flatMap (fun _ => rfl) children

private theorem tidy_variableType (heading : Heading) :
    tidy .ink (variableType heading : List (Item Child)) := by
  unfold variableType
  cases heading.typeName with
  | some typeName => rfl
  | none => cases heading.type <;> rfl

private theorem tidy_resultType (heading : Heading) :
    tidy .ink (resultType heading : List (Item Child)) := by
  unfold resultType
  cases heading.typeName <;> rfl

end Item

private theorem ink_numeral (number : Int) :
    (toString number).toList.head?.any isInk ∧ (toString number).toList.getLast?.any isInk ∧
      '\n' ∉ (toString number).toList := by
  have inked : ∀ char ∈ (toString number).toList, isInk char := by
    intro char member
    by_cases isSign : char = '-'
    · rw [isSign]
      rfl
    · have digit := isDigit_of_mem_signed member isSign
      simp only [isInk, Bool.and_eq_true, bne_iff_ne]
      constructor
      · rintro rfl
        cases digit
      · rintro rfl
        cases digit
  refine ⟨?_, ?_, ?_⟩
  · rw [List.head?_eq_some_head (signed_ne_nil number)]
    exact inked _ (List.head_mem _)
  · rw [List.getLast?_eq_some_getLast (signed_ne_nil number)]
    exact inked _ (List.getLast_mem _)
  · intro member
    cases inked _ member

open Item in
/-- A node starts in ink, ends in ink, and breaks no line behind a blank. -/
theorem Layer.tidy_sketch (layer : Layer Child) : tidy .indentation layer.sketch := by
  cases layer with
  | int location value =>
      obtain ⟨starts, ends, _⟩ := ink_numeral value.toInt
      have isInk : (Piece.text (toString value.toInt)).ending = .ink := if_pos ends
      have written : tidy .indentation [(.text (toString value.toInt) : Item Child)] := by
        rw [tidy_cons (by simp), Bool.and_eq_true]
        exact ⟨decide_eq_true (.inr starts), decide_eq_true isInk⟩
      exact written
  | binary location operator left right => cases operator <;> rfl
  | sequence location elements =>
      cases elements with
      | nil => rfl
      | cons first rest =>
          have closing : tidy .ink ([.line 0, .text ")"] : List (Item Child)) := rfl
          have inside : tidy .ink (lines (first :: rest) ++ [.line 0, .text ")"]) :=
            tidy_append (tidy_lines first rest) closing
          exact inside
  | letIn location decls body =>
      cases body with
      | nil => rfl
      | cons first rest =>
          have closing : tidy .ink ([.line 0, .text "end"] : List (Item Child)) := rfl
          have inBody : tidy .ink
              ([.line 0, .text "in"] ++ (lines (first :: rest) ++ [.line 0, .text "end"])) :=
            tidy_append rfl (tidy_append (tidy_lines first rest) closing)
          have inside : tidy .ink (decls.flatMap block ++ _) :=
            tidy_append (tidy_blocks decls) inBody
          exact inside
  | call location function site arguments =>
      have closing : tidy .ink ([.text ")"] : List (Item Child)) := rfl
      have inside : tidy .ink (joined [.text ", "] 0 arguments ++ [.text ")"]) :=
        tidy_append (tidy_listed arguments) closing
      exact inside
  | forLoop location start high body => cases start <;> rfl
  | varDecl heading initializer =>
      have closing : tidy .ink ([.text " := ", .child 0 initializer] : List (Item Child)) := rfl
      have inside : tidy .ink (variableType heading ++ [.text " := ", .child 0 initializer]) :=
        tidy_append (tidy_variableType heading) closing
      exact inside
  | parameter heading =>
      have inside : tidy .ink (variableType heading : List (Item Child)) :=
        tidy_variableType heading
      exact inside
  | funDecl heading loweredName parameters body =>
      cases parameters with
      | error fault => rfl
      | ok parameters =>
          have closing : tidy .ink (.text " =" :: block body) := rfl
          have behind : tidy .ink
              (.text ")" :: (resultType heading ++ .text " =" :: block body)) :=
            tidy_append (tidy_resultType heading) closing
          have inside : tidy .ink (joined [.text ", "] 0 parameters ++ _) :=
            tidy_append (tidy_listed parameters) behind
          exact inside
  | _ => rfl

/-! ### Tidy trees -/

theorem isUnbroken_of_mem_fragments {words : String} (member : words ∈ fragments) :
    (Piece.text words).isUnbroken := by
  have unbroken : ∀ words ∈ fragments, '\n' ∉ words.toList := by decide
  exact decide_eq_true (unbroken words member)

private theorem newline_notMem_of_solid {text : String} (solid : isSolid text) :
    '\n' ∉ text.toList := by
  intro member
  cases isInk_of_mem_solid solid member

private theorem solid_piece {spelling : String} (solid : isSolid spelling) (ending : Ending) :
    (Piece.text spelling).isUnbroken ∧ (Piece.text spelling).follows ending ∧
      (Piece.text spelling).ending = .ink := by
  have inked : ∀ char ∈ spelling.toList, isInk char := fun char => isInk_of_mem_solid solid
  have notEmpty : spelling.toList ≠ [] := by
    rw [isSolid, Bool.and_eq_true] at solid
    intro empty
    rw [empty] at solid
    cases solid.1
  have starts : spelling.toList.head?.any isInk := by
    rw [List.head?_eq_some_head notEmpty]
    exact inked _ (List.head_mem notEmpty)
  have ends : spelling.toList.getLast?.any isInk := by
    rw [List.getLast?_eq_some_getLast notEmpty]
    exact inked _ (List.getLast_mem notEmpty)
  refine ⟨decide_eq_true (newline_notMem_of_solid solid), ?_, ?_⟩
  · simp [Piece.follows, starts]
  · simp [Piece.ending, ends]

theorem Layer.newline_notMem_note {layer : Layer Child} (solid : layer.isSolid true)
    {words : String} (noted : layer.note = some (.ok words)) : '\n' ∉ words.toList := by
  rcases layer.note_cases noted with ⟨heading, loweredName, parameters, body, rfl, isText⟩ | plain
  · apply newline_notMem_of_solid
    have lowered := List.all_eq_true.mp solid (.ok words) (by
      simp [printedNames, loweredName?, isText])
    exact lowered
  · intro member
    exact absurd (List.all_eq_true.mp plain _ member) (by decide)

theorem Piece.isUnbroken_raise (levels : Nat) (piece : Piece) :
    (piece.raise levels).isUnbroken = piece.isUnbroken := by
  cases piece <;> rfl

theorem Piece.follows_raise (levels : Nat) (ending : Ending) (piece : Piece) :
    (piece.raise levels).follows ending = piece.follows ending := by
  cases piece <;> rfl

theorem Piece.ending_raise (levels : Nat) (piece : Piece) :
    (piece.raise levels).ending = piece.ending := by
  cases piece <;> rfl

namespace Tidy

variable {ending : Ending}

theorem raise {pieces : List Piece} (tidy : Tidy ending pieces) (levels : Nat) :
    Tidy ending (pieces.map (Piece.raise levels)) := by
  induction pieces generalizing ending with
  | nil => exact tidy
  | cons piece rest ih =>
      obtain ⟨unbroken, follows, later⟩ := tidy
      refine ⟨?_, ?_, ?_⟩
      · rw [Piece.isUnbroken_raise]
        exact unbroken
      · rw [Piece.follows_raise]
        exact follows
      · rw [Piece.ending_raise]
        exact ih later

theorem append {first second : List Piece} (tidy : Tidy ending first) (tidyToo : Tidy .ink second) :
    Tidy ending (first ++ second) := by
  induction first generalizing ending with
  | nil =>
      have isInk : ending = .ink := tidy
      rw [isInk]
      exact tidyToo
  | cons piece rest ih => exact ⟨tidy.1, tidy.2.1, ih tidy.2.2⟩

/-- Ink is followed by anything. -/
theorem ink {pieces : List Piece} (tidy : Tidy ending pieces) : Tidy .ink pieces := by
  cases pieces with
  | nil => rfl
  | cons piece rest =>
      refine ⟨tidy.1, ?_, tidy.2.2⟩
      cases piece <;> simp [Piece.follows]

/-- What may stand at the start of a line may stand anywhere else, unless it starts with a line
break. -/
theorem of_indentation {pieces : List Piece} (tidy : Tidy .indentation pieces) (ending : Ending) :
    Tidy ending pieces := by
  cases pieces with
  | nil => cases tidy
  | cons piece rest =>
      refine ⟨tidy.1, ?_, tidy.2.2⟩
      have follows := tidy.2.1
      cases piece with
      | text words => simp_all [Piece.follows]
      | line level => cases follows
      | literal contents => rfl
      | comment words => rfl

end Tidy

section

variable {verbose : Bool}

private theorem tidy_pieces {layer : Layer Tree} (solid : layer.isSolid verbose)
    (below : ∀ child ∈ layer.children, child.Completes verbose →
      Tidy .indentation (child.passage verbose).pieces)
    {items : List (Item Tree)} (admitted : ∀ item ∈ items, layer.Admits item)
    (completes : ∀ item ∈ items, (item.output verbose).stop = none) {ending : Ending}
    (tidied : Item.tidy ending items) : Tidy ending (Item.pieces verbose items) := by
  induction items generalizing ending with
  | nil =>
      have isInk : ending = .ink := of_decide_eq_true tidied
      exact isInk
  | cons item rest ih =>
      have later := fun {ending} => @ih (fun item member => admitted item (.tail _ member))
        (fun item member => completes item (.tail _ member)) ending
      have isAdmitted := admitted item List.mem_cons_self
      have isComplete := completes item List.mem_cons_self
      rw [Item.pieces_cons]
      cases item with
      | note words =>
          have silent := later tidied
          rcases words with _ | _ | words
          · exact silent
          · cases verbose with
            | false => exact silent
            | true => cases isComplete
          · cases verbose with
            | false => exact silent
            | true =>
                have unbroken := layer.newline_notMem_note solid isAdmitted.symm
                exact ⟨decide_eq_true unbroken, rfl, silent.ink⟩
      | text words =>
          rw [Item.tidy_cons (by simp), Bool.and_eq_true] at tidied
          refine ⟨?_, tidied.1, later tidied.2⟩
          rcases isAdmitted with isFragment | ⟨value, rfl⟩
          · exact isUnbroken_of_mem_fragments isFragment
          · exact decide_eq_true (ink_numeral value.toInt).2.2
      | line depth =>
          rw [Item.tidy_cons (by simp), Bool.and_eq_true] at tidied
          exact ⟨rfl, tidied.1, later tidied.2⟩
      | name spelling =>
          rw [Item.tidy_cons (by simp), Bool.and_eq_true] at tidied
          cases spelling with
          | error fault => cases isComplete
          | ok spelling =>
              obtain ⟨unbroken, follows, ends⟩ :=
                solid_piece (layer.isSolid_of_mem_names solid isAdmitted) ending
              refine ⟨unbroken, follows, ?_⟩
              rw [ends]
              exact later tidied.2
      | literal contents =>
          rw [Item.tidy_cons (by simp), Bool.and_eq_true] at tidied
          cases contents with
          | error fault => cases isComplete
          | ok contents => exact ⟨rfl, rfl, later tidied.2⟩
      | child depth inner =>
          rw [Item.tidy_cons (by simp), Bool.and_eq_true] at tidied
          have innerTidy := below inner isAdmitted.2 (Option.map_eq_none_iff.mp isComplete)
          exact ((innerTidy.of_indentation ending).raise depth).append (later tidied.2)
      | stop reason => cases isComplete

theorem Tree.tidy_passage {tree : Tree}
    (solid : tree.Throughout (fun layer => layer.isSolid verbose))
    (completes : tree.Completes verbose) :
    Tidy .indentation (tree.passage verbose).pieces := by
  induction solid with
  | node layer here below ih =>
      rw [pieces_of_completes completes]
      exact tidy_pieces here ih layer.admits_of_mem_sketch (fun item => completes.item)
        layer.tidy_sketch

end

private theorem starts_in_ink_quote (contents : String) :
    (Literal.quote contents).toList.head?.any isInk := by
  rw [Literal.toList_quote]
  rfl

private theorem starts_in_ink_comment (words : String) :
    ("/*" ++ words ++ "*/").toList.head?.any isInk := by
  rw [String.toList_append, String.toList_append]
  rfl

private theorem starts_in_ink_append {words : List Char} (starts : words.head?.any isInk)
    (rest : List Char) : (words ++ rest).head?.any isInk := by
  cases words with
  | nil => cases starts
  | cons char others => exact starts

/-- No content of a line starts with a blank, nor does the opening where nothing stands before it. -/
theorem Tidy.starts_in_ink {ending : Ending} {pieces : List Piece} (tidy : Tidy ending pieces) :
    (ending = .indentation → (Layout.ofPieces pieces).opening.toList.head?.any isInk) ∧
      ∀ line ∈ (Layout.ofPieces pieces).lines, line.content.toList.head?.any isInk := by
  have in_front {words : String} (starts : words.toList.head?.any isInk) (rest : String) :
      (words ++ rest).toList.head?.any isInk := by
    rw [String.toList_append]
    exact starts_in_ink_append starts rest.toList
  induction pieces generalizing ending with
  | nil =>
      have isInk : ending = .ink := tidy
      rw [isInk]
      constructor
      · intro impossible
        cases impossible
      · intro line inside
        cases inside
  | cons piece rest ih =>
      obtain ⟨_, follows, later⟩ := tidy
      have below := ih later
      cases piece with
      | line level =>
          have isInk : ending = .ink := of_decide_eq_true follows
          rw [isInk]
          constructor
          · intro impossible
            cases impossible
          · intro line inside
            rcases List.mem_cons.mp inside with rfl | inRest
            · exact below.1 rfl
            · exact below.2 line inRest
      | text words =>
          refine ⟨?_, below.2⟩
          intro isFirst
          rcases of_decide_eq_true follows with isLater | starts
          · exact absurd isFirst isLater
          · exact in_front starts _
      | literal contents => exact ⟨fun _ => in_front (starts_in_ink_quote contents) _, below.2⟩
      | comment words => exact ⟨fun _ => in_front (starts_in_ink_comment words) _, below.2⟩

/-! ### Indentation -/

def lineAfter (line text : List Char) : List Char :=
  text.foldl (fun line char => if char = '\n' then [] else line ++ [char]) line

/-- The number of blanks that start the line on which the position lies. -/
def indentationAt (text : String) (position : Nat) : Nat :=
  let line := lineAfter [] (text.toList.take position) ++ text.toList.drop position
  (line.takeWhile (· = ' ')).length

example : indentationAt "if\n  a b\nthen" 7 = 2 := by decide

/-- The level of the line on which the pieces end, if they start on a line of the given level. -/
def lineLevel (level : Nat) (pieces : List Piece) : Nat :=
  pieces.foldl (fun level piece => match piece with
    | .line next => next
    | .text _ | .literal _ | .comment _ => level) level

theorem lineAfter_append (line first second : List Char) :
    lineAfter line (first ++ second) = lineAfter (lineAfter line first) second :=
  List.foldl_append

theorem lineAfter_of_not_mem {words : List Char} (unbroken : '\n' ∉ words) (line : List Char) :
    lineAfter line words = line ++ words := by
  induction words generalizing line with
  | nil => exact (List.append_nil line).symm
  | cons char words ih =>
      rw [List.mem_cons, not_or] at unbroken
      change lineAfter (if char = '\n' then [] else line ++ [char]) words = _
      rw [if_neg (Ne.symm unbroken.1), ih unbroken.2, List.append_assoc]
      rfl

theorem lineLevel_append (level : Nat) (first second : List Piece) :
    lineLevel level (first ++ second) = lineLevel (lineLevel level first) second :=
  List.foldl_append

theorem newline_notMem_quote (contents : String) :
    '\n' ∉ (Literal.quote contents).toList := by
  simp only [Literal.quote, String.toList_append, List.mem_append, not_or]
  refine ⟨⟨by decide, ?_⟩, by decide⟩
  intro member
  exact absurd (Literal.not_mem_controls_of_mem_escape member) (by decide)

theorem newline_notMem_comment {words : String} (unbroken : '\n' ∉ words.toList) :
    '\n' ∉ ("/*" ++ words ++ "*/").toList := by
  simp only [String.toList_append, List.mem_append, not_or]
  exact ⟨⟨by decide, unbroken⟩, by decide⟩

section

variable {indentSize : UInt64} {ending : Ending} {before after : List Piece} {level : Nat}

/-- On a line that starts with the given indentation stands the given text; nothing may stand there
yet only if the text ends in that indentation. -/
private def OnLine (ending : Ending) (standing : List Char) : Prop :=
  standing.head?.any isInk ∨ standing = [] ∧ ending = .indentation

private theorem OnLine.go_on {standing : List Char} (onLine : OnLine ending standing)
    {words : List Char} (starts : ending = .indentation → words.head?.any isInk) :
    (standing ++ words).head?.any isInk := by
  rcases onLine with inked | ⟨rfl, isFirst⟩
  · exact starts_in_ink_append inked words
  · exact starts isFirst

private theorem lineAfter_spell (tidy : Tidy ending (before ++ after)) {standing : List Char}
    (onLine : OnLine ending standing) :
    ∃ later laterEnding,
      lineAfter (List.replicate (level * indentSize.toNat) ' ' ++ standing)
          (spell indentSize 0 before) =
        List.replicate (lineLevel level before * indentSize.toNat) ' ' ++ later ∧
      Tidy laterEnding after ∧ OnLine laterEnding later := by
  induction before generalizing ending level standing with
  | nil => exact ⟨standing, ending, rfl, tidy, onLine⟩
  | cons piece rest ih =>
      obtain ⟨unbroken, follows, goesOn⟩ := tidy
      rw [spell_cons, lineAfter_append]
      have unbroken_goes_on {words : List Char} (noBreak : '\n' ∉ words)
          (starts : ending = .indentation → words.head?.any isInk) :
          ∃ later laterEnding,
            lineAfter (lineAfter (List.replicate (level * indentSize.toNat) ' ' ++ standing) words)
                (spell indentSize 0 rest) =
              List.replicate (lineLevel level rest * indentSize.toNat) ' ' ++ later ∧
            Tidy laterEnding after ∧ OnLine laterEnding later := by
        rw [lineAfter_of_not_mem noBreak, List.append_assoc]
        exact ih goesOn (.inl (onLine.go_on starts))
      cases piece with
      | text words =>
          apply unbroken_goes_on (of_decide_eq_true unbroken)
          intro isFirst
          rcases of_decide_eq_true follows with isLater | starts
          · exact absurd isFirst isLater
          · exact starts
      | literal contents =>
          apply unbroken_goes_on (newline_notMem_quote contents)
          intro _
          exact starts_in_ink_quote contents
      | comment words =>
          apply unbroken_goes_on (newline_notMem_comment (of_decide_eq_true unbroken))
          intro _
          exact starts_in_ink_comment words
      | line next =>
          have broken : lineAfter (List.replicate (level * indentSize.toNat) ' ' ++ standing)
              ((Piece.line next).chars indentSize 0) =
                List.replicate (next * indentSize.toNat) ' ' ++ [] := by
            rw [Piece.chars, Nat.zero_add, List.append_nil]
            exact lineAfter_of_not_mem (by simp) []
          rw [broken]
          exact ih goesOn (.inr ⟨rfl, rfl⟩)

private theorem takeWhile_blanks (count : Nat) {rest : List Char} (inked : rest.head?.any isInk) :
    ((List.replicate count ' ' ++ rest).takeWhile (· = ' ')).length = count := by
  induction count with
  | zero =>
      cases rest with
      | nil => cases inked
      | cons char rest =>
          have notBlank : char ≠ ' ' := by
            rintro rfl
            cases inked
          simp [notBlank]
  | succ count ih => simpa [List.replicate_succ] using ih

private theorem starts_in_ink_spell {pieces : List Piece} (tidy : Tidy .indentation pieces) :
    (spell indentSize 0 pieces).head?.any isInk := by
  cases pieces with
  | nil => cases tidy
  | cons piece rest =>
      have starts : (piece.chars indentSize 0).head?.any isInk := by
        cases piece with
        | text words => exact (of_decide_eq_true tidy.2.1).resolve_left (fun isLater => isLater rfl)
        | literal contents => exact starts_in_ink_quote contents
        | comment words => exact starts_in_ink_comment words
        | line level => cases tidy.2.1
      rw [spell_cons]
      exact starts_in_ink_append starts _

/-- Every position behind whole pieces lies on a line that is indented by its level. -/
theorem indentationAt_spell (tidy : Tidy .indentation (before ++ after)) :
    indentationAt (String.ofList (spell indentSize 0 (before ++ after)))
        (spell indentSize 0 before).length =
      lineLevel 0 before * indentSize.toNat := by
  have started : ∃ later laterEnding,
      lineAfter (List.replicate (0 * indentSize.toNat) ' ' ++ []) (spell indentSize 0 before) =
        List.replicate (lineLevel 0 before * indentSize.toNat) ' ' ++ later ∧
      Tidy laterEnding after ∧ OnLine laterEnding later :=
    lineAfter_spell tidy (.inr ⟨rfl, rfl⟩)
  obtain ⟨later, laterEnding, isLine, tidyAfter, onLine⟩ := started
  rw [Nat.zero_mul] at isLine
  have isLast : lineAfter [] (spell indentSize 0 before) =
      List.replicate (lineLevel 0 before * indentSize.toNat) ' ' ++ later := isLine
  have inked : (later ++ spell indentSize 0 after).head?.any isInk := by
    apply onLine.go_on
    rintro rfl
    exact starts_in_ink_spell tidyAfter
  rw [indentationAt, String.toList_ofList, spell_append]
  simp only [List.take_left, List.drop_left, isLast, List.append_assoc]
  exact takeWhile_blanks _ inked

end

end TigerTree
