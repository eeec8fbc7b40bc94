import TigerTree.Proofs.Reading.Legible
import TigerTree.Proofs.Rendering.Completion

/-! The text of a tree splits into the tokens of the tree. No sketch writes two words side by side,
so every item of it is split by itself. -/

set_option autoImplicit false

namespace TigerTree

variable {Child : Type}

namespace Item

def breaks : Item Child → Bool
  | .text words => words.toList.head?.any (fun char => !isWordChar char)
  | .literal _ | .line _ => true
  | _ => false

def isOpen : Item Child → Bool
  | .text words => words.toList.getLast?.any isWordChar
  | .name _ | .child _ _ => true
  | _ => false

/-- No item that breaks no word follows one that may end in a word, nor the word that may be
pending before all of them. A diagnostic is not seen here. -/
def separated : Bool → List (Item Child) → Bool
  | _, [] => true
  | pending, .note _ :: rest => separated pending rest
  | pending, item :: rest => (!pending || item.breaks) && separated item.isOpen rest

theorem separated_cons {pending : Bool} {item : Item Child} {rest : List (Item Child)}
    (written : ∀ words, item ≠ .note words) :
    separated pending (item :: rest) =
      ((!pending || item.breaks) && separated item.isOpen rest) := by
  cases item with
  | note words => exact absurd rfl (written words)
  | _ => rfl

theorem separated_of_pending {pending : Bool} {items : List (Item Child)}
    (apart : separated true items) : separated pending items := by
  induction items with
  | nil => rfl
  | cons item rest ih =>
      cases item with
      | note words => exact ih apart
      | _ =>
          rw [separated_cons (by simp), Bool.and_eq_true] at apart ⊢
          exact ⟨by simp_all, apart.2⟩

theorem separated_append {pending : Bool} {first second : List (Item Child)}
    (apart : separated pending first) (apartToo : separated true second) :
    separated pending (first ++ second) := by
  induction first generalizing pending with
  | nil => exact separated_of_pending apartToo
  | cons item rest ih =>
      cases item with
      | note words => exact ih apart
      | _ =>
          rw [List.cons_append]
          rw [separated_cons (by simp), Bool.and_eq_true] at apart ⊢
          exact ⟨apart.1, ih apart.2⟩

theorem separated_flatMap {Source : Type} {items : Source → List (Item Child)}
    (apart : ∀ source, separated true (items source)) (sources : List Source) :
    separated true (sources.flatMap items) := by
  induction sources with
  | nil => rfl
  | cons source rest ih =>
      rw [List.flatMap_cons]
      exact separated_append (apart source) ih

private theorem separated_lines (children : List Child) : separated true (lines children) := by
  cases children with
  | nil => rfl
  | cons first rest => exact separated_flatMap (fun _ => rfl) rest

private theorem separated_listed (children : List Child) :
    separated false (joined [.text ", "] 0 children) := by
  cases children with
  | nil => rfl
  | cons first rest => exact separated_flatMap (fun _ => rfl) rest

private theorem separated_blocks (children : List Child) :
    separated true (children.flatMap block) :=
  separated_flatMap (fun _ => rfl) children

private theorem separated_variableType (heading : Heading) :
    separated true (variableType heading : List (Item Child)) := by
  unfold variableType
  cases heading.typeName with
  | some typeName => rfl
  | none => cases heading.type <;> rfl

private theorem separated_resultType (heading : Heading) :
    separated true (resultType heading : List (Item Child)) := by
  unfold resultType
  cases heading.typeName <;> rfl

end Item

open Item in
/-- Every fragment that follows a name or a child starts with a blank or a sign. -/
theorem Layer.separated_sketch (layer : Layer Child) : separated false layer.sketch := by
  cases layer with
  | binary location operator left right => cases operator <;> rfl
  | sequence location elements =>
      cases elements with
      | nil => rfl
      | cons first rest =>
          have closing : separated true ([.line 0, .text ")"] : List (Item Child)) := rfl
          have inside : separated false (lines (first :: rest) ++ [.line 0, .text ")"]) :=
            separated_append (separated_of_pending (separated_lines _)) closing
          exact inside
  | letIn location decls body =>
      cases body with
      | nil => rfl
      | cons first rest =>
          have closing : separated true ([.line 0, .text "end"] : List (Item Child)) := rfl
          have inLines : separated true (lines (first :: rest) ++ [.line 0, .text "end"]) :=
            separated_append (separated_lines _) closing
          have inBody : separated true
              ([.line 0, .text "in"] ++ (lines (first :: rest) ++ [.line 0, .text "end"])) :=
            separated_append rfl inLines
          have inside : separated true (decls.flatMap block ++ _) :=
            separated_append (separated_blocks decls) inBody
          exact inside
  | call location function site arguments =>
      have closing : separated true ([.text ")"] : List (Item Child)) := rfl
      have inside : separated false (joined [.text ", "] 0 arguments ++ [.text ")"]) :=
        separated_append (separated_listed arguments) closing
      exact inside
  | forLoop location start high body => cases start <;> rfl
  | varDecl heading initializer =>
      have closing : separated true ([.text " := ", .child 0 initializer] : List (Item Child)) :=
        rfl
      have inside : separated true
          (variableType heading ++ [.text " := ", .child 0 initializer]) :=
        separated_append (separated_variableType heading) closing
      exact inside
  | parameter heading =>
      have inside : separated true (variableType heading : List (Item Child)) :=
        separated_variableType heading
      exact inside
  | funDecl heading loweredName parameters body =>
      cases parameters with
      | error fault => rfl
      | ok parameters =>
          have closing : separated true (.text " =" :: block body) := rfl
          have inType : separated false (resultType heading ++ .text " =" :: block body) :=
            separated_of_pending (separated_append (separated_resultType heading) closing)
          have behind : separated true
              (.text ")" :: (resultType heading ++ .text " =" :: block body)) := inType
          have inside : separated false (joined [.text ", "] 0 parameters ++ _) :=
            separated_append (separated_listed parameters) behind
          exact inside
  | _ => rfl

/-! ### Splitting a text -/

section

variable {indentSize : UInt64} {base : Nat}

def Item.chars (indentSize : UInt64) (base : Nat) : Item Tree → List Char
  | .text words => words.toList
  | .name (.ok spelling) => spelling.toList
  | .literal (.ok contents) => (Literal.quote contents).toList
  | .line depth => '\n' :: List.replicate ((base + depth) * indentSize.toNat) ' '
  | .child depth inner => spell indentSize (base + depth) (inner.passage false).pieces
  | _ => []

theorem spell_output (item : Item Tree) :
    spell indentSize base (item.output false).pieces = item.chars indentSize base := by
  have single (piece : Piece) : spell indentSize base [piece] = piece.chars indentSize base := by
    rw [spell_cons]
    exact List.append_nil _
  cases item with
  | text words => exact single (.text words)
  | name spelling =>
      cases spelling with
      | error fault => rfl
      | ok spelling => exact single (.text spelling)
  | literal contents =>
      cases contents with
      | error fault => rfl
      | ok contents => exact single (.literal contents)
  | note words => cases words <;> rfl
  | line depth => exact single (.line depth)
  | child depth inner => exact spell_raise depth _
  | stop reason => rfl

private theorem spell_pieces (items : List (Item Tree)) :
    spell indentSize base (Item.pieces false items) =
      items.flatMap (Item.chars indentSize base) := by
  induction items with
  | nil => rfl
  | cons item rest ih =>
      rw [Item.pieces_cons, spell_append, ih, spell_output, List.flatMap_cons]

private theorem lex_fragment {words : String} (member : words ∈ fragments) {rest : List Char}
    (breaks : words.toList.getLast?.any isWordChar → Breaks rest) :
    lex (words.toList ++ rest) = lex words.toList ++ lex rest := by
  have split : ∀ words ∈ fragments,
      (match LexState.between.after words.toList with
        | .between => true
        | .word _ => words.toList.getLast?.any isWordChar
        | _ => false) = true := by decide
  have state := split words member
  cases stands : LexState.between.after words.toList with
  | between => exact lex_append_of_closed stands rest
  | word spelled =>
      rw [stands] at state
      exact lex_append_of_breaks stands (breaks state)
  | literal contents | escaped contents =>
      rw [stands] at state
      cases state

private theorem lex_numeral (number : Int) {rest : List Char} (breaks : Breaks rest) :
    lex ((toString number).toList ++ rest) = lex (toString number).toList ++ lex rest := by
  have alone := lex_number number breaks_nil
  rw [List.append_nil] at alone
  rw [lex_number number breaks, alone]
  cases number <;> rfl

private theorem isDigit_of_isLetter {char : Char} (letter : isLetter char) :
    char.isDigit = false := by
  by_contra digit
  simp only [Bool.not_eq_false, Char.isDigit, Bool.and_eq_true, decide_eq_true_eq,
    UInt32.le_iff_toNat_le, ge_iff_le] at digit
  change 48 ≤ char.toNat ∧ char.toNat ≤ 57 at digit
  delta isLetter Char.isAlpha Char.isUpper Char.isLower at letter
  simp only [Bool.or_eq_true, Bool.and_eq_true, decide_eq_true_eq, UInt32.le_iff_toNat_le,
    ge_iff_le] at letter
  change ((65 ≤ char.toNat ∧ char.toNat ≤ 90) ∨ (97 ≤ char.toNat ∧ char.toNat ≤ 122)) ∨
    127 < char.toNat at letter
  omega

private theorem lex_name {spelling : String} (identifier : isIdentifier spelling)
    {rest : List Char} (breaks : Breaks rest) :
    lex (spelling.toList ++ rest) = .name spelling :: lex rest := by
  have allWord : ∀ char ∈ spelling.toList, isWordChar char :=
    fun char member => isWordChar_of_mem identifier member
  unfold isIdentifier at identifier
  split at identifier
  · cases identifier
  · rename_i first others spelled
    simp only [Bool.and_eq_true, decide_eq_true_eq] at identifier
    have notDigit := isDigit_of_isLetter identifier.1.1
    rw [lex_word (by simp [spelled]) allWord breaks, Token.ofWord, spelled,
      List.head?_cons, Option.any_some, notDigit, ← spelled, String.ofList_toList]
    simp only [Bool.false_eq_true, if_false, if_neg identifier.2]

private theorem isWordChar_last (number : Int) :
    (toString number).toList.getLast?.any isWordChar := by
  have ofDigits (magnitude : Nat) : (toString magnitude).toList.getLast?.any isWordChar := by
    have digit := isDigit_of_mem_numeral (List.getLast_mem (numeral_ne_nil magnitude))
    rw [List.getLast?_eq_some_getLast (numeral_ne_nil magnitude), Option.any_some, isWordChar,
      digit]
    simp
  cases number with
  | ofNat magnitude => exact ofDigits magnitude
  | negSucc magnitude =>
      have digits := ofDigits (magnitude + 1)
      change ("-" ++ toString (magnitude + 1)).toList.getLast?.any isWordChar
      rw [String.toList_append, List.getLast?_append]
      cases last : (toString (magnitude + 1)).toList.getLast? with
      | none =>
          rw [last] at digits
          cases digits
      | some char =>
          rw [last] at digits
          exact digits

private theorem lex_item {layer : Layer Tree} (wellNamed : layer.isWellNamed)
    (below : ∀ child ∈ layer.children, child.Completes false → ∀ base rest, Breaks rest →
      lex (spell indentSize base (child.passage false).pieces ++ rest) = child.tokens ++ lex rest)
    {item : Item Tree} (admitted : layer.Admits item) (complete : (item.output false).stop = none)
    {rest : List Char} (breaks : item.isOpen → Breaks rest) :
    lex (item.chars indentSize base ++ rest) = item.tokens Tree.tokens ++ lex rest := by
  cases item with
  | text words =>
      rcases admitted with isFragment | ⟨value, rfl⟩
      · exact lex_fragment isFragment breaks
      · exact lex_numeral value.toInt (breaks (isWordChar_last value.toInt))
  | name spelling =>
      cases spelling with
      | error fault => cases complete
      | ok spelling =>
          exact lex_name (layer.isIdentifier_of_mem_names wellNamed admitted) (breaks rfl)
  | literal contents =>
      cases contents with
      | error fault => cases complete
      | ok contents => exact lex_quote contents rest
  | note words => rfl
  | line depth =>
      rw [Item.chars, List.cons_append, lex_newline, lex_blanks]
      rfl
  | child depth inner =>
      have innerComplete : inner.Completes false := Option.map_eq_none_iff.mp complete
      exact below inner admitted.2 innerComplete (base + depth) rest (breaks rfl)
  | stop reason => cases complete

private theorem breaks_item {item : Item Tree} (breaks : item.breaks)
    (complete : (item.output false).stop = none) (rest : List Char) :
    Breaks (item.chars indentSize base ++ rest) := by
  intro char isHead
  cases item with
  | text words =>
      rw [Item.breaks] at breaks
      rw [Item.chars] at isHead
      cases spelled : words.toList with
      | nil => simp [spelled] at breaks
      | cons first others =>
          rw [spelled] at isHead breaks
          cases isHead
          simpa using breaks
  | literal contents =>
      cases contents with
      | error fault => cases complete
      | ok contents =>
          rw [Item.chars, Literal.toList_quote] at isHead
          cases isHead
          rfl
  | line depth =>
      cases isHead
      rfl
  | name _ | note _ | child _ _ | stop _ => cases breaks

private theorem breaks_of_separated {items : List (Item Tree)}
    (apart : Item.separated true items) (complete : ∀ item ∈ items, (item.output false).stop = none)
    {rest : List Char} (breaks : Breaks rest) :
    Breaks (items.flatMap (Item.chars indentSize base) ++ rest) := by
  induction items with
  | nil => exact breaks
  | cons item others ih =>
      cases item with
      | note words => exact ih apart (fun item member => complete item (.tail _ member))
      | _ =>
          rw [Item.separated_cons (by simp), Bool.and_eq_true, Bool.not_true,
            Bool.false_or] at apart
          rw [List.flatMap_cons, List.append_assoc]
          exact breaks_item apart.1 (complete _ List.mem_cons_self) _

private theorem lex_items {layer : Layer Tree} (wellNamed : layer.isWellNamed)
    (below : ∀ child ∈ layer.children, child.Completes false → ∀ base rest, Breaks rest →
      lex (spell indentSize base (child.passage false).pieces ++ rest) = child.tokens ++ lex rest)
    {items : List (Item Tree)} (admitted : ∀ item ∈ items, layer.Admits item)
    (complete : ∀ item ∈ items, (item.output false).stop = none) {pending : Bool}
    (apart : Item.separated pending items) {rest : List Char} (breaks : Breaks rest) :
    lex (items.flatMap (Item.chars indentSize base) ++ rest) =
      items.flatMap (Item.tokens Tree.tokens) ++ lex rest := by
  induction items generalizing pending with
  | nil => rfl
  | cons item others ih =>
      have admittedOthers := fun item member => admitted item (.tail _ member)
      have completeOthers := fun item member => complete item (.tail _ member)
      cases item with
      | note words => exact ih admittedOthers completeOthers apart
      | _ =>
          rw [Item.separated_cons (by simp), Bool.and_eq_true] at apart
          rw [List.flatMap_cons, List.flatMap_cons, List.append_assoc, List.append_assoc,
            ← ih admittedOthers completeOthers apart.2]
          -- a word that the item ends in is pending for the items behind it
          refine lex_item wellNamed below (admitted _ List.mem_cons_self)
            (complete _ List.mem_cons_self) ?_
          intro isOpen
          rw [isOpen] at apart
          exact breaks_of_separated apart.2 completeOthers breaks

/-- The text of a complete tree splits into the tokens of the tree, in front of whatever does not
go on with its last word. -/
theorem Tree.lex_passage {tree : Tree}
    (wellNamed : tree.Throughout (fun layer => layer.isWellNamed)) (complete : tree.Completes false)
    (base : Nat) {rest : List Char} (breaks : Breaks rest) :
    lex (spell indentSize base (tree.passage false).pieces ++ rest) = tree.tokens ++ lex rest := by
  induction wellNamed generalizing base rest with
  | node layer here below ih =>
      rw [pieces_of_completes complete, spell_pieces, tokens_node]
      exact lex_items here (fun child member completeChild base rest breaks =>
        ih child member completeChild base breaks)
        layer.admits_of_mem_sketch (fun item member => complete.item member)
        layer.separated_sketch breaks

end

end TigerTree
