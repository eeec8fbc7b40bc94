import TigerTree.Proofs.Rendering.Sketch
import TigerTree.Proofs.Unfolding.Intact

/-! What a node may write. Each item of a sketch is a fixed fragment, a number, one of the node's
names, its contents, its diagnostic, a line or child at most one level deeper, or an objection.
What holds of all these holds of every passage. -/

set_option autoImplicit false

namespace TigerTree

variable {Child Other : Type}

def fragments : List String :=
  ["(", ")", ";", ", ", ": ", " := ", " =", "int", "string", "let", "in", "end", "if", "then",
    "else", "while ", " do", "for ", " to ", "break", "var ", "function "] ++
    Operator.all.map (fun operator => " " ++ operator.symbol ++ " ")

theorem isDigit_of_mem_numeral {number : Nat} {char : Char}
    (member : char ∈ (toString number).toList) : char.isDigit := by
  change char ∈ number.repr.toList at member
  rw [Nat.toList_repr] at member
  exact Nat.isDigit_of_mem_toDigits (by decide) (by decide) member

theorem numeral_ne_nil (number : Nat) : (toString number).toList ≠ [] := by
  change number.repr.toList ≠ []
  rw [Nat.toList_repr]
  exact Nat.toDigits_ne_nil

theorem signed_ne_nil (number : Int) : (toString number).toList ≠ [] := by
  cases number with
  | ofNat magnitude => exact numeral_ne_nil magnitude
  | negSucc magnitude =>
      change ("-" ++ toString (magnitude + 1)).toList ≠ []
      rw [String.toList_append]
      exact List.append_ne_nil_of_right_ne_nil _ (numeral_ne_nil _)

theorem isDigit_of_mem_signed {number : Int} {char : Char}
    (member : char ∈ (toString number).toList) (notSign : char ≠ '-') : char.isDigit := by
  cases number with
  | ofNat magnitude => exact isDigit_of_mem_numeral member
  | negSucc magnitude =>
      change char ∈ ("-" ++ toString (magnitude + 1)).toList at member
      rw [String.toList_append] at member
      rcases List.mem_append.mp member with isSign | inside
      · exact absurd (List.mem_singleton.mp isSign) notSign
      · exact isDigit_of_mem_numeral inside

def Layer.Admits (layer : Layer Child) : Item Child → Prop
  | .text words => words ∈ fragments ∨ ∃ value : Int32, words = toString value.toInt
  | .name spelling => spelling ∈ layer.names
  | .literal contents => layer.isIntact → contents.isOk
  | .note words => words = layer.note
  | .line depth => depth ≤ 1
  | .child depth inner => depth ≤ 1 ∧ inner ∈ layer.children
  | .stop (.diagnosed error) => ∃ violation location, error = .violated violation location
  | .stop (.faulted _) => layer.isIntact = false

namespace Item

theorem all_joined {property : Item Child → Prop} {separator : List (Item Child)}
    {depth : Nat} {children : List Child} (separates : ∀ item ∈ separator, property item)
    (holds : ∀ child ∈ children, property (.child depth child)) :
    ∀ item ∈ joined separator depth children, property item := by
  intro item member
  rcases mem_joined member with inSeparator | ⟨child, isChild, rfl⟩
  · exact separates item inSeparator
  · exact holds child isChild

theorem all_lines {property : Item Child → Prop} {children : List Child}
    (separates : property (.text ";")) (breaks : property (.line 1))
    (holds : ∀ child ∈ children, property (.child 1 child)) :
    ∀ item ∈ lines children, property item := by
  intro item member
  rcases mem_lines member with rfl | rfl | ⟨child, isChild, rfl⟩
  · exact separates
  · exact breaks
  · exact holds child isChild

theorem all_blocks {property : Item Child → Prop} {children : List Child}
    (breaks : property (.line 1)) (holds : ∀ child ∈ children, property (.child 1 child)) :
    ∀ item ∈ children.flatMap block, property item := by
  intro item member
  rcases mem_blocks member with rfl | ⟨child, isChild, rfl⟩
  · exact breaks
  · exact holds child isChild

private theorem all_variableType {layer : Layer Child} {heading : Heading}
    (named : layer.names = heading.name :: heading.typeName.toList) :
    ∀ item ∈ variableType heading, layer.Admits item := by
  unfold variableType
  cases written : heading.typeName with
  | some typeName => simp [Layer.Admits, fragments, named, written]
  | none => cases heading.type <;> simp [SemanticType.surfaceName?, Layer.Admits, fragments]

private theorem all_resultType {layer : Layer Child} {heading : Heading}
    (named : layer.names = heading.name :: heading.typeName.toList) :
    ∀ item ∈ resultType heading, layer.Admits item := by
  unfold resultType
  cases written : heading.typeName with
  | some typeName => simp [Layer.Admits, fragments, named, written]
  | none => simp

section

variable {Result : Type} {collect : Item Child → List Result}

theorem flatMap_joined {separator : List (Item Child)} (silent : separator.flatMap collect = [])
    (depth : Nat) (children : List Child) :
    (joined separator depth children).flatMap collect =
      children.flatMap (fun child => collect (.child depth child)) := by
  cases children with
  | nil => rfl
  | cons first rest =>
      rw [joined, List.flatMap_cons, List.flatMap_cons, List.flatMap_assoc]
      congr 1
      apply List.flatMap_congr
      intro next _
      rw [List.flatMap_append, silent]
      exact List.append_nil _

theorem flatMap_variableType (texts : ∀ words, collect (.text words) = [])
    (names : ∀ spelling, collect (.name spelling) = []) (heading : Heading) :
    (variableType heading).flatMap collect = [] := by
  unfold variableType
  cases heading.typeName with
  | some typeName => simp [texts, names]
  | none => cases heading.type <;> simp [SemanticType.surfaceName?, texts]

theorem flatMap_resultType (texts : ∀ words, collect (.text words) = [])
    (names : ∀ spelling, collect (.name spelling) = []) (heading : Heading) :
    (resultType heading).flatMap collect = [] := by
  unfold resultType
  cases heading.typeName <;> simp [texts, names]

end

end Item

private theorem operator_mem_fragments (operator : Operator) :
    " " ++ operator.symbol ++ " " ∈ fragments := by
  cases operator <;> decide

open Item in
/-- A sketch holds nothing else. -/
theorem Layer.admits_of_mem_sketch (layer : Layer Child) :
    ∀ item ∈ layer.sketch, layer.Admits item := by
  cases layer with
  | int location value =>
      simp only [sketch, List.forall_mem_singleton]
      exact .inr ⟨value, rfl⟩
  | binary location operator left right =>
      have inside := operator_mem_fragments operator
      simp [sketch, Admits, children, inside]
      simp [fragments]
  | sequence location elements =>
      cases elements with
      | nil => simp [sketch, violated, Admits]
      | cons first rest =>
          have inLines : ∀ item ∈ lines (first :: rest),
              (sequence location (first :: rest)).Admits item :=
            all_lines (by simp [Admits, fragments]) (by simp [Admits])
              (fun child isChild => ⟨le_refl 1, isChild⟩)
          simp only [sketch, List.forall_mem_cons, List.forall_mem_append]
          exact ⟨by simp [Admits, fragments], inLines, by simp [Admits],
            by simp [Admits, fragments], by simp⟩
  | letIn location decls body =>
      cases body with
      | nil => simp [sketch, violated, Admits]
      | cons first rest =>
          have inBlocks : ∀ item ∈ decls.flatMap block,
              (letIn location decls (first :: rest)).Admits item :=
            all_blocks (by simp [Admits])
              (fun child isChild => ⟨le_refl 1, List.mem_append_left _ isChild⟩)
          have inLines : ∀ item ∈ lines (first :: rest),
              (letIn location decls (first :: rest)).Admits item :=
            all_lines (by simp [Admits, fragments]) (by simp [Admits])
              (fun child isChild => ⟨le_refl 1, List.mem_append_right _ isChild⟩)
          simp only [sketch, List.forall_mem_cons, List.forall_mem_append]
          exact ⟨by simp [Admits, fragments], inBlocks,
            ⟨by simp [Admits], by simp [Admits, fragments], by simp⟩, inLines, by simp [Admits],
            by simp [Admits, fragments], by simp⟩
  | call location function site arguments =>
      have inJoined : ∀ item ∈ joined [.text ", "] 0 arguments,
          (call location function site arguments).Admits item :=
        all_joined (by simp [Admits, fragments]) (fun child isChild => ⟨Nat.zero_le 1, isChild⟩)
      simp only [sketch, List.forall_mem_cons, List.forall_mem_append]
      exact ⟨by simp [Admits, names], rfl, by simp [Admits, fragments], inJoined,
        by simp [Admits, fragments], by simp⟩
  | forLoop location start high body =>
      cases start <;>
        simp [sketch, violated, block, Admits, names, children, LoopStart.children, isIntact,
          fragments]
  | varDecl heading initializer =>
      have inType : ∀ item ∈ variableType heading, (varDecl heading initializer).Admits item :=
        all_variableType rfl
      simp only [sketch, List.forall_mem_cons, List.forall_mem_append]
      exact ⟨by simp [Admits, fragments], by simp [Admits, names], rfl, inType,
        by simp [Admits, fragments], by simp [Admits, children], by simp⟩
  | parameter heading =>
      have inType : ∀ item ∈ variableType heading,
          (parameter heading : Layer Child).Admits item :=
        all_variableType rfl
      simp only [sketch, List.forall_mem_cons]
      exact ⟨by simp [Admits, names], rfl, inType⟩
  | funDecl heading loweredName parameters body =>
      cases parameters with
      | error fault => simp [sketch, Admits, names, fragments, isIntact, Except.isOk, Except.toBool]
      | ok parameters =>
          have inJoined : ∀ item ∈ joined [.text ", "] 0 parameters,
              (funDecl heading loweredName (.ok parameters) body).Admits item :=
            all_joined (by simp [Admits, fragments])
              (fun child isChild => ⟨Nat.zero_le 1, List.mem_append_left _ isChild⟩)
          have inType : ∀ item ∈ resultType heading,
              (funDecl heading loweredName (.ok parameters) body).Admits item :=
            all_resultType rfl
          simp only [sketch, List.forall_mem_cons, List.forall_mem_append]
          exact ⟨by simp [Admits, fragments], by simp [Admits, names], rfl,
            by simp [Admits, fragments], inJoined, by simp [Admits, fragments], inType,
            by simp [Admits, fragments], by simp [block, Admits, children]⟩
  | _ => simp [sketch, block, Admits, names, children, isIntact, fragments]

theorem Layer.isOk_of_note {layer : Layer Child} (intact : layer.isIntact)
    {words : Except Fault String} (noted : layer.note = some words) : words.isOk := by
  have mapped {Source : Type} (lookup : Except Fault Source) (write : Source → String)
      (found : lookup.isOk) : (lookup.map write).isOk := by
    cases lookup with
    | ok result => rfl
    | error fault => cases found
  have captured (heading : Heading) (capture : heading.captureNote = some words) :
      words.isOk := by
    unfold Heading.captureNote at capture
    split at capture
    · cases capture
      rfl
    · cases capture
  cases layer with
  | identifier location name site depth =>
      obtain ⟨lookup, isSite, rfl⟩ := Option.map_eq_some_iff.mp noted
      refine mapped lookup _ ?_
      simp_all [isIntact]
  | call location function site arguments =>
      obtain ⟨lookup, isSite, rfl⟩ := Option.map_eq_some_iff.mp noted
      refine mapped lookup _ ?_
      simp_all [isIntact]
  | breakLoop location target =>
      obtain ⟨lookup, isTarget, rfl⟩ := Option.map_eq_some_iff.mp noted
      refine mapped lookup _ ?_
      simp_all [isIntact]
  | forLoop location start high body =>
      cases start with
      | bound heading low => exact captured heading noted
      | lost fault | missing => cases noted
  | varDecl heading initializer => exact captured heading noted
  | parameter heading => exact captured heading noted
  | funDecl heading loweredName parameters body =>
      obtain ⟨symbol, isSymbol, noted⟩ := Option.bind_eq_some_iff.mp noted
      unfold LoweredName.note at noted
      split at noted
      · cases noted
      · cases noted
        simp_all [isIntact]
  | _ => cases noted

/-- The characters of the diagnostics that tell places, distances and captures. -/
def isNoteChar (char : Char) : Bool :=
  char.isAlphanum || char ∈ [':', '_', '-', ' ']

private theorem isNoteChar_of_isDigit {char : Char} (digit : char.isDigit) : isNoteChar char := by
  simp [isNoteChar, Char.isAlphanum, digit]

private theorem all_isNoteChar_location (location : Location) :
    location.text.toList.all isNoteChar := by
  rw [List.all_eq_true]
  intro char member
  simp only [Location.text, String.toList_append, List.mem_append] at member
  rcases member with (inLine | isColon) | inColumn
  · exact isNoteChar_of_isDigit (isDigit_of_mem_numeral inLine)
  · rw [List.mem_singleton.mp isColon]
    rfl
  · exact isNoteChar_of_isDigit (isDigit_of_mem_numeral inColumn)

private theorem all_isNoteChar_site (site : Site) : site.text.toList.all isNoteChar := by
  rw [Site.text, String.toList_append, List.all_append, all_isNoteChar_location]
  rfl

private theorem all_isNoteChar_textFrom (depth : UInt32) (site : Site) :
    (site.textFrom depth).toList.all isNoteChar := by
  simp only [Site.textFrom]
  split
  · exact all_isNoteChar_site site
  · simp only [String.toList_append, List.all_append, Bool.and_eq_true]
    refine ⟨⟨all_isNoteChar_site site, by decide⟩, ?_⟩
    rw [List.all_eq_true]
    intro char member
    by_cases isSign : char = '-'
    · rw [isSign]
      rfl
    · exact isNoteChar_of_isDigit (isDigit_of_mem_signed member isSign)

/-- A diagnostic that is no lowered name is made of few characters. -/
theorem Layer.note_cases {layer : Layer Child} {words : String}
    (noted : layer.note = some (.ok words)) :
    (∃ heading loweredName parameters body,
      layer = .funDecl heading (some loweredName) parameters body ∧
        loweredName.text = .ok words) ∨ words.toList.all isNoteChar := by
  have captured (heading : Heading) (capture : heading.captureNote = some (.ok words)) :
      words.toList.all isNoteChar := by
    unfold Heading.captureNote at capture
    split at capture
    · cases capture
      decide
    · cases capture
  cases layer with
  | identifier location name site depth =>
      obtain ⟨lookup, _, found⟩ := Option.map_eq_some_iff.mp noted
      cases lookup with
      | error fault => cases found
      | ok site =>
          cases found
          exact .inr (all_isNoteChar_textFrom depth site)
  | call location function site arguments =>
      obtain ⟨lookup, _, found⟩ := Option.map_eq_some_iff.mp noted
      cases lookup with
      | error fault => cases found
      | ok site =>
          cases found
          exact .inr (all_isNoteChar_site site)
  | breakLoop location target =>
      obtain ⟨lookup, _, found⟩ := Option.map_eq_some_iff.mp noted
      cases lookup with
      | error fault => cases found
      | ok loop =>
          cases found
          refine .inr ?_
          rw [String.toList_append, List.all_append, all_isNoteChar_location]
          rfl
  | forLoop location start high body =>
      cases start with
      | bound heading low => exact .inr (captured heading noted)
      | lost fault | missing => cases noted
  | varDecl heading initializer => exact .inr (captured heading noted)
  | parameter heading => exact .inr (captured heading noted)
  | funDecl heading loweredName parameters body =>
      obtain ⟨symbol, rfl, isNote⟩ := Option.bind_eq_some_iff.mp noted
      unfold LoweredName.note at isNote
      split at isNote
      · cases isNote
      · exact .inl ⟨heading, symbol, parameters, body, rfl, Option.some.inj isNote⟩
  | _ => cases noted

/-! ### From items to passages -/

namespace Passage

theorem mem_concat {passages : List Passage} {piece : Piece}
    (member : piece ∈ (concat passages).pieces) : ∃ passage ∈ passages, piece ∈ passage.pieces := by
  induction passages with
  | nil => cases member
  | cons passage rest ih =>
      rw [concat] at member
      cases stops : passage.stop with
      | some stopped =>
          rw [append_of_stopped stops] at member
          exact ⟨passage, List.mem_cons_self, member⟩
      | none =>
          rw [append_of_complete stops] at member
          rcases List.mem_append.mp member with here | later
          · exact ⟨passage, List.mem_cons_self, here⟩
          · obtain ⟨found, isFound, inside⟩ := ih later
            exact ⟨found, List.mem_cons_of_mem _ isFound, inside⟩

theorem stop_concat {passages : List Passage} {stopped : Stop RenderError × Nat}
    (stops : (concat passages).stop = some stopped) :
    ∃ passage ∈ passages, passage.stop = some stopped := by
  induction passages with
  | nil => cases stops
  | cons passage rest ih =>
      rw [concat] at stops
      cases stopsHere : passage.stop with
      | some stoppedHere =>
          rw [append_of_stopped stopsHere] at stops
          exact ⟨passage, List.mem_cons_self, stops⟩
      | none =>
          rw [append_of_complete stopsHere] at stops
          obtain ⟨found, isFound, inside⟩ := ih stops
          exact ⟨found, List.mem_cons_of_mem _ isFound, inside⟩

theorem stop_eq_none_of_mem {passages : List Passage} (complete : (concat passages).stop = none)
    {passage : Passage} (member : passage ∈ passages) : passage.stop = none := by
  induction passages with
  | nil => cases member
  | cons first rest ih =>
      rw [concat] at complete
      cases stops : first.stop with
      | some stopped =>
          rw [append_of_stopped stops, stops] at complete
          cases complete
      | none =>
          rw [append_of_complete stops] at complete
          rcases List.mem_cons.mp member with rfl | later
          · exact stops
          · exact ih complete later

theorem pieces_concat {passages : List Passage} (complete : (concat passages).stop = none) :
    (concat passages).pieces = passages.flatMap Passage.pieces := by
  induction passages with
  | nil => rfl
  | cons first rest ih =>
      have stops : first.stop = none := stop_eq_none_of_mem complete List.mem_cons_self
      rw [concat, append_of_complete stops] at complete ⊢
      rw [List.flatMap_cons, ih complete]

/-- What is looked up and found does not stop. -/
theorem stop_look {Result : Type} {lookup : Except Fault Result} {write : Result → Passage}
    (found : lookup.isOk) (completes : ∀ result, (write result).stop = none) :
    (look lookup write).stop = none := by
  cases lookup with
  | ok result => exact completes result
  | error fault => cases found

end Passage

theorem Layer.stop_notMem_sketch {verbose : Bool} {layer : Layer Passage}
    (complete : (layer.passage verbose).stop = none) (reason : Stop RenderError) :
    .stop reason ∉ layer.sketch := by
  intro member
  have stops := Passage.stop_eq_none_of_mem complete (List.mem_map_of_mem member)
  cases stops

/-- A tree whose lookups succeed can only be objected to. -/
theorem Tree.diagnosed_of_intact {tree : Tree} (verbose : Bool)
    (intact : tree.Throughout (fun layer => layer.isIntact)) {reason : Stop RenderError}
    {depth : Nat} (stops : (tree.passage verbose).stop = some (reason, depth)) :
    ∃ violation location, reason = .diagnosed (.violated violation location) := by
  induction intact generalizing depth with
  | node layer here below ih =>
      rw [passage_eq_concat] at stops
      obtain ⟨passage, isPassage, stops⟩ := Passage.stop_concat stops
      obtain ⟨item, isItem, rfl⟩ := List.mem_map.mp isPassage
      have admitted := layer.admits_of_mem_sketch item isItem
      cases item with
      | text words => cases stops
      | line levels => cases stops
      | name spelling =>
          have found := layer.isOk_of_mem_names here admitted
          rw [Item.map, Item.passage_name, Passage.stop_look found (fun _ => rfl)] at stops
          cases stops
      | literal contents =>
          have found := admitted here
          rw [Item.map, Item.passage_literal, Passage.stop_look found (fun _ => rfl)] at stops
          cases stops
      | note words =>
          cases words with
          | none => cases stops
          | some words =>
              have found := layer.isOk_of_note here admitted.symm
              cases verbose with
              | false => cases stops
              | true =>
                  rw [Item.map, Item.passage_note_true, Passage.stop_look found (fun _ => rfl)]
                    at stops
                  cases stops
      | child levels inner =>
          obtain ⟨⟨inside, deeper⟩, stopsInside, same⟩ := Option.map_eq_some_iff.mp stops
          cases same
          exact ih inner admitted.2 stopsInside
      | stop other =>
          cases stops
          cases reason with
          | diagnosed error =>
              obtain ⟨violation, location, rfl⟩ := admitted
              exact ⟨violation, location, rfl⟩
          | faulted fault =>
              change layer.isIntact = false at admitted
              rw [here] at admitted
              cases admitted

end TigerTree
