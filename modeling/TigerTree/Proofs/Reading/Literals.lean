import Mathlib.Algebra.Ring.Parity
import TigerTree.Proofs.Rendering.Layout

/-! Reading a string literal back. The reader knows the nine escapes and no other, and stops at the
first quote that is not escaped. It finds the contents in front of whatever follows the literal, so
what is written between the quotes tells the contents and cannot end the literal. -/

set_option autoImplicit false

namespace TigerTree
namespace Literal

def unescape? : Char → Option Char
  | '"' => some '"'
  | '\\' => some '\\'
  | 'a' => some '\x07'
  | 'b' => some '\x08'
  | 't' => some '\t'
  | 'n' => some '\n'
  | 'v' => some '\x0b'
  | 'f' => some '\x0c'
  | 'r' => some '\r'
  | _ => none

/-- Reads on behind an opening quote: the contents, and what follows the closing quote. An unknown
escape, one that is cut off and a literal that is never closed are refused. -/
def read? : List Char → Option (List Char × List Char)
  | [] => none
  | '"' :: rest => some ([], rest)
  | ['\\'] => none
  | '\\' :: letter :: rest => do
      let char ← unescape? letter
      let (contents, rest) ← read? rest
      some (char :: contents, rest)
  | char :: rest => do
      let (contents, rest) ← read? rest
      some (char :: contents, rest)

theorem read?_escape {letter char : Char} (known : unescape? letter = some char)
    (rest : List Char) :
    read? ('\\' :: letter :: rest) =
      (read? rest).map (fun (contents, rest) => (char :: contents, rest)) := by
  rw [read?, known]
  cases read? rest <;> rfl

theorem read?_plain {char : Char} (notQuote : char ≠ '"') (notBackslash : char ≠ '\\')
    (rest : List Char) :
    read? (char :: rest) =
      (read? rest).map (fun (contents, rest) => (char :: contents, rest)) := by
  rw [read?]
  · cases read? rest <;> rfl
  · exact notQuote
  · intro isBackslash
    exact absurd isBackslash notBackslash
  · intro letter more isBackslash
    exact absurd isBackslash notBackslash

def controls : List Char := ['\x07', '\x08', '\t', '\n', '\x0b', '\x0c', '\r']

/-- A character is written as it is, or as an escape that the reader knows; a line break or a tab
is neither. -/
theorem escapeChar_cases (char : Char) :
    (escapeChar char = [char] ∧ char ≠ '"' ∧ char ≠ '\\' ∧ char ∉ controls) ∨
    ∃ letter, escapeChar char = ['\\', letter] ∧ unescape? letter = some char ∧
      letter ∉ controls := by
  unfold escapeChar
  split
  case h_10 notQuote notBackslash notBell notBackspace notTab notNewline notVertical notFeed
      notReturn =>
    left
    simp only [controls, List.mem_cons, List.not_mem_nil, or_false, not_or]
    exact ⟨trivial, notQuote, notBackslash, notBell, notBackspace, notTab, notNewline, notVertical,
      notFeed, notReturn⟩
  all_goals exact .inr ⟨_, rfl, rfl, by decide⟩

theorem read?_flatMap_escapeChar (contents rest : List Char) :
    read? (contents.flatMap escapeChar ++ '"' :: rest) = some (contents, rest) := by
  induction contents with
  | nil => rfl
  | cons char contents ih =>
      rw [List.flatMap_cons, List.append_assoc]
      rcases escapeChar_cases char with
        ⟨plain, notQuote, notBackslash, _⟩ | ⟨letter, escaped, known, _⟩
      · rw [plain, List.singleton_append, read?_plain notQuote notBackslash, ih]
        rfl
      · rw [escaped, List.cons_append, List.singleton_append, read?_escape known, ih]
        rfl

theorem not_mem_controls_of_mem_escape {contents : String} {char : Char}
    (member : char ∈ (escape contents).toList) : char ∉ controls := by
  rw [escape, String.toList_ofList] at member
  obtain ⟨source, _, written⟩ := List.mem_flatMap.mp member
  rcases escapeChar_cases source with ⟨plain, _, _, uncontrolled⟩ | ⟨letter, escaped, _, uncontrolled⟩
  · rw [plain, List.mem_singleton] at written
    exact written ▸ uncontrolled
  · rw [escaped, List.mem_cons, List.mem_singleton] at written
    rcases written with rfl | rfl
    · decide
    · exact uncontrolled

/-! ### Quotes between the quotes -/

def backslashesAtEnd (text : List Char) : Nat :=
  (text.reverse.takeWhile (· = '\\')).length

/-- A character behind the text is escaped: the backslashes in front of it do not pair off. -/
def Escapes (text : List Char) : Prop := Odd (backslashesAtEnd text)

private theorem backslashesAtEnd_backslash (text : List Char) :
    backslashesAtEnd (text ++ ['\\']) = backslashesAtEnd text + 1 := by
  simp [backslashesAtEnd]

private theorem backslashesAtEnd_other (text : List Char) {char : Char}
    (notBackslash : char ≠ '\\') : backslashesAtEnd (text ++ [char]) = 0 := by
  simp [backslashesAtEnd, notBackslash]

private theorem escapes_of_quote {contents written before after : List Char}
    (paired : Even (backslashesAtEnd written))
    (split : contents.flatMap escapeChar = before ++ '"' :: after) : Escapes (written ++ before) := by
  -- The induction carries what was written before, which ends in backslashes that pair off.
  induction contents generalizing written before with
  | nil =>
      rw [List.flatMap_nil] at split
      exact absurd split.symm (by simp)
  | cons char contents ih =>
      rw [List.flatMap_cons] at split
      rcases escapeChar_cases char with
        ⟨plain, notQuote, notBackslash, _⟩ | ⟨letter, escaped, _, _⟩
      · rw [plain, List.singleton_append] at split
        cases before with
        | nil =>
            rw [List.nil_append] at split
            exact absurd (List.cons.inj split).1 notQuote
        | cons first before =>
            obtain ⟨rfl, later⟩ := List.cons.inj split
            have pairedBehind : Even (backslashesAtEnd (written ++ [char])) := by
              rw [backslashesAtEnd_other written notBackslash]
              exact Even.zero
            have escapes := ih pairedBehind later
            rw [List.append_assoc] at escapes
            exact escapes
      · rw [escaped, List.cons_append, List.singleton_append] at split
        match before, split with
        | [], split =>
            rw [List.nil_append] at split
            exact absurd (List.cons.inj split).1 (by decide)
        | [first], split =>
            obtain ⟨rfl, _⟩ := List.cons.inj split
            rw [Escapes, backslashesAtEnd_backslash]
            exact paired.add_one
        | first :: second :: before, split =>
            obtain ⟨rfl, behind⟩ := List.cons.inj split
            obtain ⟨rfl, later⟩ := List.cons.inj behind
            have pairedBehind : Even (backslashesAtEnd (written ++ ['\\'] ++ [letter])) := by
              by_cases isBackslash : letter = '\\'
              · rw [isBackslash, backslashesAtEnd_backslash, backslashesAtEnd_backslash]
                exact paired.add_one.add_one
              · rw [backslashesAtEnd_other _ isBackslash]
                exact Even.zero
            have escapes := ih pairedBehind later
            rw [List.append_assoc, List.append_assoc] at escapes
            exact escapes

theorem escape_append (first second : String) :
    escape (first ++ second) = escape first ++ escape second := by
  simp only [escape, String.toList_append, List.flatMap_append, String.ofList_append]

theorem escapeOnto_eq (text contents : String) :
    escapeOnto text contents = text ++ escape contents := by
  unfold escapeOnto escape
  induction contents.toList generalizing text with
  | nil => simp
  | cons char rest ih =>
      rw [List.foldl_cons, ih, List.flatMap_cons, String.ofList_append, String.append_assoc]

private theorem read?_escape_append (contents rest : String) :
    read? ((escape contents).toList ++ '"' :: rest.toList) =
      some (contents.toList, rest.toList) := by
  rw [escape, String.toList_ofList]
  exact read?_flatMap_escapeChar contents.toList rest.toList

theorem escape_injective : Function.Injective escape := by
  intro first second same
  have readFirst := read?_escape_append first ""
  have readSecond := read?_escape_append second ""
  rw [same, readSecond] at readFirst
  exact String.toList_injective (Prod.mk.inj (Option.some.inj readFirst)).1.symm

end Literal

namespace Arena

theorem render_string {arena : Arena} {id : ExprId} {name : Name} {location : Location}
    {contents : String} (found : arena.expr id = .ok ⟨.string name, location⟩)
    (spelled : arena.text name = .ok contents) (style : Style) :
    arena.render style (.expr id) = .ok (Literal.quote contents) := by
  have isLayer : arena.layer (.expr id) = .string location (.ok contents) := by
    rw [layer_expr found rfl, ← spelled]
    rfl
  have isPassage : (arena.unfold (.expr id)).passage style.verbose =
      .write (.literal contents) := by
    rw [unfold, pathBound, unfoldWithin, isLayer, Tree.passage_node]
    rfl
  have fits : Fits style.indentSize 0 (Passage.write (.literal contents)).pieces := by
    intro level written
    cases List.mem_singleton.mp written
  rw [render_of_fits isPassage fits]
  simp [Passage.write, spell, Piece.chars]

end Arena

namespace Literal

/-- A literal delimits itself: behind its opening quote, and whatever follows it, a reader finds
the contents and leaves what follows. So the contents can be told from what is written for them,
which holds no control character with an escape and no quote that could end the literal. Contents
are written character by character, behind any text whatever it ends in. -/
theorem quote_delimits_itself :
    (∀ (arena : Arena) (id : ExprId) (name : Name) (location : Location) (contents : String)
      (style : Style), arena.expr id = .ok ⟨.string name, location⟩ →
        arena.text name = .ok contents →
        arena.render style (.expr id) = .ok (quote contents)) ∧
    (∀ contents rest : String, ∃ behind, (quote contents ++ rest).toList = '"' :: behind ∧
      read? behind = some (contents.toList, rest.toList)) ∧
    Function.Injective escape ∧
    (∀ contents, ∀ char ∈ (escape contents).toList, char ∉ controls) ∧
    (∀ contents before after, (escape contents).toList = before ++ '"' :: after →
      Escapes before) ∧
    (∀ first second, escape (first ++ second) = escape first ++ escape second) ∧
    (∀ text contents, escapeOnto text contents = text ++ escape contents) := by
  refine ⟨?rendered, ?delimited, escape_injective, ?uncontrolled, ?unended, escape_append,
    escapeOnto_eq⟩
  case rendered =>
    intro arena id name location contents style found spelled
    exact Arena.render_string found spelled style
  case delimited =>
    intro contents rest
    refine ⟨(escape contents).toList ++ '"' :: rest.toList, ?_, read?_escape_append contents rest⟩
    simp [quote]
  case uncontrolled =>
    intro contents char member
    exact not_mem_controls_of_mem_escape member
  case unended =>
    intro contents before after split
    rw [escape, String.toList_ofList] at split
    have pairedBefore : Even (backslashesAtEnd []) := Even.zero
    exact escapes_of_quote pairedBefore split

end Literal

/-- A literal with a run of backslashes in front of a quote, a line break, and a backslash at the
end of its contents. -/
def runOfBackslashes : Arena :=
  { Arena.initial with
    exprs := #[⟨.string ⟨1⟩, ⟨1, 1⟩⟩]
    names := ⟨[("\\\"é\n\\", ⟨1⟩), ("", ⟨0⟩)], #["", "\\\"é\n\\"]⟩ }

theorem quote_runOfBackslashes :
    runOfBackslashes.expr ⟨0⟩ = .ok ⟨.string ⟨1⟩, ⟨1, 1⟩⟩ ∧
      runOfBackslashes.text ⟨1⟩ = .ok "\\\"é\n\\" ∧
      runOfBackslashes.render Style.plain (.expr ⟨0⟩) = .ok "\"\\\\\\\"é\\n\\\\\"" ∧
      Literal.read? "\\\\\\\"é\\n\\\\\"\"\\".toList = some ("\\\"é\n\\".toList, ['"', '\\']) := by
  have found : runOfBackslashes.expr ⟨0⟩ = .ok ⟨.string ⟨1⟩, ⟨1, 1⟩⟩ := rfl
  have spelled : runOfBackslashes.text ⟨1⟩ = .ok "\\\"é\n\\" := rfl
  have rendered := Literal.quote_delimits_itself.1 _ _ _ _ _ Style.plain found spelled
  obtain ⟨behind, split, read⟩ :=
    Literal.quote_delimits_itself.2.1 "\\\"é\n\\" "\"\\"
  refine ⟨found, spelled, rendered, ?_⟩
  cases split
  exact read

end TigerTree
