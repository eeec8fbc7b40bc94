import TigerTree.Proofs.Rendering.Layout
import TigerTree.Proofs.Rendering.Vocabulary

/-! The tokens of a program text: words, numbers, string literals and single symbols. Blanks and
line breaks only separate. A text that is cut where no word goes on is read in two parts. -/

set_option autoImplicit false

namespace TigerTree

inductive Token where
  | keyword (word : String)
  | name (word : String)
  | number (digits : String)
  | literal (contents : String)
  | symbol (char : Char)
  deriving DecidableEq

def Token.ofWord (word : List Char) : Token :=
  if (word.head?.any (·.isDigit)) then .number (String.ofList word)
  else if String.ofList word ∈ keywords then .keyword (String.ofList word)
  else .name (String.ofList word)

def Literal.unescapeChar : Char → Char
  | 'a' => '\x07'
  | 'b' => '\x08'
  | 't' => '\t'
  | 'n' => '\n'
  | 'v' => '\x0b'
  | 'f' => '\x0c'
  | 'r' => '\r'
  | char => char

inductive LexState where
  | between
  | word (spelled : List Char)
  | literal (contents : List Char)
  | escaped (contents : List Char)
  deriving DecidableEq

namespace LexState

/-- The tokens that are complete at the character, and where the reader stands behind it. -/
def start (char : Char) : List Token × LexState :=
  if char = '"' then ([], literal [])
  else if isWordChar char then ([], word [char])
  else if char = ' ' ∨ char = '\n' then ([], between)
  else ([.symbol char], between)

def step : LexState → Char → List Token × LexState
  | between, char => start char
  | word spelled, char =>
      if isWordChar char then ([], word (spelled ++ [char]))
      else (.ofWord spelled :: (start char).1, (start char).2)
  | literal contents, char =>
      if char = '"' then ([.literal (String.ofList contents)], between)
      else if char = '\\' then ([], escaped contents)
      else ([], literal (contents ++ [char]))
  | escaped contents, char => ([], literal (contents ++ [Literal.unescapeChar char]))

def finish : LexState → List Token
  | word spelled => [.ofWord spelled]
  | _ => []

def run : LexState → List Char → List Token
  | state, [] => state.finish
  | state, char :: rest => (state.step char).1 ++ run (state.step char).2 rest

end LexState

def lex (text : List Char) : List Token := LexState.between.run text

/-- No word goes on into the text. -/
def Breaks (text : List Char) : Prop := ∀ char ∈ text.head?, isWordChar char = false

theorem lex_nil : lex [] = [] := rfl

theorem lex_cons (char : Char) (rest : List Char) :
    lex (char :: rest) = (LexState.start char).1 ++ (LexState.start char).2.run rest := rfl

theorem lex_blank (rest : List Char) : lex (' ' :: rest) = lex rest := rfl

theorem lex_newline (rest : List Char) : lex ('\n' :: rest) = lex rest := rfl

theorem lex_blanks (count : Nat) (rest : List Char) :
    lex (List.replicate count ' ' ++ rest) = lex rest := by
  induction count with
  | zero => rfl
  | succ count ih => rw [List.replicate_succ, List.cons_append, lex_blank, ih]

private theorem run_word_of_breaks (spelled : List Char) {rest : List Char} (breaks : Breaks rest) :
    (LexState.word spelled).run rest = .ofWord spelled :: lex rest := by
  cases rest with
  | nil => rfl
  | cons char rest =>
      have notWord : isWordChar char = false := breaks char rfl
      simp only [LexState.run, LexState.step, notWord, Bool.false_eq_true, if_false]
      rfl

private theorem run_word (spelled more : List Char) {rest : List Char}
    (allWord : ∀ char ∈ more, isWordChar char) (breaks : Breaks rest) :
    (LexState.word spelled).run (more ++ rest) = .ofWord (spelled ++ more) :: lex rest := by
  induction more generalizing spelled with
  | nil => rw [List.nil_append, List.append_nil, run_word_of_breaks spelled breaks]
  | cons char more ih =>
      have isWord : isWordChar char := allWord char List.mem_cons_self
      have later := ih (spelled ++ [char]) (fun char member => allWord char (.tail _ member))
      rw [List.cons_append, LexState.run]
      simp only [LexState.step, isWord, if_true, List.nil_append]
      rw [later, List.append_assoc]
      rfl

theorem lex_word {word rest : List Char} (notEmpty : word ≠ [])
    (allWord : ∀ char ∈ word, isWordChar char) (breaks : Breaks rest) :
    lex (word ++ rest) = .ofWord word :: lex rest := by
  cases word with
  | nil => exact absurd rfl notEmpty
  | cons first more =>
      have isWord : isWordChar first := allWord first List.mem_cons_self
      have notQuote : first ≠ '"' := by
        intro isQuote
        rw [isQuote] at isWord
        cases isWord
      rw [List.cons_append, lex_cons]
      simp only [LexState.start, if_neg notQuote, isWord, if_true, List.nil_append]
      exact run_word [first] more (fun char member => allWord char (.tail _ member)) breaks

private theorem run_escapeChar (contents : List Char) (char : Char) (rest : List Char) :
    (LexState.literal contents).run (Literal.escapeChar char ++ rest) =
      (LexState.literal (contents ++ [char])).run rest := by
  unfold Literal.escapeChar
  split
  case h_10 notQuote notBackslash _ _ _ _ _ _ _ =>
    have ordinary : char ≠ '"' ∧ char ≠ '\\' := ⟨notQuote, notBackslash⟩
    rw [List.singleton_append, LexState.run]
    simp only [LexState.step, if_neg ordinary.1, if_neg ordinary.2, List.nil_append]
  all_goals rfl

private theorem run_literal (contents more rest : List Char) :
    (LexState.literal contents).run (more.flatMap Literal.escapeChar ++ ('"' :: rest)) =
      .literal (String.ofList (contents ++ more)) :: lex rest := by
  induction more generalizing contents with
  | nil =>
      rw [List.append_nil]
      rfl
  | cons char more ih =>
      rw [List.flatMap_cons, List.append_assoc, run_escapeChar, ih, List.append_assoc]
      rfl

theorem lex_quote (contents : String) (rest : List Char) :
    lex ((Literal.quote contents).toList ++ rest) = .literal contents :: lex rest := by
  have scanned := run_literal [] contents.toList rest
  rw [List.nil_append, String.ofList_toList] at scanned
  rw [Literal.toList_quote, List.cons_append, List.append_assoc]
  exact scanned

theorem breaks_nil : Breaks [] := by
  intro char isHead
  cases isHead

theorem lex_digits (number : Nat) {rest : List Char} (breaks : Breaks rest) :
    lex ((toString number).toList ++ rest) = .number (toString number) :: lex rest := by
  have digits : ∀ char ∈ (toString number).toList, char.isDigit :=
    fun char member => isDigit_of_mem_numeral member
  have allWord : ∀ char ∈ (toString number).toList, isWordChar char := by
    intro char member
    simp [isWordChar, digits char member]
  have startsWithDigit : (toString number).toList.head?.any (·.isDigit) := by
    cases spelled : (toString number).toList with
    | nil => exact absurd spelled (numeral_ne_nil number)
    | cons first more => exact digits first (by rw [spelled]; exact List.mem_cons_self)
  rw [lex_word (numeral_ne_nil number) allWord breaks, Token.ofWord, if_pos startsWithDigit,
    String.ofList_toList]

/-- The tokens of a number: its digits, after a sign if it is negative. -/
theorem lex_number (number : Int) {rest : List Char} (breaks : Breaks rest) :
    lex ((toString number).toList ++ rest) =
      match number with
      | .ofNat magnitude => .number (toString magnitude) :: lex rest
      | .negSucc magnitude => .symbol '-' :: .number (toString (magnitude + 1)) :: lex rest := by
  cases number with
  | ofNat magnitude => exact lex_digits magnitude breaks
  | negSucc magnitude =>
      have digits := lex_digits (magnitude + 1) breaks
      change lex (("-" ++ toString (magnitude + 1)).toList ++ rest) = _
      rw [String.toList_append, List.append_assoc]
      change .symbol '-' :: lex ((toString (magnitude + 1)).toList ++ rest) = _
      rw [digits]

namespace LexState

def after (state : LexState) (text : List Char) : LexState :=
  text.foldl (fun state char => (state.step char).2) state

def completed : LexState → List Char → List Token
  | _, [] => []
  | state, char :: rest => (state.step char).1 ++ completed (state.step char).2 rest

theorem run_append (state : LexState) (text rest : List Char) :
    state.run (text ++ rest) = state.completed text ++ (state.after text).run rest := by
  induction text generalizing state with
  | nil => rfl
  | cons char text ih =>
      rw [List.cons_append, run, ih, completed, List.append_assoc]
      rfl

theorem run_eq_completed (state : LexState) (text : List Char) :
    state.run text = state.completed text ++ (state.after text).finish := by
  have whole := run_append state text []
  rw [List.append_nil] at whole
  exact whole

end LexState

/-- A text that does not end in a word is complete in itself. -/
theorem lex_append_of_closed {text : List Char}
    (closed : LexState.between.after text = .between) (rest : List Char) :
    lex (text ++ rest) = lex text ++ lex rest := by
  have alone := LexState.run_eq_completed .between text
  rw [closed, show LexState.between.finish = [] from rfl, List.append_nil] at alone
  have whole := LexState.run_append .between text rest
  rw [closed, ← alone] at whole
  exact whole

theorem lex_append_of_breaks {text rest spelled : List Char}
    (inWord : LexState.between.after text = .word spelled) (breaks : Breaks rest) :
    lex (text ++ rest) = lex text ++ lex rest := by
  have alone := LexState.run_eq_completed .between text
  rw [inWord] at alone
  have whole := LexState.run_append .between text rest
  rw [inWord, run_word_of_breaks spelled breaks] at whole
  change LexState.between.run (text ++ rest) = LexState.between.run text ++ lex rest
  rw [whole, alone, LexState.finish, List.append_assoc]
  rfl

end TigerTree
