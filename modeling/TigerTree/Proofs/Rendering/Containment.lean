import TigerTree.Proofs.Rendering.Comments
import TigerTree.Proofs.Rendering.Lines

/-! What may stand in a comment. A lowered name is printed as it is, so it may close its comment too
early. That does no harm if the next comment is opened right there, since then the words are deleted
with their comments; and otherwise no two texts behind the words are both left as they were. -/

set_option autoImplicit false

namespace TigerTree

variable {Child Other : Type}

/-- Behind `/*` the words are comments to their end: where one is closed, the words end or the next
is opened at once. -/
def endsAsComment : List Char → Bool
  | ['*', '/'] => true
  | '*' :: '/' :: '/' :: '*' :: rest => endsAsComment rest
  | '*' :: '/' :: _ => false
  | _ :: rest => endsAsComment rest
  | [] => false

/-- As the words of a comment the text is deleted with it. -/
def staysInComment (words : String) : Bool :=
  endsAsComment (words.toList ++ ['*', '/'])

theorem dropComments_comment_cons {char : Char} {words : List Char}
    (goesOn : ∀ tail, char = '*' → words ≠ '/' :: tail) :
    dropComments .comment (char :: words) = dropComments .comment words := by
  rw [dropComments]
  exact goesOn

theorem dropComments_of_endsAsComment {words : List Char} (ends : endsAsComment words)
    (rest : List Char) :
    dropComments .comment (words ++ rest) = dropComments .outside rest := by
  fun_induction endsAsComment words with
  | case1 => rfl
  | case2 later ih => exact ih ends
  | case3 tail => cases ends
  | case4 char tail _ _ goesOn ih =>
      rw [List.cons_append, dropComments_comment_cons, ih ends]
      intro other isStar isSlash
      cases tail with
      | nil => cases ends
      | cons next later =>
          cases isSlash
          exact goesOn later isStar rfl
  | case5 => cases ends

theorem staysInComment_of_contained {words : String}
    (contained : closesComment words.toList = false) : staysInComment words := by
  have ends {letters : List Char} (contained : closesComment letters = false) :
      endsAsComment (letters ++ ['*', '/']) := by
    induction letters with
    | nil => rfl
    | cons char letters ih =>
        obtain ⟨later, goesOn⟩ := closesComment_cons contained
        rw [List.cons_append, endsAsComment]
        · exact ih later
        · exact goesOn [] []
        · exact fun tail => goesOn [] ('/' :: '*' :: tail)
        · exact goesOn []
  exact ends contained

theorem staysInComment_of_isIdentifier {words : String} (identifier : isIdentifier words) :
    staysInComment words := by
  apply staysInComment_of_contained
  apply closesComment_of_not_mem
  intro member
  exact absurd (isWordChar_of_mem identifier member) (by decide)

/-! ### Words that are not

Two texts behind the words suffice to tell. Where a comment is closed too early and none is opened,
something of the words is copied. What stands behind them is then copied after it or dropped, and a
text that is dropped leaves the same as the other. -/

/-- Nothing in the text can start or end a literal or a comment. -/
def IsInert (text : List Char) : Prop :=
  text.all (fun char => char ∉ ['/', '*', '"', '\\'])

theorem append_ne_cons {words rest : List Char} {char : Char} (absent : char ∉ rest)
    (other : ∀ tail, words ≠ char :: tail) (tail : List Char) : words ++ rest ≠ char :: tail := by
  intro same
  cases words with
  | nil =>
      rw [List.nil_append] at same
      exact absent (same ▸ List.mem_cons_self)
  | cons next words =>
      cases same
      exact other words rfl

namespace IsInert

variable {rest : List Char}

theorem notMem (inert : IsInert rest) {char : Char} (marks : char ∈ ['/', '*', '"', '\\']) :
    char ∉ rest :=
  fun member => of_decide_eq_true (List.all_eq_true.mp inert char member) marks

theorem tail {char : Char} (inert : IsInert (char :: rest)) : IsInert rest := by
  unfold IsInert at inert
  rw [List.all_cons, Bool.and_eq_true] at inert
  exact inert.2

theorem dropComments_comment (inert : IsInert rest) : dropComments .comment rest = [] := by
  induction rest with
  | nil => rfl
  | cons char rest ih =>
      rw [dropComments_comment_cons, ih inert.tail]
      intro _ isStar
      exact absurd (isStar ▸ List.mem_cons_self) (inert.notMem (by decide : '*' ∈ _))

theorem dropComments_of_ne (inert : IsInert rest) {scan : Scan} (copies : scan ≠ .comment) :
    dropComments scan rest = rest := by
  induction rest generalizing scan with
  | nil => cases scan <;> rfl
  | cons char rest ih =>
      have later {scan : Scan} (copies : scan ≠ .comment) : dropComments scan rest = rest :=
        ih inert.tail copies
      have differs {mark : Char} (marks : mark ∈ ['/', '*', '"', '\\']) : char ≠ mark := by
        rintro rfl
        exact inert.notMem marks List.mem_cons_self
      cases scan with
      | outside =>
          rw [dropComments_outside_cons _ (differs (by decide)) (differs (by decide)),
            later Scan.noConfusion]
      | literal =>
          rw [dropComments, later Scan.noConfusion]
          · exact differs (by decide)
          · exact differs (by decide)
      | escaped => rw [dropComments, later Scan.noConfusion]
      | comment => exact absurd rfl copies

end IsInert

/-- Behind the words the scan copies every inert text, or drops every one. -/
def Scan.Decides (scan : Scan) (words : List Char) : Prop :=
  (∀ rest, IsInert rest → dropComments scan (words ++ rest) = dropComments scan words ++ rest) ∨
    ∀ rest, IsInert rest → dropComments scan (words ++ rest) = dropComments scan words

theorem Scan.Decides.cons {scan next : Scan} {char : Char} {words : List Char}
    (decides : next.Decides words) (kept : List Char)
    (steps : ∀ rest, IsInert rest →
      dropComments scan (char :: (words ++ rest)) = kept ++ dropComments next (words ++ rest)) :
    scan.Decides (char :: words) := by
  have alone : dropComments scan (char :: words) = kept ++ dropComments next words := by
    have stepped := steps [] rfl
    rwa [List.append_nil] at stepped
  unfold Decides
  simp only [alone, List.cons_append, List.append_assoc]
  refine decides.imp ?_ ?_
  · intro same rest inert
    rw [steps rest inert, same rest inert]
  · intro same rest inert
    rw [steps rest inert, same rest inert]

theorem Scan.decides (scan : Scan) (words : List Char) : scan.Decides words := by
  fun_induction dropComments scan words with
  | case1 scan =>
      by_cases copies : scan = .comment
      · subst copies
        exact .inr (fun rest inert => inert.dropComments_comment)
      · exact .inl (fun rest inert => inert.dropComments_of_ne copies)
  | case2 words ih => exact ih
  | case3 words ih => exact ih.cons ['"'] (fun _ _ => rfl)
  | case4 char words notOpening notQuote ih =>
      refine ih.cons [char] (fun rest inert => ?_)
      rw [dropComments]
      · rfl
      · intro tail isSlash
        exact append_ne_cons (inert.notMem (by decide)) (notOpening · isSlash) tail
      · exact notQuote
  | case5 words ih => exact ih.cons ['\\'] (fun _ _ => rfl)
  | case6 words ih => exact ih.cons ['"'] (fun _ _ => rfl)
  | case7 char words notBackslash notQuote ih =>
      refine ih.cons [char] (fun rest _ => ?_)
      rw [dropComments]
      · rfl
      · exact notBackslash
      · exact notQuote
  | case8 char words ih =>
      refine ih.cons [char] (fun rest _ => ?_)
      rw [dropComments]
      rfl
  | case9 words ih => exact ih
  | case10 char words goesOn ih =>
      refine ih.cons [] (fun rest inert => dropComments_comment_cons ?_)
      intro tail isStar
      exact append_ne_cons (inert.notMem (by decide)) (goesOn · isStar) tail

/-- Outside of comments something is copied, unless one begins. -/
theorem dropComments_ne_nil {words : List Char} (some : words ≠ [])
    (unopened : ∀ tail, words ≠ '/' :: '*' :: tail) : dropComments .outside words ≠ [] := by
  cases words with
  | nil => exact absurd rfl some
  | cons char words =>
      by_cases isQuote : char = '"'
      · rw [isQuote, dropComments]
        exact List.cons_ne_nil _ _
      · rw [dropComments]
        · exact List.cons_ne_nil _ _
        · intro tail isSlash isStar
          exact unopened tail (by rw [isSlash, isStar])
        · exact isQuote

/-- If the words give back two different texts behind them, they are comments to their end. -/
theorem endsAsComment_of_restores {words first second : List Char} (inertFirst : IsInert first)
    (inertSecond : IsInert second) (differ : first ≠ second)
    (restoresFirst : dropComments .comment (words ++ first) = first)
    (restoresSecond : dropComments .comment (words ++ second) = second) :
    endsAsComment words := by
  fun_induction endsAsComment words with
  | case1 => rfl
  | case2 words ih => exact ih restoresFirst restoresSecond
  | case3 tail goesOn unopened =>
      -- the comment is closed before the end and none is opened, so the tail is scanned as text
      rcases Scan.outside.decides tail with copies | drops
      · have copied := copies first inertFirst
        change dropComments .outside (tail ++ first) = first at restoresFirst
        rw [restoresFirst, List.self_eq_append_left] at copied
        exact absurd copied (dropComments_ne_nil goesOn unopened)
      · have dropped := (drops first inertFirst).trans (drops second inertSecond).symm
        exact absurd (restoresFirst.symm.trans (dropped.trans restoresSecond)) differ
  | case4 char words notEnd notNext goesOn ih =>
      have unclosed {rest : List Char} (inert : IsInert rest) :
          dropComments .comment (char :: words ++ rest) = dropComments .comment (words ++ rest) :=
        dropComments_comment_cons (fun tail isStar =>
          append_ne_cons (inert.notMem (by decide)) (goesOn · isStar) tail)
      rw [unclosed inertFirst] at restoresFirst
      rw [unclosed inertSecond] at restoresSecond
      exact ih restoresFirst restoresSecond
  | case5 =>
      have none := inertFirst.dropComments_comment.symm.trans restoresFirst
      have noneToo := inertSecond.dropComments_comment.symm.trans restoresSecond
      exact absurd (none.symm.trans noneToo) differ

/-- The lowered name of a function, if there is one, is deleted with its comment. -/
def Layer.isConfined (layer : Layer Child) : Bool :=
  layer.loweredName?.all (fun name => name.toOption.all staysInComment)

theorem Layer.isConfined_map (change : Child → Other) (layer : Layer Child) :
    (layer.map change).isConfined = layer.isConfined := by
  cases layer <;> rfl

theorem Layer.staysInComment_note {layer : Layer Child} {words : String}
    (confined : layer.isConfined) (noted : layer.note = some (.ok words)) :
    staysInComment words := by
  rcases layer.note_cases noted with ⟨heading, loweredName, parameters, body, rfl, isText⟩ | plain
  · simpa [isConfined, loweredName?, isText, Except.toOption] using confined
  · exact staysInComment_of_contained (closesComment_of_isNoteChar plain)

/-- Where every comment is deleted as one, the plain text is left. -/
theorem Arena.withoutComments_of_confined {arena : Arena} {root : NodeId} {indentSize : UInt64}
    {plainText : String} (acyclic : arena.Acyclic root)
    (intact : arena.Throughout (fun layer => layer.isIntact) root)
    (wellNamed : arena.Throughout (fun layer => layer.isWellNamed) root)
    (confined : arena.Throughout (fun layer => layer.isConfined) root)
    (rendered : arena.render ⟨indentSize, false⟩ root = .ok plainText) :
    ∃ text, arena.render ⟨indentSize, true⟩ root = .ok text ∧ withoutComments text = plainText := by
  have notes : (arena.unfold root).Throughout (fun layer =>
      layer.isWellNamed ∧ ∀ words, layer.note = some (.ok words) → staysInComment words) := by
    have both : arena.Throughout (fun layer => layer.isWellNamed ∧ layer.isConfined) root :=
      fun node reached => ⟨wellNamed node reached, confined node reached⟩
    refine throughout_unfold ?_ acyclic both
    intro layer change holds
    rw [← Layer.isWellNamed_map change, ← Layer.isConfined_map change] at holds
    exact ⟨holds.1, fun _ => Layer.staysInComment_note holds.2⟩
  have scans : ∀ piece ∈ ((arena.unfold root).passage true).pieces,
      piece.Scans indentSize 0 := by
    intro piece member
    have noted := Tree.notes_of_mem_passage true notes piece member
    cases piece with
    | text words => exact noted.passes
    | comment words =>
        apply Piece.scans_comment
        intro rest
        have scanned := dropComments_of_endsAsComment noted rest
        rwa [List.append_assoc] at scanned
    | literal contents => exact Piece.scans_literal contents
    | line level => exact Piece.scans_line level
  have bare := Tree.uncommented_passage (intact_unfold acyclic intact)
  obtain ⟨complete, isPlain⟩ := spell_of_render rfl rendered
  have fits : Fits indentSize 0 ((arena.unfold root).passage false).pieces :=
    fits_of_render rfl rendered
  rw [← bare] at fits complete isPlain
  have verboseText : arena.render ⟨indentSize, true⟩ root = _ :=
    render_of_fits rfl ((Fits.uncommented _).mp fits)
  rw [show ((arena.unfold root).passage true).stop = none from complete] at verboseText
  exact ⟨_, verboseText, (withoutComments_of_scans scans).trans isPlain.symm⟩

end TigerTree
