import Mathlib.Data.List.Basic
import TigerTree.Proofs.Rendering.Drafting

/-! The text of a passage. Laying a draft on a page appends the characters of its pieces, as long
as no line is too wide; so the text of a node is the text of the passage of its tree. -/

set_option autoImplicit false

namespace TigerTree

variable {indentSize : UInt64} {base : Nat}

def Piece.chars (indentSize : UInt64) (base : Nat) : Piece → List Char
  | .text words => words.toList
  | .literal contents => (Literal.quote contents).toList
  | .comment words => ("/*" ++ words ++ "*/").toList
  | .line level => '\n' :: List.replicate ((base + level) * indentSize.toNat) ' '

def spell (indentSize : UInt64) (base : Nat) (pieces : List Piece) : List Char :=
  pieces.flatMap (Piece.chars indentSize base)

/-- No line of the pieces is too wide. -/
def Fits (indentSize : UInt64) (base : Nat) (pieces : List Piece) : Prop :=
  ∀ level, .line level ∈ pieces → (base + level) * indentSize.toNat < Page.widthLimit

theorem Literal.toList_quote (contents : String) :
    (quote contents).toList = '"' :: (contents.toList.flatMap escapeChar ++ ['"']) := by
  simp [quote, escape]

theorem spell_cons (piece : Piece) (rest : List Piece) :
    spell indentSize base (piece :: rest) =
      piece.chars indentSize base ++ spell indentSize base rest :=
  List.flatMap_cons

theorem spell_append (first second : List Piece) :
    spell indentSize base (first ++ second) =
      spell indentSize base first ++ spell indentSize base second :=
  List.flatMap_append

/-- What is nested is spelled as if it had started deeper. -/
theorem spell_raise (levels : Nat) (pieces : List Piece) :
    spell indentSize base (pieces.map (Piece.raise levels)) =
      spell indentSize (base + levels) pieces := by
  unfold spell
  rw [List.flatMap_map]
  refine List.flatMap_congr ?_
  intro piece _
  cases piece with
  | line level => simp only [Piece.raise, Piece.chars, Nat.add_assoc, Nat.add_comm level]
  | _ => rfl

private theorem pushn_eq_append (text : String) (char : Char) (count : Nat) :
    text.pushn char count = text ++ String.ofList (List.replicate count char) := by
  apply String.toList_injective
  rw [String.pushn_eq_repeat_push, String.toList_append, String.toList_ofList]
  induction count with
  | zero => simp [Nat.repeat]
  | succ count ih => simp [Nat.repeat, ih, List.replicate_succ']

theorem Page.breakLine_of_fits (page : Page)
    (narrow : page.level * page.style.indentSize.toNat < Page.widthLimit) :
    Page.breakLine page = .ok () { page with
      text := page.text ++
        String.ofList ((Piece.line 0).chars page.style.indentSize page.level) } := by
  have text : (page.text.push '\n').pushn ' ' (page.level * page.style.indentSize.toNat) =
      page.text ++ String.ofList ((Piece.line 0).chars page.style.indentSize page.level) := by
    apply String.toList_injective
    simp [pushn_eq_append, Piece.chars]
  simp only [Page.breakLine, Page.indentWidth, if_pos narrow, text]

private theorem place_eq (base : Nat) (piece : Piece) (page : Page)
    (fits : Fits page.style.indentSize base [piece]) :
    ∃ level, Draft.place base piece page =
      .ok () ⟨page.text ++ String.ofList (piece.chars page.style.indentSize base), level,
        page.style⟩ := by
  cases piece with
  | text words => exact ⟨page.level, by simp [Draft.place, Page.emit, Piece.chars]⟩
  | literal contents => exact ⟨page.level, by simp [Draft.place, Page.emit, Piece.chars]⟩
  | comment words =>
      exact ⟨page.level, by simp only [Draft.place, Page.emit, Piece.chars, String.ofList_toList]⟩
  | line level =>
      have narrow := fits level (List.mem_singleton_self _)
      have broken := Page.breakLine_of_fits { page with level := base + level } narrow
      refine ⟨base + level, ?_⟩
      simp only [Draft.place, bind, EStateM.bind, Page.setLevel, broken, Piece.chars,
        Nat.add_zero]

private theorem forM_place_of_fits (pieces : List Piece) (page : Page)
    (fits : Fits page.style.indentSize base pieces) :
    ∃ level, pieces.forM (Draft.place base) page =
      .ok () ⟨page.text ++ String.ofList (spell page.style.indentSize base pieces), level,
        page.style⟩ := by
  induction pieces generalizing page with
  | nil => exact ⟨page.level, by simp [spell, pure, EStateM.pure]⟩
  | cons piece rest ih =>
      obtain ⟨reached, placed⟩ := place_eq base piece page
        (fun level member => fits level (by simp_all))
      obtain ⟨level, later⟩ := ih ⟨page.text ++ String.ofList
        (piece.chars page.style.indentSize base), reached, page.style⟩
        (fun level member => fits level (List.mem_cons_of_mem _ member))
      refine ⟨level, ?_⟩
      change (Draft.place base piece >>= fun _ => rest.forM (Draft.place base)) page = _
      simp only [bind, EStateM.bind, placed, later, spell_cons, String.ofList_append,
        String.append_assoc]

private theorem forM_place_of_not_fits (pieces : List Piece) (page : Page)
    (wide : ¬ Fits page.style.indentSize base pieces) :
    ∃ page', pieces.forM (Draft.place base) page = .error .arithmeticOverflow page' := by
  induction pieces generalizing page with
  | nil => exact absurd (fun _ member => by cases member) wide
  | cons piece rest ih =>
      change ∃ page', (Draft.place base piece >>= fun _ => rest.forM (Draft.place base)) page = _
      by_cases fits : Fits page.style.indentSize base [piece]
      · obtain ⟨reached, placed⟩ := place_eq base piece page fits
        have wideRest : ¬ Fits page.style.indentSize base rest := by
          intro fitsRest
          refine wide ?_
          intro level member
          rcases List.mem_cons.mp member with here | later
          · exact fits level (by simp [here])
          · exact fitsRest level later
        obtain ⟨page', failed⟩ := ih ⟨page.text ++ String.ofList
          (piece.chars page.style.indentSize base), reached, page.style⟩ wideRest
        refine ⟨page', ?_⟩
        simp only [bind, EStateM.bind, placed, failed]
      · cases piece with
        | line level =>
            have overflow : ¬ (base + level) * page.style.indentSize.toNat < Page.widthLimit := by
              intro narrow
              refine fits ?_
              intro other member
              cases List.mem_singleton.mp member
              exact narrow
            refine ⟨{ page with level := base + level }, ?_⟩
            simp only [Draft.place, bind, EStateM.bind, Page.setLevel, Page.breakLine,
              Page.indentWidth, if_neg overflow]
        | text words => exact absurd (by intro level member; simp at member) fits
        | literal contents => exact absurd (by intro level member; simp at member) fits
        | comment words => exact absurd (by intro level member; simp at member) fits

/-- Laying a draft on a page appends its text. -/
theorem layOn_of_fits (draft : Draft) (page : Page)
    (fits : Fits page.style.indentSize page.level draft.pieces.toList) :
    draft.layOn page = .ok ()
      ⟨page.text ++ String.ofList (spell page.style.indentSize page.level draft.pieces.toList),
        page.level + draft.level, page.style⟩ := by
  obtain ⟨level, placed⟩ := forM_place_of_fits _ _ fits
  simp only [Draft.layOn, bind, EStateM.bind, Page.currentLevel, placed, Page.setLevel]

theorem layOn_of_not_fits (draft : Draft) (page : Page)
    (wide : ¬ Fits page.style.indentSize page.level draft.pieces.toList) :
    ∃ page', draft.layOn page = .error .arithmeticOverflow page' := by
  obtain ⟨page', failed⟩ := forM_place_of_not_fits _ _ wide
  exact ⟨page', by simp only [Draft.layOn, bind, EStateM.bind, Page.currentLevel, failed]⟩

section

variable {arena : Arena} {style : Style} {node : NodeId} {passage : Passage}

private theorem draftWithin_blank
    (isPassage : (arena.unfold node).passage style.verbose = passage) :
    arena.draftWithin style.verbose arena.pathBound node Draft.blank =
      match passage.stop with
      | none => .ok () ⟨passage.pieces.toArray, 0⟩
      | some (stop, depth) => .error stop ⟨passage.pieces.toArray, depth⟩ := by
  rw [draftWithin_eq_perform, ← Arena.unfold, isPassage]
  cases stops : passage.stop with
  | none => simp [Passage.perform, Draft.blank, Piece.map_raise_zero, stops]
  | some stopped => simp [Passage.perform, Draft.blank, Piece.map_raise_zero, stops]

/-- Rendering a node on a page appends the text of its passage at the level of the page. -/
theorem renderOn_of_fits {page : Page}
    (isPassage : (arena.unfold node).passage page.style.verbose = passage)
    (fits : Fits page.style.indentSize page.level passage.pieces) :
    arena.renderOn node page =
      let text := page.text ++
        String.ofList (spell page.style.indentSize page.level passage.pieces)
      match passage.stop with
      | none => .ok () ⟨text, page.level, page.style⟩
      | some (stop, depth) => .error stop ⟨text, page.level + depth, page.style⟩ := by
  have drafted := draftWithin_blank isPassage
  cases stops : passage.stop with
  | none =>
      rw [stops] at drafted
      have laid := layOn_of_fits ⟨passage.pieces.toArray, 0⟩ page fits
      simp only [Arena.renderOn, drafted, laid, Nat.add_zero]
  | some stopped =>
      rw [stops] at drafted
      have laid := layOn_of_fits ⟨passage.pieces.toArray, stopped.2⟩ page fits
      simp only [Arena.renderOn, drafted, laid]

theorem renderOn_of_not_fits {page : Page}
    (isPassage : (arena.unfold node).passage page.style.verbose = passage)
    (wide : ¬ Fits page.style.indentSize page.level passage.pieces) :
    ∃ page', arena.renderOn node page = .error (.faulted .arithmeticOverflow) page' := by
  have drafted := draftWithin_blank isPassage
  cases stops : passage.stop with
  | none =>
      rw [stops] at drafted
      obtain ⟨page', failed⟩ := layOn_of_not_fits ⟨passage.pieces.toArray, 0⟩ page wide
      exact ⟨page', by simp only [Arena.renderOn, drafted, failed]⟩
  | some stopped =>
      rw [stops] at drafted
      obtain ⟨page', failed⟩ := layOn_of_not_fits ⟨passage.pieces.toArray, stopped.2⟩ page wide
      exact ⟨page', by simp only [Arena.renderOn, drafted, failed]⟩

/-- Rendering a node spells the passage of its tree, or stops where the passage does. -/
theorem render_of_fits (isPassage : (arena.unfold node).passage style.verbose = passage)
    (fits : Fits style.indentSize 0 passage.pieces) :
    arena.render style node =
      match passage.stop with
      | none => .ok (String.ofList (spell style.indentSize 0 passage.pieces))
      | some (stop, _) => .error stop := by
  have rendered : arena.renderOn node (Page.blank style) = _ :=
    renderOn_of_fits isPassage fits
  rw [Arena.render, rendered]
  cases passage.stop with
  | none => simp [Page.blank]
  | some stopped => rfl

theorem render_of_not_fits (isPassage : (arena.unfold node).passage style.verbose = passage)
    (wide : ¬ Fits style.indentSize 0 passage.pieces) :
    arena.render style node = .error (.faulted .arithmeticOverflow) := by
  have failed : ∃ page', arena.renderOn node (Page.blank style) = _ :=
    renderOn_of_not_fits isPassage wide
  obtain ⟨page', failed⟩ := failed
  rw [Arena.render, failed]

/-- A rendering depends on the passage of the tree alone. -/
theorem render_eq_of_passage_eq {other : Arena} {otherNode : NodeId}
    (same : (arena.unfold node).passage style.verbose =
      (other.unfold otherNode).passage style.verbose) :
    arena.render style node = other.render style otherNode := by
  by_cases fits : Fits style.indentSize 0 ((other.unfold otherNode).passage style.verbose).pieces
  · rw [render_of_fits same fits, render_of_fits rfl fits]
  · rw [render_of_not_fits same fits, render_of_not_fits rfl fits]

/-- Where rendering succeeds, the passage does not stop and no line of it is too wide. -/
theorem fits_of_renderOn {page reached : Page}
    (isPassage : (arena.unfold node).passage page.style.verbose = passage)
    (rendered : arena.renderOn node page = .ok () reached) :
    passage.stop = none ∧ Fits page.style.indentSize page.level passage.pieces ∧
      reached = ⟨page.text ++
        String.ofList (spell page.style.indentSize page.level passage.pieces),
        page.level, page.style⟩ := by
  have fits : Fits page.style.indentSize page.level passage.pieces := by
    by_contra wide
    obtain ⟨page', failed⟩ := renderOn_of_not_fits isPassage wide
    rw [failed] at rendered
    cases rendered
  rw [renderOn_of_fits isPassage fits] at rendered
  cases stops : passage.stop with
  | none =>
      rw [stops] at rendered
      cases rendered
      exact ⟨rfl, fits, rfl⟩
  | some stopped =>
      rw [stops] at rendered
      cases rendered

theorem fits_of_render (isPassage : (arena.unfold node).passage style.verbose = passage)
    {text : String} (rendered : arena.render style node = .ok text) :
    Fits style.indentSize 0 passage.pieces := by
  by_contra wide
  rw [render_of_not_fits isPassage wide] at rendered
  cases rendered

/-- A text that was rendered spells a passage that does not stop. -/
theorem spell_of_render (isPassage : (arena.unfold node).passage style.verbose = passage)
    {text : String} (rendered : arena.render style node = .ok text) :
    passage.stop = none ∧ text = String.ofList (spell style.indentSize 0 passage.pieces) := by
  have fits := fits_of_render isPassage rendered
  rw [render_of_fits isPassage fits] at rendered
  cases stops : passage.stop with
  | none =>
      rw [stops] at rendered
      exact ⟨rfl, (Except.ok.inj rendered).symm⟩
  | some stopped =>
      rw [stops] at rendered
      cases rendered

end

end TigerTree
