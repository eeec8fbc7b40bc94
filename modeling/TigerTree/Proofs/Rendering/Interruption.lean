import TigerTree.Proofs.Rendering.Places

/-! Where a rendering that fails breaks off. With literals in place of the expressions that have no
text, rendering succeeds. Up to the literal at the first of them the failed rendering has written
the same, and it has not come back from the levels that this place is deeper than the root. -/

set_option autoImplicit false

namespace TigerTree

variable {Child : Type} {verbose : Bool}

/-- The layer, or an integer literal in its place if it has no text. -/
def Layer.overwritten (value : Int32) (layer : Layer Child) : Layer Child :=
  match layer.violation? with
  | some (_, location) => .int location value
  | none => layer

theorem Layer.overwritten_of_some (value : Int32) {layer : Layer Child}
    {found : Violation × Location} (violated : layer.violation? = some found) :
    layer.overwritten value = .int found.2 value := by
  rw [overwritten, violated]

theorem Layer.overwritten_of_none (value : Int32) {layer : Layer Child}
    (sound : layer.violation? = none) : layer.overwritten value = layer := by
  rw [overwritten, sound]

namespace Arena

def overwrittenExpr (arena : Arena) (value : Int32) (expr : Expr) : Expr :=
  match arena.shape expr.form with
  | .ok shape =>
      match (arena.shapeLayer expr.location shape).violation? with
      | some _ => { expr with form := .int value }
      | none => expr
  | .error _ => expr

def overwritten (arena : Arena) (literals : NodeId → Int32) : Arena :=
  { arena with
    exprs := arena.exprs.mapIdx (fun index expr =>
      arena.overwrittenExpr (literals (.expr ⟨index.toUInt32⟩)) expr) }

variable {arena : Arena} (literals : NodeId → Int32)

theorem pathBound_overwritten : (arena.overwritten literals).pathBound = arena.pathBound := by
  simp [pathBound, overwritten]

theorem location_overwrittenExpr (value : Int32) (expr : Expr) :
    (arena.overwrittenExpr value expr).location = expr.location := by
  unfold overwrittenExpr
  split
  · split <;> rfl
  · rfl

theorem expr_overwritten (id : ExprId) :
    (arena.overwritten literals).expr id =
      (arena.expr id).map (arena.overwrittenExpr (literals (.expr id))) := by
  simp only [expr, overwritten, Array.getElem?_mapIdx]
  cases arena.exprs[id.index.toNat]? with
  | none => rfl
  | some stored => simp [Except.map]

/-- Only forms change, and a layer looks up no form but its own. -/
theorem shapeLayer_overwritten (location : Location) (shape : Shape) :
    (arena.overwritten literals).shapeLayer location shape =
      arena.shapeLayer location shape := by
  cases shape with
  | breakLoop target =>
      cases target with
      | none => rfl
      | some loop =>
          simp only [shapeLayer, Option.map_some, expr_overwritten]
          cases arena.expr loop with
          | error fault => rfl
          | ok stored => simp [Except.map, location_overwrittenExpr]
  | _ => rfl

theorem location_of_violation {location : Location} {shape : Shape}
    {found : Violation × Location}
    (violated : (arena.shapeLayer location shape).violation? = some found) :
    found.2 = location := by
  cases shape with
  | sequence elements =>
      cases elements with
      | nil => cases violated; rfl
      | cons first rest => cases violated
  | letIn decls body =>
      cases body with
      | nil => cases violated; rfl
      | cons first rest => cases violated
  | forLoop loopVariable high body =>
      simp only [shapeLayer] at violated
      cases start : arena.loopStart loopVariable with
      | missing =>
          rw [start] at violated
          cases violated
          rfl
      | lost fault | bound heading low =>
          rw [start] at violated
          cases violated
  | _ => cases violated

theorem violation?_decl (id : DeclId) : (arena.layer (.decl id)).violation? = none := by
  simp only [layer]
  split
  · rfl
  · unfold declLayer
    split <;> rfl

theorem layer_overwritten (node : NodeId) :
    (arena.overwritten literals).layer node = (arena.layer node).overwritten (literals node) := by
  cases node with
  | decl id =>
      rw [Layer.overwritten_of_none _ (violation?_decl id)]
      rfl
  | expr id =>
      have stored : (arena.overwritten literals).expr id = _ := expr_overwritten literals id
      cases found : arena.expr id with
      | error fault =>
          rw [found] at stored
          rw [layer_expr_missing found, layer_expr_missing stored]
          rfl
      | ok expr =>
          rw [found, Except.map, overwrittenExpr] at stored
          cases resolved : arena.shape expr.form with
          | error fault =>
              rw [resolved] at stored
              rw [layer_expr_unresolved found resolved, layer_expr_unresolved stored resolved]
              rfl
          | ok shape =>
              rw [resolved] at stored
              rw [layer_expr found resolved]
              cases violated : (arena.shapeLayer expr.location shape).violation? with
              | none =>
                  simp only [violated] at stored
                  rw [layer_expr stored resolved, shapeLayer_overwritten,
                    Layer.overwritten_of_none _ violated]
              | some objection =>
                  simp only [violated] at stored
                  have literal : (arena.overwritten literals).shape
                      (.int (literals (.expr id))) = .ok (.int (literals (.expr id))) := rfl
                  rw [layer_expr stored literal, Layer.overwritten_of_some _ violated,
                    location_of_violation violated]
                  rfl

end Arena

/-! ### Passages that break off -/

def Piece.numeral (value : Int32) : Piece := .text (toString value.toInt)

theorem line_mem_map_raise {levels level : Nat} {pieces : List Piece} :
    .line level ∈ pieces.map (Piece.raise levels) ↔
      ∃ lower, .line lower ∈ pieces ∧ level = lower + levels := by
  rw [List.mem_map]
  constructor
  · rintro ⟨piece, member, same⟩
    cases piece with
    | line lower =>
        cases same
        exact ⟨lower, member, rfl⟩
    | text words | literal contents | comment words => cases same
  · rintro ⟨lower, member, rfl⟩
    exact ⟨.line lower, member, rfl⟩

namespace Passage

/-- How a passage is related to the one with literals in place of the offenders. Without an offence
they are the same. With one, the passage breaks off as deep as the place of the offence is, and the
other goes on with the literal of the offender; its lines do not depend on the literals. -/
inductive BreaksOff : Passage → Option Place → ((NodeId → Int32) → Passage) → Prop
  | never (pieces : List Piece) : BreaksOff ⟨pieces, none⟩ none (fun _ => ⟨pieces, none⟩)
  | here (pieces : List Piece) (reason : Stop RenderError) (place : Place)
      (after : (NodeId → Int32) → List Piece)
      (lines : ∀ literals others level, .line level ∈ after literals → .line level ∈ after others) :
      BreaksOff ⟨pieces, some (reason, place.depth)⟩ (some place)
        (fun literals => ⟨pieces ++ .numeral (literals place.node) :: after literals, none⟩)

namespace BreaksOff

variable {passage next : Passage} {offence later : Option Place}
  {completed completedNext : (NodeId → Int32) → Passage}

theorem of_complete (complete : passage.stop = none) :
    passage.BreaksOff none (fun _ => passage) := by
  obtain ⟨pieces, stop⟩ := passage
  cases complete
  exact .never pieces

theorem complete (breaks : passage.BreaksOff offence completed) (literals : NodeId → Int32) :
    (completed literals).stop = none := by
  cases breaks <;> rfl

theorem line_mem (breaks : passage.BreaksOff offence completed)
    (literals others : NodeId → Int32) {level : Nat}
    (member : .line level ∈ (completed literals).pieces) :
    .line level ∈ (completed others).pieces := by
  cases breaks with
  | never pieces => exact member
  | here pieces reason place after lines =>
      simp only [List.mem_append, List.mem_cons, Piece.numeral, reduceCtorEq, false_or]
        at member ⊢
      exact member.imp_right (lines literals others level)

theorem append (first : passage.BreaksOff offence completed)
    (second : next.BreaksOff later completedNext) :
    (passage ++ next).BreaksOff (offence.or later)
      (fun literals => completed literals ++ completedNext literals) := by
  cases first with
  | never pieces =>
      -- the second passage alone decides where the two break off
      cases second with
      | never piecesNext => exact .never (pieces ++ piecesNext)
      | here piecesNext reason place after lines =>
          have breaks := here (pieces ++ piecesNext) reason place after lines
          simp only [List.append_assoc] at breaks
          exact breaks
  | here pieces reason place after lines =>
      -- the second passage is not reached, but with literals it follows
      have linesNext (literals others : NodeId → Int32) (level : Nat)
          (member : .line level ∈ after literals ++ (completedNext literals).pieces) :
          .line level ∈ after others ++ (completedNext others).pieces := by
        rw [List.mem_append] at member ⊢
        exact member.imp (lines literals others level) (second.line_mem literals others)
      have breaks := here pieces reason place _ linesNext
      have joined (literals : NodeId → Int32) :
          (⟨pieces ++ .numeral (literals place.node) :: after literals, none⟩ : Passage) ++
              completedNext literals =
            ⟨pieces ++ .numeral (literals place.node) ::
              (after literals ++ (completedNext literals).pieces), none⟩ := by
        rw [append_of_complete rfl, second.complete, List.append_assoc, List.cons_append]
      simp only [joined]
      exact breaks

theorem raise (levels : Nat) (breaks : passage.BreaksOff offence completed) :
    (passage.raise levels).BreaksOff (offence.map (Place.deeper levels))
      (fun literals => (completed literals).raise levels) := by
  cases breaks with
  | never pieces => exact .never (pieces.map (Piece.raise levels))
  | here pieces reason place after lines =>
      have linesRaised (literals others : NodeId → Int32) (level : Nat)
          (member : .line level ∈ (after literals).map (Piece.raise levels)) :
          .line level ∈ (after others).map (Piece.raise levels) := by
        rw [line_mem_map_raise] at member ⊢
        obtain ⟨lower, below, same⟩ := member
        exact ⟨lower, lines literals others lower below, same⟩
      have breaks := here (pieces.map (Piece.raise levels)) reason (place.deeper levels) _
        linesRaised
      simp only [Passage.raise, List.map_append, List.map_cons]
      exact breaks

theorem concat {Source : Type} {sources : List Source} {passage : Source → Passage}
    {offence : Source → Option Place} {completed : (NodeId → Int32) → Source → Passage}
    (each : ∀ source ∈ sources,
      (passage source).BreaksOff (offence source) (fun literals => completed literals source)) :
    (Passage.concat (sources.map passage)).BreaksOff (sources.findSome? offence)
      (fun literals => .concat (sources.map (completed literals))) := by
  induction sources with
  | nil => exact .never []
  | cons source rest ih =>
      have first := each source List.mem_cons_self
      have second := ih (fun later member => each later (List.mem_cons_of_mem _ member))
      rw [findSome?_cons_eq_or]
      exact first.append second

theorem stop_of_none (breaks : passage.BreaksOff none completed) : passage.stop = none := by
  cases breaks
  rfl

theorem stop_of_some {place : Place} (breaks : passage.BreaksOff (some place) completed) :
    ∃ reason, passage.stop = some (reason, place.depth) := by
  cases breaks with
  | here pieces reason place after lines => exact ⟨reason, rfl⟩

theorem pieces_of_some {place : Place} (breaks : passage.BreaksOff (some place) completed)
    (literals : NodeId → Int32) :
    ∃ after, (completed literals).pieces =
      passage.pieces ++ .numeral (literals place.node) :: after := by
  cases breaks with
  | here pieces reason place after lines => exact ⟨after literals, rfl⟩

/-- No line is too wide, whatever the literals are and whether the passage breaks off or not. -/
theorem fits (breaks : passage.BreaksOff offence completed) {indentSize : UInt64} {base : Nat}
    {literals : NodeId → Int32} (fits : Fits indentSize base (completed literals).pieces) :
    Fits indentSize base passage.pieces ∧
      ∀ others, Fits indentSize base (completed others).pieces := by
  have alike (others : NodeId → Int32) : Fits indentSize base (completed others).pieces := by
    intro level member
    exact fits level (breaks.line_mem others literals member)
  constructor
  · intro level member
    apply fits level
    cases breaks with
    | never pieces => exact member
    | here pieces reason place after lines => exact List.mem_append_left _ member
  · exact alike

end BreaksOff
end Passage

section

variable {passage : Child → Passage} {offence : Child → Option Place}
  {completed : (NodeId → Int32) → Child → Passage}

theorem Layer.passage_of_violation {layer : Layer Passage} {found : Violation × Location}
    (violated : layer.violation? = some found) :
    layer.passage verbose = .halt (Stop.ofViolation found) := by
  cases layer with
  | sequence location elements =>
      cases elements with
      | nil => cases violated; rfl
      | cons first rest => cases violated
  | letIn location decls body =>
      cases body with
      | nil => cases violated; rfl
      | cons first rest => cases violated
  | forLoop location start high body =>
      cases start with
      | missing => cases violated; rfl
      | lost fault | bound heading low => cases violated
  | _ => cases violated

/-- Nothing but its children can break a node off that has a text. -/
theorem Layer.stop_of_childless {layer : Layer Child} (readable : layer.isReadable verbose)
    (sound : layer.violation? = none) {item : Item Child} (member : item ∈ layer.sketch)
    (childless : item.position? = none) (passage : Child → Passage) :
    ((item.map passage).passage verbose).stop = none := by
  have complete : ((layer.map (fun _ => Passage.empty)).passage verbose).stop = none := by
    have readableToo : (layer.map (fun _ => Passage.empty)).isReadable verbose := by
      rw [Layer.isReadable_map]
      exact readable
    have reason := Layer.reason?_passage readableToo
    rw [Layer.violation?_map, sound, Layer.children_map, Option.map_none, Option.none_or,
      List.findSome?_eq_none_iff.mpr (by simp)] at reason
    exact Option.map_eq_none_iff.mp reason
  rw [Layer.passage_map] at complete
  have whole := Passage.stop_eq_none_of_mem complete (List.mem_map_of_mem member)
  cases item with
  | child depth inner => cases childless
  | _ => exact whole

theorem Item.breaksOff {item : Item Child}
    (whole : item.position? = none → ((item.map passage).passage verbose).stop = none)
    (below : ∀ levels inner, item = .child levels inner →
      (passage inner).BreaksOff (offence inner) (fun literals => completed literals inner)) :
    ((item.map passage).passage verbose).BreaksOff
      (item.position?.bind (fun (levels, inner) => (offence inner).map (Place.deeper levels)))
      (fun literals => (item.map (completed literals)).passage verbose) := by
  cases item with
  | child levels inner => exact (below levels inner rfl).raise levels
  | _ => exact .of_complete (whole rfl)

/-- A node with a text breaks off where the first of its children does. -/
theorem Layer.breaksOff {layer : Layer Child} (readable : layer.isReadable verbose)
    (sound : layer.violation? = none)
    (below : ∀ child ∈ layer.children,
      (passage child).BreaksOff (offence child) (fun literals => completed literals child)) :
    ((layer.map passage).passage verbose).BreaksOff
      (layer.positions.findSome? (fun (levels, child) =>
        (offence child).map (Place.deeper levels)))
      (fun literals => (layer.map (completed literals)).passage verbose) := by
  have placed := layer.filterMap_sketch (layer.isIntact_of_isReadable readable) sound
  simp only [Layer.passage_map]
  rw [← placed, ← List.head?_filterMap, List.filterMap_filterMap, List.head?_filterMap]
  apply Passage.BreaksOff.concat
  intro item member
  apply Item.breaksOff
  · intro childless
    exact layer.stop_of_childless readable sound member childless passage
  · intro levels child isChild
    subst isChild
    exact below child (layer.admits_of_mem_sketch _ member).2

end

namespace Arena

variable {arena : Arena}

/-- The passage of a node breaks off at the first offender, and goes on in the arena with literals
in place of all offenders. -/
theorem breaksOff_unfoldWithin {length : Nat} {root : NodeId}
    (within : arena.Within length root)
    (readable : arena.Throughout (fun layer => layer.isReadable verbose) root) :
    ((arena.unfoldWithin length root).passage verbose).BreaksOff
      ((arena.placesWithin length root).find? (fun place =>
        (arena.layer place.node).violation?.isSome))
      (fun literals =>
        ((arena.overwritten literals).unfoldWithin length root).passage verbose) := by
  induction length generalizing root with
  | zero => exact within.elim
  | succ length ih =>
      have here : (arena.layer root).isReadable verbose := readable root .refl
      simp only [unfoldWithin, Tree.passage_node, Layer.map_map, layer_overwritten]
      cases violated : (arena.layer root).violation? with
      | some found =>
          simp only [Layer.overwritten_of_some _ violated]
          rw [find?_placesWithin_of_some violated, Layer.passage_of_violation]
          · exact .here [] (Stop.ofViolation found) ⟨root, 0⟩ (fun _ => []) (fun _ _ _ => id)
          · rw [Layer.violation?_map]
            exact violated
      | none =>
          simp only [Layer.overwritten_of_none _ violated]
          rw [find?_placesWithin_of_none violated]
          have below (child : NodeId) (owned : child ∈ (arena.layer root).children) :=
            ih (within child owned) (fun node reached => readable node (.head owned reached))
          exact Layer.breaksOff here violated below

theorem breaksOff_unfold {root : NodeId} (acyclic : arena.Acyclic root)
    (readable : arena.Throughout (fun layer => layer.isReadable verbose) root) :
    ((arena.unfold root).passage verbose).BreaksOff (arena.firstOffence? root)
      (fun literals => ((arena.overwritten literals).unfold root).passage verbose) := by
  unfold unfold firstOffence? places
  simp only [pathBound_overwritten]
  exact breaksOff_unfoldWithin acyclic.within readable

/-! ### Where a rendering breaks off -/

/-- The text of the node begins after the given text: with any literals in place of the
expressions that have no text, the root can be rendered, and the page goes on there with the
literal of the node. -/
def BeginsAfter (arena : Arena) (root : NodeId) (page : Page) (node : NodeId)
    (before : String) : Prop :=
  ∀ literals : NodeId → Int32, ∃ after, (arena.overwritten literals).renderOn root page =
    .ok () { page with
      text := page.text ++ (before ++ toString (literals node).toInt ++ after) }

private theorem eq_of_diverging {before other : List Char} {left right : Char}
    (diverge : left ≠ right) {afterLeft otherLeft afterRight otherRight : List Char}
    (sameLeft : before ++ left :: afterLeft = other ++ left :: otherLeft)
    (sameRight : before ++ right :: afterRight = other ++ right :: otherRight) :
    before = other := by
  induction before generalizing other with
  | nil =>
      cases other with
      | nil => rfl
      | cons char rest =>
          have isLeft : left = char := (List.cons.inj sameLeft).1
          have isRight : right = char := (List.cons.inj sameRight).1
          exact absurd (isLeft.trans isRight.symm) diverge
  | cons char rest ih =>
      cases other with
      | nil =>
          have isLeft : char = left := (List.cons.inj sameLeft).1
          have isRight : char = right := (List.cons.inj sameRight).1
          exact absurd (isLeft.symm.trans isRight) diverge
      | cons otherChar otherRest =>
          obtain ⟨rfl, restLeft⟩ := List.cons.inj sameLeft
          obtain ⟨_, restRight⟩ := List.cons.inj sameRight
          rw [ih restLeft restRight]

/-- There is only one such text, as the literals vary where it ends. -/
theorem BeginsAfter.unique {root node : NodeId} {page : Page} {before other : String}
    (begins : arena.BeginsAfter root page node before)
    (beginsToo : arena.BeginsAfter root page node other) : before = other := by
  have same (value : Int32) : ∃ after otherAfter : List Char,
      before.toList ++ ((toString value.toInt).toList ++ after) =
        other.toList ++ ((toString value.toInt).toList ++ otherAfter) := by
    obtain ⟨after, rendered⟩ := begins (fun _ => value)
    obtain ⟨otherAfter, renderedToo⟩ := beginsToo (fun _ => value)
    rw [rendered] at renderedToo
    have spelled := congrArg (fun reached : Page => reached.text.toList)
      (EStateM.Result.ok.inj renderedToo).2
    refine ⟨after.toList, otherAfter.toList, ?_⟩
    simpa using spelled
  have zero : (toString (0 : Int32).toInt).toList = ['0'] := by decide
  have one : (toString (1 : Int32).toInt).toList = ['1'] := by decide
  obtain ⟨afterZero, otherZero, sameZero⟩ := same 0
  obtain ⟨afterOne, otherOne, sameOne⟩ := same 1
  rw [zero] at sameZero
  rw [one] at sameOne
  apply String.toList_injective
  exact eq_of_diverging (by decide : '0' ≠ '1') sameZero sameOne

/-- The text of the first offender begins where the passage breaks off. -/
theorem beginsAfter_of_breaksOff {root : NodeId} {page : Page} {passage : Passage}
    {place : Place}
    (breaks : passage.BreaksOff (some place)
      (fun literals => ((arena.overwritten literals).unfold root).passage page.style.verbose))
    (fits : ∀ literals, Fits page.style.indentSize page.level
      (((arena.overwritten literals).unfold root).passage page.style.verbose).pieces) :
    arena.BeginsAfter root page place.node
      (String.ofList (spell page.style.indentSize page.level passage.pieces)) := by
  intro literals
  obtain ⟨after, written⟩ := breaks.pieces_of_some literals
  refine ⟨String.ofList (spell page.style.indentSize page.level after), ?_⟩
  rw [renderOn_of_fits rfl (fits literals), breaks.complete literals, written, spell_append,
    spell_cons]
  simp only [Piece.numeral, Piece.chars, String.ofList_append, String.ofList_toList,
    String.append_assoc]

/-- A rendering that fails breaks off where the text of the first offender would begin: the page
ends in the text with zeros in place of all offenders, cut there, and it is as many levels deeper
than before as the offender is than the root. -/
theorem renderOn_fails_at_firstOffence {root : NodeId} {page reached : Page}
    {violation : Violation} {location : Location} (acyclic : arena.Acyclic root)
    (readable : arena.Throughout (fun layer => layer.isReadable page.style.verbose) root)
    (narrow : ∀ other, (arena.overwritten (fun _ => 0)).renderOn root page ≠
      .error (.faulted .arithmeticOverflow) other)
    (failed : arena.renderOn root page =
      .error (.diagnosed (.violated violation location)) reached) :
    ∃ place written, arena.firstOffence? root = some place ∧
      (arena.layer place.node).violation? = some (violation, location) ∧
      reached = ⟨page.text ++ written, page.level + place.depth, page.style⟩ ∧
      arena.BeginsAfter root page place.node written ∧
      ∀ other, arena.BeginsAfter root page place.node other → other = written := by
  have breaks := breaksOff_unfold acyclic readable
  have fitsCompleted : Fits page.style.indentSize page.level
      (((arena.overwritten (fun _ => 0)).unfold root).passage page.style.verbose).pieces := by
    by_contra wide
    obtain ⟨other, overflows⟩ := renderOn_of_not_fits rfl wide
    exact narrow other overflows
  have fits := breaks.fits fitsCompleted
  have rendered := renderOn_of_fits rfl fits.1
  rw [failed] at rendered
  cases offence : arena.firstOffence? root with
  | none =>
      rw [offence] at breaks
      rw [breaks.stop_of_none] at rendered
      cases rendered
  | some place =>
      rw [offence] at breaks
      obtain ⟨reason, stops⟩ := breaks.stop_of_some
      rw [stops] at rendered
      obtain ⟨rfl, isReached⟩ := EStateM.Result.error.inj rendered
      obtain ⟨node, found, isFirst, violated, same⟩ := exists_firstOffender
        (by rw [Passage.reason?, stops]; rfl)
      have isNode : node = place.node := by
        have first : (arena.firstOffence? root).map Place.node = _ := node_firstOffence? root
        rw [offence, isFirst] at first
        exact (Option.some.inj first).symm
      subst isNode
      cases same
      have begins := beginsAfter_of_breaksOff breaks fits.2
      exact ⟨place, _, rfl, violated, isReached, begins, fun other beginsToo =>
        beginsToo.unique begins⟩

end Arena

instance decidableEqResult {Error State Result : Type} [DecidableEq Error] [DecidableEq State]
    [DecidableEq Result] : DecidableEq (EStateM.Result Error State Result)
  | .ok result state, .ok other after =>
      decidable_of_iff (result = other ∧ state = after) (by simp)
  | .error error state, .error other after =>
      decidable_of_iff (error = other ∧ state = after) (by simp)
  | .ok _ _, .error _ _ => .isFalse nofun
  | .error _ _, .ok _ _ => .isFalse nofun

/-- A loop without a start in the body of a loop. The empty sequence is also below it. -/
def interruptedLoop : Arena :=
  { Arena.initial with
    exprs := #[
      ⟨.int 7, ⟨1, 1⟩⟩,
      ⟨.sequence ⟨0, 0⟩, ⟨2, 1⟩⟩,
      ⟨.forLoop ⟨0⟩ ⟨1⟩ ⟨1⟩, ⟨3, 1⟩⟩,
      ⟨.sequence ⟨0, 3⟩, ⟨4, 1⟩⟩,
      ⟨.whileLoop ⟨0⟩ ⟨3⟩, ⟨5, 1⟩⟩]
    exprLists := #[⟨0⟩, ⟨2⟩, ⟨1⟩]
    decls := #[⟨⟨0⟩, ⟨7, 1⟩, 0, none, .undefined, false, .value none⟩] }

theorem renderOn_interruptedLoop :
    interruptedLoop.firstOffence? (.expr ⟨4⟩) = some ⟨.expr ⟨2⟩, 2⟩ ∧
      interruptedLoop.renderOn (.expr ⟨4⟩) ⟨"x = ", 1, ⟨2, false⟩⟩ =
        .error (.diagnosed (.violated .missingLoopBound ⟨3, 1⟩))
          ⟨"x = while 7 do\n    (\n      7;\n      ", 3, ⟨2, false⟩⟩ ∧
      interruptedLoop.BeginsAfter (.expr ⟨4⟩) ⟨"x = ", 1, ⟨2, false⟩⟩ (.expr ⟨2⟩)
        "while 7 do\n    (\n      7;\n      " := by
  have within : interruptedLoop.Within 8 (.expr ⟨4⟩) := by decide
  have readable : interruptedLoop.checkWithin (fun layer => layer.isReadable false) 8
      (.expr ⟨4⟩) := by
    decide
  have offence : interruptedLoop.firstOffence? (.expr ⟨4⟩) = some ⟨.expr ⟨2⟩, 2⟩ := by
    decide +kernel
  have failed : interruptedLoop.renderOn (.expr ⟨4⟩) ⟨"x = ", 1, ⟨2, false⟩⟩ =
      .error (.diagnosed (.violated .missingLoopBound ⟨3, 1⟩))
        ⟨"x = " ++ "while 7 do\n    (\n      7;\n      ", 1 + 2, ⟨2, false⟩⟩ := by
    decide +kernel
  have completed : (interruptedLoop.overwritten (fun _ => 0)).renderOn (.expr ⟨4⟩)
      ⟨"x = ", 1, ⟨2, false⟩⟩ =
        .ok () ⟨"x = while 7 do\n    (\n      7;\n      0;\n      0\n    )", 1, ⟨2, false⟩⟩ := by
    decide +kernel
  have narrow : ∀ other, (interruptedLoop.overwritten (fun _ => 0)).renderOn (.expr ⟨4⟩)
      ⟨"x = ", 1, ⟨2, false⟩⟩ ≠ .error (.faulted .arithmeticOverflow) other := by
    rw [completed]
    intro other wide
    cases wide
  obtain ⟨place, written, isFirst, _, reached, begins, _⟩ :=
    Arena.renderOn_fails_at_firstOffence within.acyclic
      (Arena.throughout_of_checkWithin readable) narrow failed
  cases isFirst.symm.trans offence
  have text : _ = written := (String.append_right_inj _).mp (Page.mk.inj reached).1
  rw [← text] at begins
  exact ⟨offence, failed, begins⟩

end TigerTree
