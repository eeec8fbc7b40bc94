import TigerTree.Proofs.Rendering.Layout

/-! Where a text may stand. What a node writes is laid out once and for all: an opening and lines,
each with a depth. A page only adds its own level to the depths, so a text can be moved, texts of
several nodes follow one another, and the level is in the end what it was. -/

set_option autoImplicit false

namespace TigerTree

def blanks (width : Nat) : String := String.ofList (List.replicate width ' ')

theorem blanks_add (first second : Nat) :
    blanks (first + second) = blanks first ++ blanks second := by
  simp only [blanks, List.replicate_add, String.ofList_append]

structure Layout.Line where
  depth : Nat
  content : String

structure Layout where
  opening : String
  lines : List Layout.Line

namespace Layout

def rowsAt (layout : Layout) (indentSize : UInt64) (level : Nat) : List String :=
  layout.lines.map (fun line =>
    blanks ((level + line.depth) * indentSize.toNat) ++ line.content)

def textAt (layout : Layout) (indentSize : UInt64) (level : Nat) : String :=
  layout.opening ++ String.join ((layout.rowsAt indentSize level).map (fun row => "\n" ++ row))

def Line.width (line : Line) (page : Page) : Nat :=
  (page.level + line.depth) * page.style.indentSize.toNat

/-- Levels and widths of all lines are words on that page. -/
def HasRoom (layout : Layout) (page : Page) : Prop :=
  ∀ line ∈ layout.lines,
    page.level + line.depth < Page.widthLimit ∧ line.width page < Page.widthLimit

def before (fragment : String) (layout : Layout) : Layout :=
  { layout with opening := fragment ++ layout.opening }

def ofPieces : List Piece → Layout
  | [] => ⟨"", []⟩
  | .text words :: rest => (ofPieces rest).before words
  | .literal contents :: rest => (ofPieces rest).before (Literal.quote contents)
  | .comment words :: rest => (ofPieces rest).before ("/*" ++ words ++ "*/")
  | .line depth :: rest =>
      let below := ofPieces rest
      ⟨"", ⟨depth, below.opening⟩ :: below.lines⟩

theorem textAt_before (fragment : String) (layout : Layout) (indentSize : UInt64) (level : Nat) :
    (layout.before fragment).textAt indentSize level =
      fragment ++ layout.textAt indentSize level :=
  String.append_assoc

theorem textAt_ofPieces (pieces : List Piece) (indentSize : UInt64) (level : Nat) :
    (ofPieces pieces).textAt indentSize level =
      String.ofList (spell indentSize level pieces) := by
  induction pieces with
  | nil => rfl
  | cons piece rest ih =>
      rw [spell_cons, String.ofList_append, ← ih]
      cases piece with
      | text words =>
          rw [ofPieces, textAt_before, Piece.chars, String.ofList_toList]
      | literal contents =>
          rw [ofPieces, textAt_before, Piece.chars, String.ofList_toList]
      | comment words =>
          rw [ofPieces, textAt_before, Piece.chars, String.ofList_toList]
      | line depth =>
          apply String.toList_injective
          simp [ofPieces, textAt, rowsAt, blanks, Piece.chars]

private theorem exists_line {pieces : List Piece} {depth : Nat}
    (written : .line depth ∈ pieces) : ∃ line ∈ (ofPieces pieces).lines, line.depth = depth := by
  induction pieces with
  | nil => cases written
  | cons piece rest ih =>
      rcases List.mem_cons.mp written with here | later
      · subst here
        exact ⟨_, List.mem_cons_self, rfl⟩
      · obtain ⟨line, inside, same⟩ := ih later
        refine ⟨line, ?_, same⟩
        cases piece with
        | line earlier => exact List.mem_cons_of_mem _ inside
        | text words => exact inside
        | literal contents => exact inside
        | comment words => exact inside

theorem line_mem_of_mem_lines {pieces : List Piece} {line : Line}
    (inside : line ∈ (ofPieces pieces).lines) : .line line.depth ∈ pieces := by
  induction pieces with
  | nil => cases inside
  | cons piece rest ih =>
      cases piece with
      | line depth =>
          rcases List.mem_cons.mp inside with rfl | later
          · exact List.mem_cons_self
          · exact List.mem_cons_of_mem _ (ih later)
      | text words => exact List.mem_cons_of_mem _ (ih inside)
      | literal contents => exact List.mem_cons_of_mem _ (ih inside)
      | comment words => exact List.mem_cons_of_mem _ (ih inside)

theorem HasRoom.fits {pieces : List Piece} {page : Page}
    (room : (ofPieces pieces).HasRoom page) : Fits page.style.indentSize page.level pieces := by
  intro depth written
  obtain ⟨line, inside, rfl⟩ := exists_line written
  exact (room line inside).2

/-- A page of a higher level moves all lines to the right by as many spaces. -/
theorem rowsAt_eq_shifted (layout : Layout) (indentSize : UInt64) (level : Nat) :
    layout.rowsAt indentSize level =
      (layout.rowsAt indentSize 0).map (fun row =>
        blanks (level * indentSize.toNat) ++ row) := by
  rw [rowsAt, rowsAt, List.map_map]
  apply List.map_congr_left
  intro line _
  simp only [Function.comp_apply, Nat.zero_add, Nat.add_mul, blanks_add, String.append_assoc]

end Layout

/-! ### Operations on a page -/

namespace Page

inductive Operation where
  | emit (fragment : String)
  | indent
  | dedent
  | breakLine

namespace Operation

def perform : Operation → PageM Unit
  | .emit fragment => Page.emit fragment
  | .indent => Page.indent
  | .dedent => Page.dedent
  | .breakLine => Page.breakLine

def levelAfter (level : Nat) : Operation → Nat
  | .indent => level + 1
  | .dedent => level - 1
  | .emit _ | .breakLine => level

theorem level_of_perform {operations : List Operation} {page reached : Page}
    (performed : operations.forM perform page = .ok () reached) :
    reached.level = operations.foldl levelAfter page.level := by
  induction operations generalizing page with
  | nil =>
      cases performed
      rfl
  | cons operation rest ih =>
      have split : (operation.perform >>= fun _ => rest.forM perform) page = .ok () reached :=
        performed
      cases operation with
      | emit fragment =>
          change rest.forM perform { page with text := page.text ++ fragment } = _ at split
          have later := ih split
          exact later
      | indent => exact ih split
      | dedent => exact ih split
      | breakLine =>
          simp only [perform, Page.breakLine, bind, EStateM.bind] at split
          cases width : page.indentWidth with
          | ok spaces =>
              rw [width] at split
              have later := ih split
              exact later
          | error fault =>
              rw [width] at split
              cases split

private theorem foldl_levelAfter (operations : List Operation) {lower higher : Nat}
    (ordered : lower ≤ higher) (near : higher ≤ lower + 1) :
    operations.foldl levelAfter lower ≤ operations.foldl levelAfter higher ∧
      operations.foldl levelAfter higher ≤ operations.foldl levelAfter lower + 1 := by
  -- Lowering only brings levels together.
  induction operations generalizing lower higher with
  | nil => exact ⟨ordered, near⟩
  | cons operation rest ih =>
      apply ih
      · cases operation <;> simp only [levelAfter] <;> omega
      · cases operation <;> simp only [levelAfter] <;> omega

private theorem foldl_levelAfter_zero_le (operations : List Operation) (level : Nat) :
    operations.foldl levelAfter 0 ≤ operations.foldl levelAfter level := by
  induction level with
  | zero => exact Nat.le_refl _
  | succ level ih => exact ih.trans (foldl_levelAfter operations (by omega) (by omega)).1

/-- Operations that leave the lowest two levels as they are lower the level only where it is
above zero: had they met zero once, the two levels would have become the same. -/
theorem levelAfter_pos_of_restores {operations earlier later : List Operation}
    (fromZero : operations.foldl levelAfter 0 = 0) (fromOne : operations.foldl levelAfter 1 = 1)
    (split : operations = earlier ++ .dedent :: later) (level : Nat) :
    0 < earlier.foldl levelAfter level := by
  by_contra atZero
  have lowest := foldl_levelAfter_zero_le earlier level
  have next := (foldl_levelAfter earlier (Nat.zero_le 1) (Nat.le_refl 1)).2
  have isZero : earlier.foldl levelAfter 0 = 0 := by omega
  have isLow : earlier.foldl levelAfter 1 - 1 = 0 := by omega
  rw [split, List.foldl_append, List.foldl_cons, isZero] at fromZero
  rw [split, List.foldl_append, List.foldl_cons] at fromOne
  change later.foldl levelAfter 0 = 0 at fromZero
  change later.foldl levelAfter (earlier.foldl levelAfter 1 - 1) = 1 at fromOne
  rw [isLow, fromZero] at fromOne
  cases fromOne

end Operation
end Page

namespace Page.Operation

private theorem perform_append {first second : List Page.Operation} {page middle reached : Page}
    (earlier : first.forM perform page = .ok () middle)
    (later : second.forM perform middle = .ok () reached) :
    (first ++ second).forM perform page = .ok () reached := by
  rw [List.forM_eq_forM] at earlier later ⊢
  rw [List.forM_append]
  simp only [bind, EStateM.bind, earlier, later]

private theorem perform_indents (depth : Nat) (page : Page) :
    (List.replicate depth .indent).forM perform page =
      .ok () { page with level := page.level + depth } := by
  induction depth generalizing page with
  | zero => rfl
  | succ depth ih =>
      have below := ih { page with level := page.level + 1 }
      rw [Nat.add_assoc, Nat.add_comm 1] at below
      exact below

private theorem perform_dedents (depth : Nat) (page : Page) :
    (List.replicate depth .dedent).forM perform page =
      .ok () { page with level := page.level - depth } := by
  induction depth generalizing page with
  | zero => rfl
  | succ depth ih =>
      have below := ih { page with level := page.level - 1 }
      rw [Nat.sub_sub, Nat.add_comm 1] at below
      exact below

end Page.Operation

/-- The operations that write a piece and leave the level as it was. -/
def Piece.operations : Piece → List Page.Operation
  | .text words => [.emit words]
  | .literal contents => [.emit (Literal.quote contents)]
  | .comment words => [.emit ("/*" ++ words ++ "*/")]
  | .line depth => List.replicate depth .indent ++ .breakLine :: List.replicate depth .dedent

open Page.Operation (perform perform_append perform_indents perform_dedents)

private theorem Piece.perform_operations (piece : Piece) (page : Page)
    (fits : Fits page.style.indentSize page.level [piece]) :
    piece.operations.forM perform page = .ok () { page with
      text := page.text ++
        String.ofList (piece.chars page.style.indentSize page.level) } := by
  cases piece with
  | text words =>
      rw [Piece.chars, String.ofList_toList]
      rfl
  | literal contents =>
      rw [Piece.chars, String.ofList_toList]
      rfl
  | comment words =>
      rw [Piece.chars, String.ofList_toList]
      rfl
  | line depth =>
      have narrow := fits depth (List.mem_singleton_self _)
      have broken := Page.breakLine_of_fits { page with level := page.level + depth } narrow
      have restored := perform_dedents depth { page with
        text := page.text ++
          String.ofList ((Piece.line 0).chars page.style.indentSize (page.level + depth))
        level := page.level + depth }
      rw [Nat.add_sub_cancel] at restored
      apply perform_append (perform_indents depth page)
      change (Page.breakLine >>= fun _ => (List.replicate depth .dedent).forM perform) _ = _
      simp only [bind, EStateM.bind, broken]
      exact restored

theorem perform_operations (pieces : List Piece) (page : Page)
    (fits : Fits page.style.indentSize page.level pieces) :
    (pieces.flatMap Piece.operations).forM perform page =
      .ok () { page with
        text := page.text ++ String.ofList (spell page.style.indentSize page.level pieces) } := by
  induction pieces generalizing page with
  | nil => simp [spell, pure, EStateM.pure]
  | cons piece rest ih =>
      rw [List.flatMap_cons]
      apply perform_append
      · apply piece.perform_operations
        intro depth written
        exact fits depth (List.mem_cons.mpr (.inl (List.mem_singleton.mp written)))
      · rw [ih]
        · simp [spell_cons, String.append_assoc]
        · intro depth written
          exact fits depth (List.mem_cons_of_mem _ written)

/-! ### The layout of a node -/

namespace Arena

/-- Rendering the node succeeds on some page, with comments or without as told. -/
def IsRenderable (arena : Arena) (verbose : Bool) (node : NodeId) : Prop :=
  ∃ page reached, page.style.verbose = verbose ∧ arena.renderOn node page = .ok () reached

/-- What can be rendered alone can be rendered on a page. -/
theorem isRenderable_of_render {arena : Arena} {style : Style} {node : NodeId} {text : String}
    (rendered : arena.render style node = .ok text) : arena.IsRenderable style.verbose node := by
  rw [render] at rendered
  cases onPage : arena.renderOn node (Page.blank style) with
  | ok _ reached => exact ⟨Page.blank style, reached, rfl, onPage⟩
  | error stop reached =>
      rw [onPage] at rendered
      cases rendered

def layout (arena : Arena) (verbose : Bool) (node : NodeId) : Layout :=
  .ofPieces ((arena.unfold node).passage verbose).pieces

/-- The operations come to the same as rendering the node, wherever that succeeds. -/
def WritesAs (arena : Arena) (verbose : Bool) (node : NodeId)
    (operations : List Page.Operation) : Prop :=
  ∀ page reached, page.style.verbose = verbose → arena.renderOn node page = .ok () reached →
    operations.forM Page.Operation.perform page = .ok () reached

variable {arena : Arena} {verbose : Bool} {node : NodeId}

theorem IsRenderable.complete (renderable : arena.IsRenderable verbose node) :
    ((arena.unfold node).passage verbose).stop = none := by
  obtain ⟨page, reached, rfl, rendered⟩ := renderable
  exact (fits_of_renderOn rfl rendered).1

theorem renderOn_of_hasRoom (renderable : arena.IsRenderable verbose node) {page : Page}
    (styled : page.style.verbose = verbose) (room : (arena.layout verbose node).HasRoom page) :
    arena.renderOn node page = .ok () { page with
      text := page.text ++
        (arena.layout verbose node).textAt page.style.indentSize page.level } := by
  subst styled
  rw [renderOn_of_fits rfl room.fits, renderable.complete, layout, Layout.textAt_ofPieces]

theorem renderOn_of_wide {page : Page} (styled : page.style.verbose = verbose)
    {line : Layout.Line} (inside : line ∈ (arena.layout verbose node).lines)
    (wide : Page.widthLimit ≤ line.width page) :
    ∃ page', arena.renderOn node page = .error (.faulted .arithmeticOverflow) page' := by
  subst styled
  apply renderOn_of_not_fits rfl
  intro fits
  have narrow := fits line.depth (Layout.line_mem_of_mem_lines inside)
  exact absurd narrow (Nat.not_lt_of_le wide)

theorem exists_writesAs (renderable : arena.IsRenderable verbose node) :
    ∃ operations, arena.WritesAs verbose node operations := by
  refine ⟨((arena.unfold node).passage verbose).pieces.flatMap Piece.operations, ?_⟩
  intro page reached styled rendered
  subst styled
  obtain ⟨_, fits, rfl⟩ := fits_of_renderOn rfl rendered
  exact perform_operations _ page fits

private theorem exists_drafted (renderable : arena.IsRenderable verbose node) :
    ∃ pieces : List Piece, ∀ draft,
      arena.draftWithin verbose arena.pathBound node draft =
        .ok () ⟨draft.pieces ++ (pieces.map (Piece.raise draft.level)).toArray, draft.level⟩ := by
  refine ⟨((arena.unfold node).passage verbose).pieces, ?_⟩
  intro draft
  rw [draftWithin_eq_perform, ← Arena.unfold]
  simp only [Passage.perform, renderable.complete]

private theorem levelAfter_of_writesAs (renderable : arena.IsRenderable verbose node)
    {operations : List Page.Operation} (writes : arena.WritesAs verbose node operations)
    (level : Nat) : operations.foldl Page.Operation.levelAfter level = level := by
  -- without indentation every line fits, however deep
  let page : Page := ⟨"", level, ⟨0, verbose⟩⟩
  have fits : Fits 0 level ((arena.unfold node).passage verbose).pieces := by
    intro depth _
    change (level + depth) * 0 < Page.widthLimit
    rw [Nat.mul_zero]
    decide
  have rendered : arena.renderOn node page = _ := renderOn_of_fits rfl fits
  rw [show (arena.unfold node).passage page.style.verbose =
    (arena.unfold node).passage verbose from rfl, renderable.complete] at rendered
  exact (Page.Operation.level_of_perform (writes page _ rfl rendered)).symm

private theorem forM_renderOn (nodes : List NodeId) {page : Page}
    (renderable : ∀ node ∈ nodes, arena.IsRenderable verbose node)
    (styled : page.style.verbose = verbose)
    (room : ∀ node ∈ nodes, (arena.layout verbose node).HasRoom page) :
    nodes.forM arena.renderOn page = .ok () { page with
      text := page.text ++ String.join (nodes.map (fun node =>
        (arena.layout verbose node).textAt page.style.indentSize page.level)) } := by
  induction nodes generalizing page with
  | nil => simp [pure, EStateM.pure]
  | cons node rest ih =>
      have here := renderOn_of_hasRoom (renderable node List.mem_cons_self) styled
        (room node List.mem_cons_self)
      let reached : Page := { page with
        text := page.text ++
          (arena.layout verbose node).textAt page.style.indentSize page.level }
      have later : rest.forM arena.renderOn reached = _ :=
        ih (fun other member => renderable other (List.mem_cons_of_mem _ member)) styled
          (fun other member => room other (List.mem_cons_of_mem _ member))
      change (arena.renderOn node >>= fun _ => rest.forM arena.renderOn) page = _
      simp only [bind, EStateM.bind, here, List.map_cons, String.join_cons,
        ← String.append_assoc]
      exact later

/-- A node has one layout for all pages. Where there is room its text is appended at the level of
the page and the level is kept; elsewhere a width overflows. Raising the level of the page moves
all lines alike. So does the level at which drafting starts, which drafting keeps, and operations
that write the node so never lower the level at zero. The texts of nodes rendered in turn follow
one another. -/
theorem renderOn_eq_layout (renderable : arena.IsRenderable verbose node) :
    (∀ page : Page, page.style.verbose = verbose → (arena.layout verbose node).HasRoom page →
      arena.renderOn node page = .ok () { page with
        text := page.text ++
          (arena.layout verbose node).textAt page.style.indentSize page.level }) ∧
    (∀ page : Page, page.style.verbose = verbose →
      ∀ line ∈ (arena.layout verbose node).lines, Page.widthLimit ≤ line.width page →
        ∃ page', arena.renderOn node page = .error (.faulted .arithmeticOverflow) page') ∧
    (∀ indentSize level, (arena.layout verbose node).rowsAt indentSize level =
      ((arena.layout verbose node).rowsAt indentSize 0).map (fun row =>
        blanks (level * indentSize.toNat) ++ row)) ∧
    (∃ pieces : List Piece, ∀ draft,
      arena.draftWithin verbose arena.pathBound node draft =
        .ok () ⟨draft.pieces ++ (pieces.map (Piece.raise draft.level)).toArray, draft.level⟩) ∧
    ((∃ operations, arena.WritesAs verbose node operations) ∧
      ∀ operations, arena.WritesAs verbose node operations →
        ∀ earlier later, operations = earlier ++ .dedent :: later →
          ∀ page reached, earlier.forM Page.Operation.perform page = .ok () reached →
            0 < reached.level) ∧
    (∀ others, (∀ other ∈ others, arena.IsRenderable verbose other) →
      ∀ page : Page, page.style.verbose = verbose →
        (∀ each ∈ node :: others, (arena.layout verbose each).HasRoom page) →
        (node :: others).forM arena.renderOn page = .ok () { page with
          text := page.text ++ String.join ((node :: others).map (fun each =>
            (arena.layout verbose each).textAt page.style.indentSize page.level)) }) := by
  refine ⟨?position, ?width, ?shift, exists_drafted renderable,
    ⟨exists_writesAs renderable, ?dedents⟩, ?inTurn⟩
  case position =>
    intro page styled room
    exact renderOn_of_hasRoom renderable styled room
  case width =>
    intro page styled line inside wide
    exact renderOn_of_wide styled inside wide
  case shift =>
    intro indentSize level
    exact Layout.rowsAt_eq_shifted _ indentSize level
  case dedents =>
    intro operations writes earlier later split page reached performed
    rw [Page.Operation.level_of_perform performed]
    exact Page.Operation.levelAfter_pos_of_restores (levelAfter_of_writesAs renderable writes 0)
      (levelAfter_of_writesAs renderable writes 1) split page.level
  case inTurn =>
    intro others renderableToo page styled room
    apply forM_renderOn _ _ styled room
    intro each member
    rcases List.mem_cons.mp member with rfl | later
    · exact renderable
    · exact renderableToo each later

end Arena

def enclosedLoop : Arena :=
  { Arena.initial with
    exprs := #[
      ⟨.int 1, ⟨1, 1⟩⟩,
      ⟨.breakLoop none, ⟨2, 1⟩⟩,
      ⟨.whileLoop ⟨0⟩ ⟨1⟩, ⟨3, 1⟩⟩,
      ⟨.sequence ⟨0, 2⟩, ⟨4, 1⟩⟩]
    exprLists := #[⟨2⟩, ⟨0⟩] }

theorem renderOn_enclosedLoop :
    enclosedLoop.IsRenderable false (.expr ⟨3⟩) ∧
      (enclosedLoop.layout false (.expr ⟨3⟩)).HasRoom ⟨"x = ", 3, ⟨2, false⟩⟩ ∧
      enclosedLoop.renderOn (.expr ⟨3⟩) ⟨"x = ", 3, ⟨2, false⟩⟩ =
        .ok () ⟨"x = (\n        while 1 do\n          break;\n        1\n      )", 3,
          ⟨2, false⟩⟩ := by
  have rendered : enclosedLoop.render ⟨0, false⟩ (.expr ⟨3⟩) =
      .ok "(\nwhile 1 do\nbreak;\n1\n)" := by
    decide +kernel
  have renderable : enclosedLoop.IsRenderable false (.expr ⟨3⟩) :=
    Arena.isRenderable_of_render rendered
  have room : (enclosedLoop.layout false (.expr ⟨3⟩)).HasRoom ⟨"x = ", 3, ⟨2, false⟩⟩ := by
    unfold Layout.HasRoom
    decide +kernel
  have text : (enclosedLoop.layout false (.expr ⟨3⟩)).textAt 2 3 =
      "(\n        while 1 do\n          break;\n        1\n      )" := by
    decide +kernel
  refine ⟨renderable, room, ?_⟩
  rw [(Arena.renderOn_eq_layout renderable).1 _ rfl room, text]
  rfl

end TigerTree
