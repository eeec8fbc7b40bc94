import TigerTree.Proofs.Building.Lowering
import TigerTree.Proofs.Rendering.Containment

/-! What may be set as a lowered name. Whatever tree the function stands in, its lowered name is
deleted with its comment and the plain text is left, exactly if the name stays in its comment; other
names show in one of two small functions. -/

set_option autoImplicit false

namespace TigerTree

variable {Child : Type}

def Layer.isPlainlyLowered (layer : Layer Child) : Bool :=
  layer.loweredName?.all (fun name => name.toOption.any isIdentifier)

theorem Layer.isConfined_of_isPlainlyLowered {layer : Layer Child}
    (plainly : layer.isPlainlyLowered) : layer.isConfined := by
  unfold isPlainlyLowered at plainly
  unfold isConfined
  generalize layer.loweredName? = lowered at plainly ⊢
  rcases lowered with _ | _ | symbol
  · rfl
  · rfl
  · exact staysInComment_of_isIdentifier plainly

theorem Layer.isConfined_lowered {name : LoweredName} {symbol : String}
    (isText : name.text = .ok symbol) (stays : staysInComment symbol) (layer : Layer Child) :
    (layer.lowered name).isConfined := by
  cases layer with
  | funDecl heading loweredName parameters body =>
      simp [isConfined, lowered, loweredName?, isText, Except.toOption, stays]
  | _ => rfl

namespace Builder

variable {builder : Builder} {store : Store} {root : NodeId} {function : DeclId}
  {indentSize : UInt64} {plainText symbol : String}

/-- The tree below the root has a plain text and identifiers for names; of one function in it the
lowered name may be anything. -/
structure Prints (builder : Builder) (root : NodeId) (function : DeclId) (indentSize : UInt64)
    (plainText : String) : Prop where
  acyclic : builder.arena.Acyclic root
  intact : builder.arena.Throughout (fun layer => layer.isIntact) root
  wellNamed : builder.arena.Throughout (fun layer => layer.isWellNamed) root
  others : ∀ node, builder.arena.Reaches root node → node ≠ .decl function →
    (builder.arena.layer node).isPlainlyLowered
  reached : builder.arena.Reaches root (.decl function)
  isFunction : builder.arena.nodeKind (.decl function) = .ok .funDecl
  rendered : builder.arena.render ⟨indentSize, false⟩ root = .ok plainText

/-- With the symbol as the lowered name of the function the plain text is the given one, and so is
the commented text without its comments. -/
def Hides (builder : Builder) (root : NodeId) (function : DeclId) (indentSize : UInt64)
    (plainText symbol : String) : Prop :=
  (builder.after (.setLoweredName function symbol)).arena.render ⟨indentSize, false⟩ root =
      .ok plainText ∧
    ∃ text, (builder.after (.setLoweredName function symbol)).arena.render ⟨indentSize, true⟩ root =
        .ok text ∧ withoutComments text = plainText

/-- What a tree prints, checked on all of its nodes. -/
theorem prints_of_checks {length : Nat} (within : builder.arena.Within length root)
    (intact : builder.arena.checkWithin (fun layer => layer.isIntact) length root)
    (wellNamed : builder.arena.checkWithin (fun layer => layer.isWellNamed) length root)
    (others : ∀ node ∈ builder.arena.preorder root, node ≠ .decl function →
      (builder.arena.layer node).isPlainlyLowered)
    (reached : .decl function ∈ builder.arena.preorder root)
    (isFunction : builder.arena.nodeKind (.decl function) = .ok .funDecl)
    (rendered : (builder.arena.render ⟨indentSize, false⟩ root).toOption = some plainText) :
    builder.Prints root function indentSize plainText where
  acyclic := within.acyclic
  intact := Arena.throughout_of_checkWithin intact
  wellNamed := Arena.throughout_of_checkWithin wellNamed
  others node reached := others node ((Arena.mem_preorder within.acyclic).mpr reached)
  reached := (Arena.mem_preorder within.acyclic).mp reached
  isFunction := isFunction
  rendered := by
    cases isText : builder.arena.render ⟨indentSize, false⟩ root with
    | ok text =>
        rw [isText] at rendered
        exact congrArg Except.ok (Option.some.inj rendered)
    | error stop =>
        rw [isText] at rendered
        cases rendered

theorem hides_of_staysInComment (mirrors : builder.Mirrors store)
    (prints : builder.Prints root function indentSize plainText)
    (accepted : builder.accepts (.setLoweredName function symbol))
    (stays : staysInComment symbol) :
    builder.Hides root function indentSize plainText symbol := by
  obtain ⟨name, isText, _, lowers⟩ := mirrors.lowers prints.isFunction accepted
  have found : name.text.isOk := by
    rw [isText]
    rfl
  have intact := lowers.throughout (fun layer => layer.isIntact_lowered name found) prints.intact
  have wellNamed := lowers.throughout
    (fun layer wellNamed => (layer.isWellNamed_lowered name).trans wellNamed) prints.wellNamed
  have confined : (builder.after (.setLoweredName function symbol)).arena.Throughout
      (fun layer => layer.isConfined) root := by
    intro node reached
    by_cases here : node = .decl function
    · subst here
      rw [lowers.layer_function]
      exact Layer.isConfined_lowered isText stays _
    · rw [lowers.reaches] at reached
      rw [lowers.layer_other here]
      exact Layer.isConfined_of_isPlainlyLowered (prints.others node reached here)
  have rendered := (render_eq_of_passage_eq (lowers.passage_unfold root)).trans prints.rendered
  exact ⟨rendered, Arena.withoutComments_of_confined (lowers.acyclic prints.acyclic) intact
    wellNamed confined rendered⟩

def constantCalls (value : Int32) : List BuildCall :=
  [.int value, .declareFunction "f" [] none ⟨0⟩]

theorem accepts_setLoweredName_constant (value : Int32) (symbol : String) :
    (initial.afterAll (constantCalls value)).accepts (.setLoweredName ⟨0⟩ symbol) := by
  rw [accepts_setter rfl]
  exact ⟨.inr (show 2 < wordLimit by decide), trivial⟩

def constantTail (value : Int32) : String := "() =\n  " ++ toString value.toInt

def constantText (value : Int32) : String := "function f" ++ constantTail value

/-- A lowered name other than `f` is printed right behind the name. -/
theorem render_constant (value : Int32) (other : symbol ≠ "f") :
    ((initial.afterAll (constantCalls value)).after (.setLoweredName ⟨0⟩ symbol)).arena.render
        ⟨2, true⟩ (.decl ⟨0⟩) =
      .ok ("function f" ++ "/*" ++ symbol ++ "*/" ++ constantTail value) := by
  have mirrors := (mirrors_afterAll mirrors_initial (constantCalls value)).1
  obtain ⟨⟨text, isOwn⟩, isText, own, lowers⟩ :=
    mirrors.lowers rfl (accepts_setLoweredName_constant value symbol)
  have unlike : isOwn = false := by
    by_contra same
    have isName : .ok symbol ∈ ([.ok "f"] : List (Except Fault String)) :=
      own ((Bool.not_eq_false _).mp same)
    exact other (Except.ok.inj (List.mem_singleton.mp isName))
  change text = .ok symbol at isText
  subst isText unlike
  generalize ((initial.afterAll (constantCalls value)).after _).arena = arena at lowers ⊢
  have functionLayer : arena.layer (.decl ⟨0⟩) =
      .funDecl ⟨.ok "f", Location.dummy, 0, none, .undefined, false⟩ (some ⟨.ok symbol, false⟩)
        (.ok []) (.expr ⟨0⟩) := lowers.layer_function
  have bodyLayer : arena.layer (.expr ⟨0⟩) = .int Location.dummy value :=
    lowers.layer_other NodeId.noConfusion
  have bound : arena.pathBound = 1 + 1 + 1 := lowers.pathBound
  have passage : (arena.unfold (.decl ⟨0⟩)).passage true =
      ⟨[.text "function ", .text "f", .comment symbol, .text "(", .text ")", .text " =", .line 1,
        .text (toString value.toInt)], none⟩ := by
    simp only [Arena.unfold, bound, Arena.unfoldWithin, functionLayer, Layer.map, bodyLayer]
    rfl
  have fits : Fits 2 0 [.text "function ", .text "f", .comment symbol, .text "(", .text ")",
      .text " =", .line 1, .text (toString value.toInt)] := by
    simp [Fits]
    decide
  have rendered : arena.render ⟨2, true⟩ (.decl ⟨0⟩) = _ := render_of_fits passage fits
  refine rendered.trans ?_
  apply congrArg Except.ok
  apply String.toList_injective
  simp [spell, Piece.chars, constantTail]

/-- What is hidden behind the name of the function leaves its tail. -/
theorem restores_of_hides {value : Int32} (other : symbol ≠ "f")
    (hides : (initial.afterAll (constantCalls value)).Hides (.decl ⟨0⟩) ⟨0⟩ 2 (constantText value)
      symbol) :
    dropComments .comment ((symbol.toList ++ ['*', '/']) ++ (constantTail value).toList) =
      (constantTail value).toList := by
  obtain ⟨_, text, rendered, same⟩ := hides
  rw [render_constant value other] at rendered
  cases rendered
  have named : Passes "function f".toList := passes_of_not_mem (by decide) (by decide)
  have scanned := congrArg String.toList same
  simp only [withoutComments, constantText, String.toList_ofList, String.toList_append,
    List.append_assoc] at scanned
  rw [named] at scanned
  rw [List.append_assoc]
  exact List.append_cancel_left scanned

theorem staysInComment_of_hides
    (hidesOne : (initial.afterAll (constantCalls 1)).Hides (.decl ⟨0⟩) ⟨0⟩ 2 (constantText 1) symbol)
    (hidesTwo : (initial.afterAll (constantCalls 2)).Hides (.decl ⟨0⟩) ⟨0⟩ 2 (constantText 2)
      symbol) :
    staysInComment symbol := by
  by_cases own : symbol = "f"
  · -- the name of the function itself is not printed again, so the texts tell nothing of it
    rw [own]
    exact staysInComment_of_isIdentifier (by decide)
  · have inertOne : IsInert (constantTail 1).toList := by
      unfold IsInert
      decide
    have inertTwo : IsInert (constantTail 2).toList := by
      unfold IsInert
      decide
    have differ : (constantTail 1).toList ≠ (constantTail 2).toList := by decide
    exact endsAsComment_of_restores inertOne inertTwo differ (restores_of_hides own hidesOne)
      (restores_of_hides own hidesTwo)

theorem prints_constant :
    (initial.afterAll (constantCalls 1)).Prints (.decl ⟨0⟩) ⟨0⟩ 2 (constantText 1) ∧
      (initial.afterAll (constantCalls 2)).Prints (.decl ⟨0⟩) ⟨0⟩ 2 (constantText 2) := by
  constructor
  · exact prints_of_checks (by decide : Arena.Within _ 2 _) (by decide) (by decide) (by decide)
      (by decide) rfl (by decide +kernel)
  · exact prints_of_checks (by decide : Arena.Within _ 2 _) (by decide) (by decide) (by decide)
      (by decide) rfl (by decide +kernel)

/-- Two symbols are hidden in every tree, whichever of them is the lowered name of a function in it,
exactly if both stay in their comments. -/
theorem hides_iff_staysInComment (first second : String) :
    (staysInComment first ∧ staysInComment second) ↔
      ∀ (calls : List BuildCall) (root : NodeId) (function : DeclId) (indentSize : UInt64)
        (plainText : String),
        (initial.afterAll calls).Prints root function indentSize plainText →
        (initial.afterAll calls).accepts (.setLoweredName function first) →
        (initial.afterAll calls).accepts (.setLoweredName function second) →
          (initial.afterAll calls).Hides root function indentSize plainText first ∧
            (initial.afterAll calls).Hides root function indentSize plainText second := by
  constructor
  · rintro ⟨firstStays, secondStays⟩ calls root function indentSize plainText prints firstAccepted
      secondAccepted
    have mirrors := (mirrors_afterAll mirrors_initial calls).1
    exact ⟨hides_of_staysInComment mirrors prints firstAccepted firstStays,
      hides_of_staysInComment mirrors prints secondAccepted secondStays⟩
  · intro hides
    have one := hides (constantCalls 1) _ _ _ _ prints_constant.1
      (accepts_setLoweredName_constant 1 first) (accepts_setLoweredName_constant 1 second)
    have two := hides (constantCalls 2) _ _ _ _ prints_constant.2
      (accepts_setLoweredName_constant 2 first) (accepts_setLoweredName_constant 2 second)
    exact ⟨staysInComment_of_hides one.1 two.1, staysInComment_of_hides one.2 two.2⟩

/-- A function in the body of another one, and a string that looks like the end of a comment. -/
def nestedFunctionCalls : List BuildCall :=
  [.string "*/", .declareFunction "g" [] none ⟨0⟩, .call "g" [], .letIn [⟨0⟩] [⟨1⟩],
    .declareParameter "x" (some "int"), .declareFunction "f" [⟨1⟩] none ⟨2⟩,
    .setLoweredName ⟨2⟩ "f_1", .int 1, .call "f" [⟨3⟩], .letIn [⟨2⟩] [⟨4⟩]]

def nestedFunctionText : String :=
  "let\n  function f(x: int) =\n    let\n      function g() =\n        \"*/\"\n    in\n" ++
    "      g()\n    end\nin\n  f(1)\nend"

/-- A quote, the start of a comment and a line break are hidden; and even the end of a comment, if
the next one starts there. -/
theorem hides_nestedFunction :
    (staysInComment "\"/*\n" ∧ staysInComment "*//*") ∧
      (initial.afterAll nestedFunctionCalls).Prints (.expr ⟨5⟩) ⟨0⟩ 2 nestedFunctionText ∧
      (initial.afterAll nestedFunctionCalls).Hides (.expr ⟨5⟩) ⟨0⟩ 2 nestedFunctionText "\"/*\n" ∧
      (initial.afterAll nestedFunctionCalls).Hides (.expr ⟨5⟩) ⟨0⟩ 2 nestedFunctionText "*//*" := by
  have stay : staysInComment "\"/*\n" ∧ staysInComment "*//*" := by decide
  have prints : (initial.afterAll nestedFunctionCalls).Prints (.expr ⟨5⟩) ⟨0⟩ 2
      nestedFunctionText :=
    prints_of_checks (by decide +kernel : Arena.Within _ 7 _) (by decide +kernel)
      (by decide +kernel) (by decide +kernel) (by decide +kernel) rfl (by decide +kernel)
  exact ⟨stay, prints, (hides_iff_staysInComment _ _).mp stay nestedFunctionCalls _ _ _ _ prints
    (by decide +kernel) (by decide +kernel)⟩

/-- Of two names that the function `f` may be given, the end of a comment shows in its text. -/
theorem commentEnd_escapes :
    (initial.afterAll (constantCalls 1)).Prints (.decl ⟨0⟩) ⟨0⟩ 2 "function f() =\n  1" ∧
      (initial.afterAll (constantCalls 1)).accepts (.setLoweredName ⟨0⟩ "*/") ∧
      (((initial.afterAll (constantCalls 1)).after (.setLoweredName ⟨0⟩ "*/")).arena.render ⟨2, true⟩
        (.decl ⟨0⟩)).toOption = some "function f/**/*/() =\n  1" ∧
      withoutComments "function f/**/*/() =\n  1" = "function f*/() =\n  1" ∧
      (initial.afterAll (constantCalls 1)).accepts (.setLoweredName ⟨0⟩ "f_1") ∧
      (((initial.afterAll (constantCalls 1)).after (.setLoweredName ⟨0⟩ "f_1")).arena.render
        ⟨2, true⟩ (.decl ⟨0⟩)).toOption = some "function f/*f_1*/() =\n  1" ∧
      withoutComments "function f/*f_1*/() =\n  1" = "function f() =\n  1" := by
  have plain : constantText 1 = "function f() =\n  1" := by decide
  rw [← plain]
  exact ⟨prints_constant.1, accepts_setLoweredName_constant 1 "*/", by decide +kernel, by decide,
    accepts_setLoweredName_constant 1 "f_1", by decide +kernel, by decide⟩

end Builder
end TigerTree
