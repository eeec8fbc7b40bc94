import TigerTree.Evaluation.Basic
import TigerTree.Proofs.Rendering.Objections

/-! Evaluation and rendering of one node. A rendering looks at every node below the root, an
evaluation at some of them and rejects most kinds; what a rendering accepts holds no fault and no
sequence without elements for an evaluation to meet. -/

set_option autoImplicit false

namespace TigerTree

variable {Child : Type}

/-- What an evaluation that arrives at the node may object to, whatever the children are. -/
def Layer.refusal? : Layer Child → Option (Stop EvalError)
  | .broken fault => some (.faulted fault)
  | .int _ _ | .ifThenElse _ _ _ _ => none
  | .binary location .div _ _ => some (.diagnosed (EvalError.divisionByZero.locatedAt location))
  | .binary _ _ _ _ => none
  | .sequence location [] => some (.diagnosed (EvalError.emptySequence.locatedAt location))
  | .sequence _ (_ :: _) => none
  | .string location _ => unsupported .stringLiteral location
  | .letIn location _ _ => unsupported .letIn location
  | .identifier location _ _ _ => unsupported .identifier location
  | .call location _ _ _ => unsupported .funCall location
  | .whileLoop location _ _ => unsupported .whileLoop location
  | .forLoop location _ _ _ => unsupported .forLoop location
  | .breakLoop location _ => unsupported .breakLoop location
  | .assign location _ _ => unsupported .assign location
  | .varDecl heading _ => unsupported .varDecl heading.location
  | .parameter heading => unsupported .varDecl heading.location
  | .funDecl heading _ _ _ => unsupported .funDecl heading.location
where
  unsupported (kind : NodeKind) (location : Location) : Option (Stop EvalError) :=
    some (.diagnosed ((EvalError.unsupported kind).locatedAt location))

/-- An evaluation is refused by what is not there, by a sequence without elements, by a division
or by a node of a kind without a value. -/
theorem Layer.refusal?_cases {layer : Layer Child} {stop : Stop EvalError}
    (refused : layer.refusal? = some stop) :
    (∃ fault, layer = .broken fault ∧ stop = .faulted fault) ∨
    (∃ location, layer = .sequence location [] ∧
      stop = .diagnosed (EvalError.emptySequence.locatedAt location)) ∨
    (∃ location, stop = .diagnosed (EvalError.divisionByZero.locatedAt location)) ∨
    (∃ kind location, stop = .diagnosed ((EvalError.unsupported kind).locatedAt location)) := by
  cases layer with
  | broken fault =>
      cases refused
      exact .inl ⟨fault, rfl, rfl⟩
  | int location value => cases refused
  | ifThenElse location condition thenBranch elseBranch => cases refused
  | binary location operator left right =>
      cases operator with
      | div =>
          cases refused
          exact .inr (.inr (.inl ⟨location, rfl⟩))
      | _ => cases refused
  | sequence location elements =>
      cases elements with
      | nil =>
          cases refused
          exact .inr (.inl ⟨location, rfl, rfl⟩)
      | cons first rest => cases refused
  | _ =>
      cases refused
      exact .inr (.inr (.inr ⟨_, _, rfl⟩))

theorem evaluateElements_error {evaluate : ExprId → EvalM Int32} {element : ExprId}
    {rest : List ExprId} {stop : Stop EvalError}
    (stops : evaluateElements evaluate element rest = .error stop) :
    ∃ id ∈ element :: rest, evaluate id = .error stop := by
  induction rest generalizing element with
  | nil => exact ⟨element, List.mem_cons_self, stops⟩
  | cons next rest ih =>
      cases here : evaluate element with
      | error earlier =>
          rw [evaluateElements, here] at stops
          cases stops
          exact ⟨element, List.mem_cons_self, here⟩
      | ok value =>
          rw [evaluateElements, here] at stops
          obtain ⟨id, member, stopsThere⟩ := ih stops
          exact ⟨id, List.mem_cons_of_mem _ member, stopsThere⟩

private theorem operate_error {operator : Operator} {left right : Int32} {location : Location}
    {stop : Stop EvalError}
    (stops : (match EvalM.operate operator left right with
      | .ok value => .ok value
      | .error error => EvalM.diagnose (error.locatedAt location)) = Except.error stop) :
    operator = .div ∧ stop = .diagnosed (EvalError.divisionByZero.locatedAt location) := by
  unfold EvalM.operate at stops
  cases computed : operator.compute? left right with
  | some value =>
      rw [computed] at stops
      cases stops
  | none =>
      rw [computed] at stops
      cases stops
      cases operator with
      | div => exact ⟨rfl, rfl⟩
      | _ => cases computed

/-- One step of evaluation stops for the node itself or for a child that it evaluates. -/
theorem evaluateShape_error (arena : Arena) {evaluate : ExprId → EvalM Int32}
    {location : Location} {shape : Shape} {stop : Stop EvalError}
    (stops : evaluateShape evaluate location shape = .error stop) :
    (arena.shapeLayer location shape).refusal? = some stop ∨
      ∃ id, .expr id ∈ (arena.shapeLayer location shape).children ∧
        evaluate id = .error stop := by
  cases shape with
  | int value => cases stops
  | binary operator left right =>
      change (evaluate left >>= fun _ => evaluate right >>= fun _ => _) = _ at stops
      cases onLeft : evaluate left with
      | error earlier =>
          rw [onLeft] at stops
          cases stops
          exact .inr ⟨left, List.mem_cons_self, onLeft⟩
      | ok leftValue =>
          rw [onLeft] at stops
          change (evaluate right >>= fun _ => _) = _ at stops
          cases onRight : evaluate right with
          | error earlier =>
              rw [onRight] at stops
              cases stops
              exact .inr ⟨right, .tail _ List.mem_cons_self, onRight⟩
          | ok rightValue =>
              rw [onRight] at stops
              obtain ⟨rfl, rfl⟩ := operate_error stops
              exact .inl rfl
  | sequence elements =>
      cases elements with
      | nil =>
          cases stops
          exact .inl rfl
      | cons element rest =>
          obtain ⟨id, member, stopsThere⟩ := evaluateElements_error stops
          exact .inr ⟨id, List.mem_map_of_mem member, stopsThere⟩
  | ifThenElse condition thenBranch elseBranch =>
      change (evaluate condition >>= fun value =>
        if value ≠ 0 then evaluate thenBranch else evaluate elseBranch) = _ at stops
      cases onCondition : evaluate condition with
      | error earlier =>
          rw [onCondition] at stops
          cases stops
          exact .inr ⟨condition, List.mem_cons_self, onCondition⟩
      | ok value =>
          rw [onCondition] at stops
          change (if value ≠ 0 then evaluate thenBranch else evaluate elseBranch) = _ at stops
          split at stops
          · exact .inr ⟨thenBranch, .tail _ List.mem_cons_self, stops⟩
          · exact .inr ⟨elseBranch, .tail _ (.tail _ List.mem_cons_self), stops⟩
  | _ =>
      cases stops
      exact .inl rfl

namespace Arena

variable {arena : Arena}

/-- An evaluation that stops was refused by a node below the root, or ran out of its bound. -/
theorem evaluateWithin_error {length : Nat} {id : ExprId} {stop : Stop EvalError}
    (stops : arena.evaluateWithin length id = .error stop) :
    (stop = .faulted .cyclicTree ∧ ¬ arena.Within length (.expr id)) ∨
      ∃ node ∈ arena.preorderWithin length (.expr id),
        (arena.layer node).refusal? = some stop := by
  induction length generalizing id with
  | zero =>
      cases stops
      exact .inl ⟨rfl, fun within => within.elim⟩
  | succ length ih =>
      have itself (refused : (arena.layer (.expr id)).refusal? = some stop) :
          ∃ node ∈ arena.preorderWithin (length + 1) (.expr id),
            (arena.layer node).refusal? = some stop :=
        ⟨.expr id, List.mem_cons_self, refused⟩
      cases found : arena.expr id with
      | error fault =>
          rw [evaluateWithin, found] at stops
          cases stops
          exact .inr (itself (by rw [layer_expr_missing found]; rfl))
      | ok expr =>
          rw [evaluateWithin, found] at stops
          change (Stop.ofLookup (arena.shape expr.form) >>= _) = _ at stops
          cases resolved : arena.shape expr.form with
          | error fault =>
              rw [resolved] at stops
              cases stops
              exact .inr (itself (by rw [layer_expr_unresolved found resolved]; rfl))
          | ok shape =>
              rw [resolved] at stops
              have isLayer := layer_expr found resolved
              rcases evaluateShape_error arena stops with refused | ⟨child, owned, stopsThere⟩
              · exact .inr (itself (isLayer ▸ refused))
              · rw [← isLayer] at owned
                rcases ih stopsThere with ⟨isCyclic, outside⟩ | ⟨node, below, refused⟩
                · exact .inl ⟨isCyclic, fun within => outside (within _ owned)⟩
                · refine .inr ⟨node, List.mem_cons_of_mem _ ?_, refused⟩
                  exact List.mem_flatMap.mpr ⟨.expr child, owned, below⟩

/-- Every evaluation that stops was refused by a node below the root, or met a cycle. -/
theorem evaluate_error {root : NodeId} {stop : Stop EvalError}
    (stops : arena.evaluate root = .error stop) :
    (stop = .faulted .cyclicTree ∧ ¬ arena.Within arena.pathBound root) ∨
      ∃ node ∈ arena.preorder root, (arena.layer node).refusal? = some stop := by
  cases root with
  | expr id => exact evaluateWithin_error stops
  | decl id =>
      refine .inr ⟨.decl id, List.mem_cons_self, ?_⟩
      cases found : arena.decl id with
      | error fault =>
          rw [evaluate, found] at stops
          cases stops
          rw [layer_decl_missing found]
          rfl
      | ok decl =>
          rw [evaluate, found] at stops
          rw [layer_decl found]
          obtain ⟨name, location, depth, typeName, type, escapes, form⟩ := decl
          cases form with
          | value initializer => cases initializer <;> exact (Except.error.inj stops) ▸ rfl
          | function parameters body loweredName => exact (Except.error.inj stops) ▸ rfl

/-! ### What a rendering has seen -/

/-- Where drafting does not stop, every node is there and has no violation. -/
theorem sound_of_reason? {verbose : Bool} {length : Nat} {root : NodeId}
    (complete : ((arena.unfoldWithin length root).passage verbose).reason? = none) :
    ∀ node ∈ arena.preorderWithin length root,
      (arena.layer node).violation? = none ∧ ∀ fault, arena.layer node ≠ .broken fault := by
  induction length generalizing root with
  | zero =>
      intro node member
      cases member
  | succ length ih =>
      rw [unfoldWithin, Tree.passage_node, Layer.map_map] at complete
      have here := Layer.reason?_of_unfaulted (complete ▸ unfaulted_none)
      rw [complete, Layer.violation?_map, Layer.children_map, eq_comm, Option.or_eq_none_iff,
        Option.map_eq_none_iff, List.findSome?_eq_none_iff] at here
      intro node member
      rcases List.mem_cons.mp member with rfl | below
      · refine ⟨here.1, ?_⟩
        intro fault isBroken
        rw [isBroken] at complete
        cases complete
      · obtain ⟨child, owned, inside⟩ := List.mem_flatMap.mp below
        exact ih (here.2 _ (List.mem_map_of_mem owned)) node inside

theorem sound_of_render {style : Style} {root : NodeId} {text : String}
    (rendered : arena.render style root = .ok text) :
    ∀ node ∈ arena.preorder root,
      (arena.layer node).violation? = none ∧ ∀ fault, arena.layer node ≠ .broken fault := by
  have complete : ((arena.unfold root).passage style.verbose).reason? = none := by
    rw [Passage.reason?, Option.map_eq_none_iff]
    exact (spell_of_render rfl rendered).1
  exact sound_of_reason? complete

/-- What has a text has a value, divides by zero or holds a node of a kind without a value. -/
theorem evaluate_of_render {style : Style} {root : NodeId} {text : String}
    (acyclic : arena.Acyclic root) (rendered : arena.render style root = .ok text) :
    (∃ value, arena.evaluate root = .ok value) ∨
    (∃ location, arena.evaluate root =
      EvalM.diagnose (EvalError.divisionByZero.locatedAt location)) ∨
    (∃ kind location, arena.evaluate root =
      EvalM.diagnose ((EvalError.unsupported kind).locatedAt location)) := by
  cases evaluated : arena.evaluate root with
  | ok value => exact .inl ⟨value, rfl⟩
  | error stop =>
      rcases evaluate_error evaluated with ⟨_, outside⟩ | ⟨node, below, refused⟩
      · exact absurd acyclic.within outside
      · obtain ⟨unobjected, present⟩ := sound_of_render rendered node below
        rcases Layer.refusal?_cases refused with
          ⟨fault, isBroken, _⟩ | ⟨location, isEmpty, _⟩ | ⟨location, rfl⟩ | ⟨kind, location, rfl⟩
        · exact absurd isBroken (present fault)
        · rw [isEmpty] at unobjected
          cases unobjected
        · exact .inr (.inl ⟨location, rfl⟩)
        · exact .inr (.inr ⟨kind, location, rfl⟩)

/-- An evaluation that reports a violation divided by zero or met an empty sequence. -/
theorem violation_of_evaluate {root : NodeId} {violation : Violation} {place : Option Location}
    (reports : arena.evaluate root = EvalM.diagnose ⟨.violated violation, place⟩) :
    violation = .divisionByZero ∨
      violation = .emptySequence ∧ ∃ location, place = some location ∧
        ∃ node ∈ arena.preorder root, arena.layer node = .sequence location [] := by
  rcases evaluate_error reports with ⟨isCyclic, _⟩ | ⟨node, below, refused⟩
  · cases isCyclic
  · rcases Layer.refusal?_cases refused with
      ⟨fault, _, isFault⟩ | ⟨location, isEmpty, same⟩ | ⟨location, same⟩ | ⟨kind, location, same⟩
    · cases isFault
    · cases same
      exact .inr ⟨rfl, location, rfl, node, below, isEmpty⟩
    · cases same
      exact .inl rfl
    · cases same

theorem exists_violation_of_firstOffender? {root offender : NodeId}
    (first : arena.firstOffender? root = some offender) :
    ∃ found, (arena.layer offender).violation? = some found := by
  have offends := (List.find?_eq_some_iff_append.mp first).1
  exact Option.isSome_iff_exists.mp offends

/-- The first offender stands no later than any other. -/
theorem firstOffender?_le {root offender other : NodeId} {before after : List NodeId}
    (first : arena.firstOffender? root = some offender)
    (split : arena.preorder root = before ++ other :: after)
    (objected : (arena.layer other).violation?.isSome) : offender ∈ before ++ [other] := by
  rw [firstOffender?, split, List.find?_append] at first
  cases earlier : before.find? (fun node => (arena.layer node).violation?.isSome) with
  | some node =>
      rw [earlier] at first
      cases first
      exact List.mem_append_left _ (List.mem_of_find?_eq_some earlier)
  | none =>
      rw [earlier, Option.none_or, List.find?_cons, objected] at first
      cases first
      exact List.mem_append_right _ (List.mem_singleton_self _)

/-- Where an evaluation meets an empty sequence, a rendering reports it or an earlier offender. -/
theorem render_of_emptySequence {root : NodeId} {place : Option Location}
    (acyclic : arena.Acyclic root)
    (reports : arena.evaluate root = EvalM.diagnose ⟨.violated .emptySequence, place⟩)
    {style : Style}
    (readable : arena.Throughout (fun layer => layer.isReadable style.verbose) root)
    (narrow : arena.render style root ≠ .error (.faulted .arithmeticOverflow)) :
    ∃ location offender found, place = some location ∧
      (arena.layer offender).violation? = some found ∧
      arena.render style root = .error (.diagnosed (.violated found.1 found.2)) ∧
      (∃ empty ∈ arena.preorder root, arena.layer empty = .sequence location []) ∧
      ∀ before empty after, arena.preorder root = before ++ empty :: after →
        arena.layer empty = .sequence location [] → offender ∈ before ++ [empty] := by
  rcases violation_of_evaluate reports with absent | ⟨_, location, isPlace, node, below, isEmpty⟩
  · cases absent
  · have objected {empty : NodeId} (isEmpty : arena.layer empty = .sequence location []) :
        (arena.layer empty).violation?.isSome := by
      rw [isEmpty]
      rfl
    have offends : (arena.firstOffender? root).isSome :=
      List.find?_isSome.mpr ⟨node, below, objected isEmpty⟩
    obtain ⟨offender, first⟩ := Option.isSome_iff_exists.mp offends
    obtain ⟨found, isFound⟩ := exists_violation_of_firstOffender? first
    have rendered := render_of_firstViolation acyclic readable narrow
    rw [firstViolation?_eq_bind, first, Option.bind_some, isFound] at rendered
    refine ⟨location, offender, found, isPlace, isFound, rendered, ⟨node, below, isEmpty⟩, ?_⟩
    intro before empty after split isEmptyHere
    exact firstOffender?_le first split (objected isEmptyHere)

/-- Dividing by zero is nothing that a text shows. -/
theorem renderOn_ne_divisionByZero (node : NodeId) (page reached : Page) (location : Location) :
    arena.renderOn node page ≠
      .error (.diagnosed (.violated .divisionByZero location)) reached := by
  intro failed
  by_cases fits : Fits page.style.indentSize page.level
      ((arena.unfold node).passage page.style.verbose).pieces
  · rw [renderOn_of_fits rfl fits] at failed
    have stops : ((arena.unfold node).passage page.style.verbose).reason? =
        some (.diagnosed (.violated .divisionByZero location)) := by
      rw [Passage.reason?]
      cases stopped : ((arena.unfold node).passage page.style.verbose).stop with
      | none =>
          rw [stopped] at failed
          cases failed
      | some stop =>
          obtain ⟨reason, depth⟩ := stop
          rw [stopped] at failed
          cases failed
          rfl
    obtain ⟨offender, ⟨violation, place⟩, _, isFound, same⟩ := exists_firstOffender stops
    cases same
    generalize arena.layer offender = layer at isFound
    unfold Layer.violation? at isFound
    split at isFound <;> cases isFound
  · obtain ⟨other, overflow⟩ := renderOn_of_not_fits rfl fits
    rw [overflow] at failed
    cases failed

theorem render_ne_divisionByZero (style : Style) (node : NodeId) (location : Location) :
    arena.render style node ≠ .error (.diagnosed (.violated .divisionByZero location)) := by
  intro failed
  rw [render] at failed
  cases rendered : arena.renderOn node (Page.blank style) with
  | ok result page =>
      rw [rendered] at failed
      cases failed
  | error stop page =>
      rw [rendered] at failed
      cases failed
      exact renderOn_ne_divisionByZero node _ page location rendered

/-- Evaluation and rendering hold the same trees for sound: a node with a text can be evaluated
without a fault or an empty sequence, an empty sequence that is evaluated leaves no text, and
each reports only violations that are its own to find. -/
theorem evaluate_agrees_with_render (arena : Arena) :
    (∀ root, arena.Acyclic root → ∀ style text, arena.render style root = .ok text →
      (∃ value, arena.evaluate root = .ok value) ∨
      (∃ location, arena.evaluate root =
        EvalM.diagnose (EvalError.divisionByZero.locatedAt location)) ∨
      (∃ kind location, arena.evaluate root =
        EvalM.diagnose ((EvalError.unsupported kind).locatedAt location))) ∧
    (∀ root, arena.Acyclic root → ∀ place,
      arena.evaluate root = EvalM.diagnose ⟨.violated .emptySequence, place⟩ →
      ∀ style : Style, arena.Throughout (fun layer => layer.isReadable style.verbose) root →
        arena.render style root ≠ .error (.faulted .arithmeticOverflow) →
        ∃ location offender found, place = some location ∧
          (arena.layer offender).violation? = some found ∧
          arena.render style root = .error (.diagnosed (.violated found.1 found.2)) ∧
          (∃ empty ∈ arena.preorder root, arena.layer empty = .sequence location []) ∧
          ∀ before empty after, arena.preorder root = before ++ empty :: after →
            arena.layer empty = .sequence location [] → offender ∈ before ++ [empty]) ∧
    (∀ node place,
      arena.evaluate node ≠ EvalM.diagnose ⟨.violated .emptyLetBody, place⟩ ∧
      arena.evaluate node ≠ EvalM.diagnose ⟨.violated .missingLoopBound, place⟩) ∧
    (∀ node location,
      (∀ page reached, arena.renderOn node page ≠
        .error (.diagnosed (.violated .divisionByZero location)) reached) ∧
      ∀ style, arena.render style node ≠
        .error (.diagnosed (.violated .divisionByZero location))) := by
  refine ⟨?_, ?_, ?_, ?_⟩
  · intro root acyclic style text rendered
    exact evaluate_of_render acyclic rendered
  · intro root acyclic place reports style readable narrow
    exact render_of_emptySequence acyclic reports readable narrow
  · intro node place
    have neither {violation : Violation} (notDivision : violation ≠ .divisionByZero)
        (notEmpty : violation ≠ .emptySequence) :
        arena.evaluate node ≠ EvalM.diagnose ⟨.violated violation, place⟩ := by
      intro reports
      rcases violation_of_evaluate reports with isDivision | ⟨isEmpty, _⟩
      · exact notDivision isDivision
      · exact notEmpty isEmpty
    exact ⟨neither (by decide) (by decide), neither (by decide) (by decide)⟩
  · intro node location
    exact ⟨fun page reached => renderOn_ne_divisionByZero node page reached location,
      fun style => render_ne_divisionByZero style node location⟩

end Arena

/-- A division by zero, a sum behind an empty sequence whose first operand has an empty `let` in
the branch that is not taken, and an identifier. -/
def unevenArena : Arena :=
  { Arena.initial with
    exprs := #[
      ⟨.int 0, ⟨1, 1⟩⟩,
      ⟨.binary .div ⟨0⟩ ⟨0⟩, ⟨1, 2⟩⟩,
      ⟨.letIn ⟨0, 0⟩ ⟨0, 0⟩, ⟨1, 3⟩⟩,
      ⟨.ifThenElse ⟨0⟩ ⟨2⟩ ⟨0⟩, ⟨1, 4⟩⟩,
      ⟨.sequence ⟨0, 0⟩, ⟨1, 5⟩⟩,
      ⟨.binary .add ⟨3⟩ ⟨4⟩, ⟨1, 6⟩⟩] }

/-- The division has a text and is refused where it stands; the sum stops an evaluation at the
empty sequence, and a rendering at the `let` before it. -/
theorem agreement_on_unevenArena :
    unevenArena.render Style.plain (.expr ⟨1⟩) = .ok "(0 / 0)" ∧
      ((∃ value, unevenArena.evaluate (.expr ⟨1⟩) = .ok value) ∨
        (∃ location, unevenArena.evaluate (.expr ⟨1⟩) =
          EvalM.diagnose (EvalError.divisionByZero.locatedAt location)) ∨
        (∃ kind location, unevenArena.evaluate (.expr ⟨1⟩) =
          EvalM.diagnose ((EvalError.unsupported kind).locatedAt location))) ∧
      unevenArena.evaluate (.expr ⟨5⟩) =
        EvalM.diagnose (EvalError.emptySequence.locatedAt ⟨1, 5⟩) ∧
      unevenArena.render Style.plain (.expr ⟨5⟩) =
        .error (.diagnosed (.violated .emptyLetBody ⟨1, 3⟩)) ∧
      ∃ offender, (unevenArena.layer offender).violation? = some (.emptyLetBody, ⟨1, 3⟩) ∧
        offender ∈ [NodeId.expr ⟨5⟩, .expr ⟨3⟩, .expr ⟨0⟩, .expr ⟨2⟩, .expr ⟨0⟩, .expr ⟨4⟩] := by
  have agrees := Arena.evaluate_agrees_with_render unevenArena
  have rendered : unevenArena.render Style.plain (.expr ⟨1⟩) = .ok "(0 / 0)" := by decide +kernel
  have withinDivision : unevenArena.Within 7 (.expr ⟨1⟩) := by decide
  have stops : unevenArena.evaluate (.expr ⟨5⟩) =
      EvalM.diagnose (EvalError.emptySequence.locatedAt ⟨1, 5⟩) := rfl
  have reported : unevenArena.render Style.plain (.expr ⟨5⟩) =
      .error (.diagnosed (.violated .emptyLetBody ⟨1, 3⟩)) := by decide +kernel
  have withinSum : unevenArena.Within 7 (.expr ⟨5⟩) := by decide
  have readable : unevenArena.Throughout
      (fun layer => layer.isReadable Style.plain.verbose) (.expr ⟨5⟩) :=
    Arena.throughout_of_checkWithin (by decide :
      unevenArena.checkWithin (fun layer => layer.isReadable false) 7 (.expr ⟨5⟩))
  obtain ⟨location, offender, ⟨violation, found⟩, isPlace, isFound, same, _, precedes⟩ :=
    agrees.2.1 _ withinSum.acyclic _ stops Style.plain readable (by rw [reported]; decide)
  cases isPlace
  rw [reported] at same
  cases same
  refine ⟨rendered, agrees.1 _ withinDivision.acyclic _ _ rendered, stops, reported, offender,
    isFound, ?_⟩
  exact precedes [.expr ⟨5⟩, .expr ⟨3⟩, .expr ⟨0⟩, .expr ⟨2⟩, .expr ⟨0⟩] (.expr ⟨4⟩) [] rfl rfl

end TigerTree
