import TigerTree.Proofs.Building.Runs
import TigerTree.Proofs.Names.Capacity
import TigerTree.Proofs.Rendering.Decorations

/-! What a setter does to a builder. It interns the text it is given, if any, and amends a
decoration of one entry at most. Nothing but a text that finds no room makes it refuse. -/

set_option autoImplicit false

namespace TigerTree

section

variable {First Second Failure State : Type}

theorem stateAfter_map (change : First → Second) (step : EStateM Failure State First)
    (state : State) : stateAfter (change <$> step) state = stateAfter step state := by
  simp only [stateAfter, Functor.map, EStateM.map]
  cases step state <;> rfl

theorem resultOf_map (change : First → Second) (step : EStateM Failure State First)
    (state : State) : resultOf (change <$> step) state = (resultOf step state).map change := by
  simp only [resultOf, Functor.map, EStateM.map]
  cases step state <;> rfl

theorem Builder.resultOf_onArena (change : ArenaM First) (builder : Builder) :
    resultOf (onArena change) builder = resultOf change builder.arena := by
  obtain ⟨arena, location, depth⟩ := builder
  unfold resultOf onArena
  simp only
  cases change arena <;> rfl

end

/-- What no setter changes of a declaration. -/
def Decl.plain (decl : Decl) : Decl :=
  { decl with type := .undefined, escapes := false, form := decl.form.undecorated }

/-- The step amends one entry at most, and of that only what is a decoration. -/
inductive Arena.Redecorates : ArenaM Bool → Prop
  | expr (id : ExprId) {amendment : Expr → Option Expr}
      (keeps : ∀ expr amended, amendment expr = some amended →
        amended.form.undecorated = expr.form.undecorated) :
      Redecorates (amendExpr id amendment)
  | decl (id : DeclId) {amendment : Decl → Option Decl}
      (keeps : ∀ decl amended, amendment decl = some amended → amended.plain = decl.plain) :
      Redecorates (amendDecl id amendment)

theorem Expr.undecorated_withLink? {target : DeclId} {expr amended : Expr}
    (links : expr.withLink? target = some amended) :
    amended.form.undecorated = expr.form.undecorated := by
  obtain ⟨form, location⟩ := expr
  cases form with
  | identifier name link depth =>
      cases links
      rfl
  | call function arguments link =>
      cases links
      rfl
  | _ => cases links

theorem Expr.undecorated_withLoop? {loop : ExprId} {expr amended : Expr}
    (aims : expr.withLoop? loop = some amended) :
    amended.form.undecorated = expr.form.undecorated := by
  obtain ⟨form, location⟩ := expr
  cases form with
  | breakLoop target =>
      cases aims
      rfl
  | _ => cases aims

theorem Decl.plain_withLoweredName? {symbol : Name} {decl amended : Decl}
    (isAmended : decl.withLoweredName? symbol = some amended) : amended.plain = decl.plain := by
  obtain ⟨parameters, body, loweredName, form, rfl⟩ := withLoweredName?_eq_some isAmended
  simp only [plain, form, DeclForm.undecorated]

namespace Arena.Redecorates

variable {change : ArenaM Bool}

/-- Nothing is amended. -/
theorem idle (id : ExprId) : Redecorates (amendExpr id (fun _ => none)) :=
  .expr id (fun _ _ isAmended => by cases isAmended)

theorem link (use : ExprId) (target : DeclId) :
    Redecorates (amendExpr use (Expr.withLink? target)) :=
  .expr use (fun _ _ => Expr.undecorated_withLink?)

theorem loop (leave loop : ExprId) : Redecorates (amendExpr leave (Expr.withLoop? loop)) :=
  .expr leave (fun _ _ => Expr.undecorated_withLoop?)

theorem loweredName (id : DeclId) (symbol : Name) :
    Redecorates (amendDecl id (Decl.withLoweredName? symbol)) :=
  .decl id (fun _ _ => Decl.plain_withLoweredName?)

theorem names (redecorates : Redecorates change) (arena : Arena) :
    (stateAfter change arena).names = arena.names := by
  cases redecorates with
  | expr id _ =>
      rcases Builder.amendExpr_cases arena id _ with same | ⟨_, _, _, _, same⟩
      · rw [same]
      · rw [same, withExpr]
  | decl id _ =>
      rcases Builder.amendDecl_cases arena id _ with same | ⟨_, _, _, _, same⟩
      · rw [same]
      · rw [same, withDecl]

/-- An amendment needs no room. -/
theorem not_full (redecorates : Redecorates change) (arena : Arena) :
    resultOf change arena ≠ .error .capacityExceeded := by
  cases redecorates with
  | @expr id amendment _ =>
      unfold resultOf amendExpr Arena.expr
      cases arena.exprs[id.index.toNat]? with
      | none => simp
      | some expr => cases isAmended : amendment expr <;> simp [isAmended]
  | @decl id amendment _ =>
      unfold resultOf amendDecl Arena.decl
      cases arena.decls[id.index.toNat]? with
      | none => simp
      | some decl => cases isAmended : amendment decl <;> simp [isAmended]

end Arena.Redecorates

/-- The text that the call interns although it adds no node. -/
def BuildCall.symbol? : BuildCall → Option String
  | .setLoweredName _ symbol => some symbol
  | _ => none

namespace Builder

def interning (builder : Builder) (texts : List String) : Builder :=
  { builder with
    arena := { builder.arena with names := builder.arena.names.addingAll texts } }

variable {builder : Builder} {call : BuildCall}

private theorem resolveBreak_eq (builder : Builder) (leave loop : ExprId) :
    ∃ change, Arena.Redecorates change ∧ resolveBreak leave loop builder = onArena change builder := by
  obtain ⟨arena, location, depth⟩ := builder
  cases found : arena.expr loop with
  | error fault =>
      refine ⟨_, .idle loop, ?_⟩
      simp only [resolveBreak, onArena, Arena.amendExpr, found]
  | ok expr =>
      by_cases loops : expr.form.isLoop
      · refine ⟨_, .loop leave loop, ?_⟩
        simp only [resolveBreak, onArena, found, if_pos loops]
      · refine ⟨_, .idle loop, ?_⟩
        simp only [resolveBreak, onArena, Arena.amendExpr, found, if_neg loops]

private theorem setLoweredName_of_room (id : DeclId) {symbol : String}
    (room : builder.arena.names.HasRoom symbol) :
    ∃ name, setLoweredName id symbol builder =
      onArena (Arena.amendDecl id (Decl.withLoweredName? name)) (builder.interning [symbol]) := by
  obtain ⟨⟨exprs, exprLists, decls, declLists, names⟩, location, depth⟩ := builder
  obtain ⟨name, interned⟩ := NameTable.intern_of_room room
  refine ⟨name, ?_⟩
  simp only [setLoweredName, bind, EStateM.bind, onArena, Arena.intern, interned]
  rfl

private theorem setLoweredName_of_full (id : DeclId) {symbol : String}
    (full : ¬ builder.arena.names.HasRoom symbol) :
    setLoweredName id symbol builder = .error .capacityExceeded builder := by
  obtain ⟨⟨exprs, exprLists, decls, declLists, names⟩, location, depth⟩ := builder
  obtain ⟨overflow, refused⟩ := NameTable.intern_of_full full
  simp only [setLoweredName, bind, EStateM.bind, onArena, Arena.intern, refused]

/-- All that a setter does: with its text interned, one amendment; or nothing, if the text finds no
room. -/
theorem setter_cases (setter : call.isSetter) (builder : Builder) :
    (builder.arena.names.Fits call.symbol?.toList ∧ ∃ change, Arena.Redecorates change ∧
      perform call builder =
        (.changed <$> onArena change) (builder.interning call.symbol?.toList)) ∨
      ∃ symbol, call.symbol? = some symbol ∧ ¬ builder.arena.names.HasRoom symbol ∧
        perform call builder = .error .capacityExceeded builder := by
  cases call with
  | resolve use target => exact .inl ⟨trivial, _, .link use target, rfl⟩
  | resolveBreak leave loop =>
      obtain ⟨change, redecorates, same⟩ := resolveBreak_eq builder leave loop
      refine .inl ⟨trivial, change, redecorates, ?_⟩
      simp only [perform, Functor.map, EStateM.map, same]
      rfl
  | setEscapes id escapes =>
      refine .inl ⟨trivial, _, .decl id ?_, rfl⟩
      intro decl amended isAmended
      cases isAmended
      rfl
  | setType id type =>
      refine .inl ⟨trivial, _, .decl id ?_, rfl⟩
      intro decl amended isAmended
      cases isAmended
      rfl
  | setLoweredName id symbol =>
      by_cases room : builder.arena.names.HasRoom symbol
      · obtain ⟨name, same⟩ := setLoweredName_of_room id room
        refine .inl ⟨⟨room, trivial⟩, _, .loweredName id name, ?_⟩
        simp only [perform, Functor.map, EStateM.map, same]
        rfl
      · refine .inr ⟨symbol, rfl, room, ?_⟩
        simp only [perform, Functor.map, EStateM.map, setLoweredName_of_full id room]
  | _ => cases setter

/-- The tables after a setter are those after an amendment, with the text interned. -/
theorem arena_after (setter : call.isSetter) (builder : Builder) :
    ∃ change, Arena.Redecorates change ∧
      (builder.after call).arena =
        stateAfter change (builder.interning call.symbol?.toList).arena := by
  rcases setter_cases setter builder with
    ⟨_, change, redecorates, performs⟩ | ⟨symbol, isSymbol, full, refuses⟩
  · refine ⟨change, redecorates, ?_⟩
    rw [after, stateAfter, performs]
    exact (congrArg arena (stateAfter_map _ _ _)).trans (stateAfter_onArena _ _)
  · refine ⟨_, .idle ⟨0⟩, ?_⟩
    have sameNames : builder.arena.names.addingAll [symbol] = builder.arena.names :=
      NameTable.adding_of_full full
    have sameArena : (builder.interning [symbol]).arena = builder.arena := by
      rw [interning, sameNames]
    rw [after, stateAfter, refuses, isSymbol, Option.toList_some, sameArena]
    rcases amendExpr_cases builder.arena ⟨0⟩ (fun _ => none) with same | ⟨_, _, _, amends, _⟩
    · exact same.symm
    · cases amends

theorem names_after (setter : call.isSetter) :
    (builder.after call).arena.names = builder.arena.names.addingAll call.symbol?.toList := by
  obtain ⟨change, redecorates, isAfter⟩ := arena_after setter builder
  rw [isAfter, redecorates.names]
  rfl

theorem accepts_iff (builder : Builder) (call : BuildCall) :
    builder.accepts call ↔ resultOf (perform call) builder ≠ .error .capacityExceeded := by
  unfold accepts resultOf
  cases perform call builder with
  | ok reply new => simp
  | error fault new => cases fault <;> simp

/-- A setter is refused only for a text that finds no room. -/
theorem accepts_setter (setter : call.isSetter) :
    builder.accepts call ↔ builder.arena.names.Fits call.symbol?.toList := by
  rw [accepts_iff]
  rcases setter_cases setter builder with
    ⟨fits, change, redecorates, performs⟩ | ⟨symbol, isSymbol, full, refuses⟩
  · refine iff_of_true ?_ fits
    have answers : resultOf (perform call) builder =
        (resultOf change (builder.interning call.symbol?.toList).arena).map .changed := by
      rw [resultOf, performs]
      exact (resultOf_map _ _ _).trans (congrArg _ (resultOf_onArena _ _))
    rw [answers]
    intro isFull
    cases answer : resultOf change (builder.interning call.symbol?.toList).arena with
    | ok changed =>
        rw [answer] at isFull
        cases isFull
    | error fault =>
        rw [answer] at isFull
        cases isFull
        exact redecorates.not_full _ answer
  · rw [isSymbol]
    refine iff_of_false ?_ (fun fits => full fits.1)
    rw [resultOf, refuses]
    exact fun answers => answers rfl

end Builder
end TigerTree
