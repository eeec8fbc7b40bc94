import TigerTree.Proofs.Building.Steps

/-! Runs of a builder beside runs of a store. A call is made on both sides or refused, so the tables
read as the store after any run. -/

set_option autoImplicit false

namespace TigerTree

def totalEntries : List BuildCall → Nat
  | [] => 0
  | call :: rest => call.entries + totalEntries rest

section

variable {builder : Builder} {store : Store}

def resultOf {Failure State Answer : Type} (step : EStateM Failure State Answer)
    (state : State) : Except Failure Answer :=
  match step state with
  | .ok answer _ => .ok answer
  | .error failure _ => .error failure

namespace Builder

def accepts (builder : Builder) (call : BuildCall) : Bool :=
  match perform call builder with
  | .error .capacityExceeded _ => false
  | _ => true

def afterAll (builder : Builder) (calls : List BuildCall) : Builder :=
  calls.foldl after builder

theorem afterAll_append (builder : Builder) (calls later : List BuildCall) :
    builder.afterAll (calls ++ later) = (builder.afterAll calls).afterAll later :=
  List.foldl_append

/-- The calls of a run without those that find a table full. -/
def accepted (builder : Builder) : List BuildCall → List BuildCall
  | [] => []
  | call :: rest =>
      if builder.accepts call then call :: (builder.after call).accepted rest
      else (builder.after call).accepted rest

/-- What a call comes to, beside the store. -/
theorem mirrors_after (mirrors : builder.Mirrors store) (call : BuildCall) :
    builder.Continues (builder.after call) call.entries ∧
      (builder.accepts call = true → (builder.after call).Mirrors (store.after call) ∧
        resultOf (perform call) builder = resultOf (Store.perform call) store) ∧
      (builder.accepts call = false → (builder.after call).Mirrors store ∧
        wordLimit ≤ builder.arena.weight + call.entries) := by
  have follows := perform_follows mirrors call
  unfold BuildM.Follows at follows
  unfold accepts after stateAfter Store.after stateAfter resultOf
  cases run : perform call builder with
  | ok reply new =>
      rw [run] at follows
      obtain ⟨newStore, specified, newMirrors, continues⟩ := follows
      rw [specified]
      refine ⟨continues, fun _ => ⟨newMirrors, rfl⟩, ?_⟩
      intro refused
      cases refused
  | error fault new =>
      rw [run] at follows
      cases fault with
      | capacityExceeded =>
          obtain ⟨newMirrors, continues, full⟩ := follows
          refine ⟨continues, ?_, fun _ => ⟨newMirrors, full⟩⟩
          intro isAccepted
          cases isAccepted
      | _ =>
          obtain ⟨specified, newMirrors, continues⟩ := follows
          rw [specified]
          refine ⟨continues, fun _ => ⟨newMirrors, rfl⟩, ?_⟩
          intro refused
          cases refused

theorem mirrors_afterAll (mirrors : builder.Mirrors store) (calls : List BuildCall) :
    (builder.afterAll calls).Mirrors (store.afterAll (builder.accepted calls)) ∧
      builder.Continues (builder.afterAll calls) (totalEntries calls) := by
  induction calls generalizing builder store with
  | nil => exact ⟨mirrors, .refl _ _⟩
  | cons call rest ih =>
      obtain ⟨continues, whenAccepted, whenRefused⟩ := mirrors_after mirrors call
      rw [totalEntries, accepted]
      by_cases isAccepted : builder.accepts call
      · rw [if_pos isAccepted]
        have later := ih (whenAccepted isAccepted).1
        exact ⟨later.1, continues.trans later.2⟩
      · rw [if_neg isAccepted]
        have later := ih (whenRefused (Bool.eq_false_iff.mpr isAccepted)).1
        exact ⟨later.1, continues.trans later.2⟩

/-- No call is refused while all entries together fit a table. -/
theorem accepted_eq_self (mirrors : builder.Mirrors store) {calls : List BuildCall}
    (room : builder.arena.weight + totalEntries calls < wordLimit) :
    builder.accepted calls = calls := by
  induction calls generalizing builder store with
  | nil => rfl
  | cons call rest ih =>
      obtain ⟨continues, whenAccepted, whenRefused⟩ := mirrors_after mirrors call
      rw [totalEntries] at room
      have isAccepted : builder.accepts call = true := by
        by_contra refused
        have full := (whenRefused (Bool.eq_false_iff.mpr refused)).2
        omega
      have weight := continues.weight
      have restRoom : (builder.after call).arena.weight + totalEntries rest < wordLimit := by
        omega
      rw [accepted, if_pos isAccepted, ih (whenAccepted isAccepted).1 restRoom]

theorem mirrors_initial : initial.Mirrors Store.empty where
  indexed := NameTable.indexed_initial
  exprs := rfl
  decls := rfl
  location := rfl
  depth := rfl
  exprCount := Nat.zero_le _
  declCount := Nat.zero_le _

end Builder

namespace Store

/-- Of all answers only those of a construction are nodes: the last one of its table. -/
def AddsLast (store : Store) : EStateM.Result Fault Store BuildReply → Prop
  | .ok (.node (.expr id)) new =>
      id = ⟨store.exprs.length.toUInt32⟩ ∧ new.exprs.length = store.exprs.length + 1
  | .ok (.node (.decl id)) new =>
      id = ⟨store.decls.length.toUInt32⟩ ∧ new.decls.length = store.decls.length + 1
  | _ => True

private theorem addsLast_amendExpr (store : Store) (id : ExprId)
    (amendment : ExprRecord → Option ExprRecord) :
    store.AddsLast (amendExpr id amendment store) := by
  unfold amendExpr
  cases store.expr id with
  | error fault => trivial
  | ok record => cases isAmended : amendment record <;> simp only [isAmended, AddsLast]

private theorem addsLast_amendDecl (store : Store) (id : DeclId)
    (amendment : DeclRecord → Option DeclRecord) :
    store.AddsLast (amendDecl id amendment store) := by
  unfold amendDecl
  cases store.decl id with
  | error fault => trivial
  | ok record => cases isAmended : amendment record <;> simp only [isAmended, AddsLast]

private theorem addsLast_perform (store : Store) (call : BuildCall) :
    store.AddsLast (perform call store) := by
  cases call with
  | moveTo location => trivial
  | enterDepth depth => trivial
  | resolve use target => exact addsLast_amendExpr store use _
  | resolveBreak leave loop =>
      unfold perform
      cases isLoop : store.expr loop with
      | error fault => simp only [isLoop, AddsLast]
      | ok record =>
          by_cases loops : record.content.isLoop
          · simp only [isLoop, if_pos loops]
            exact addsLast_amendExpr store leave _
          · simp only [isLoop, if_neg loops, AddsLast]
  | setEscapes id escapes =>
      rw [perform]
      exact addsLast_amendDecl store id _
  | setType id type =>
      rw [perform]
      exact addsLast_amendDecl store id _
  | setLoweredName id symbol => exact addsLast_amendDecl store id _
  | declareVariable text typeText initializer => exact ⟨rfl, List.length_append⟩
  | declareParameter text typeText => exact ⟨rfl, List.length_append⟩
  | declareFunction text parameters resultText body => exact ⟨rfl, List.length_append⟩
  | _ => exact ⟨rfl, List.length_append⟩

end Store

namespace Builder

private theorem index_of_answer (mirrors : builder.Mirrors store) (call : BuildCall) :
    (∀ id, resultOf (perform call) builder = .ok (.expr id) →
      id.index.toNat = store.exprs.length) ∧
    ∀ id, resultOf (perform call) builder = .ok (.decl id) →
      id.index.toNat = store.decls.length := by
  have follows := perform_follows mirrors call
  have adds := store.addsLast_perform call
  unfold BuildM.Follows at follows
  unfold resultOf
  cases run : perform call builder with
  | error fault new =>
      constructor
      · intro id answers
        cases answers
      · intro id answers
        cases answers
  | ok reply new =>
      rw [run] at follows
      obtain ⟨newStore, specified, newMirrors, _⟩ := follows
      rw [specified] at adds
      constructor
      · intro id answers
        cases answers
        obtain ⟨rfl, length⟩ := adds
        have bounded := newMirrors.exprCount
        exact UInt32.toNat_ofNat_of_lt (by rw [length] at bounded; exact bounded)
      · intro id answers
        cases answers
        obtain ⟨rfl, length⟩ := adds
        have bounded := newMirrors.declCount
        exact UInt32.toNat_ofNat_of_lt (by rw [length] at bounded; exact bounded)

end Builder

/-! ### Setters that do nothing -/

def BuildCall.isSetter : BuildCall → Bool
  | .resolve _ _ | .resolveBreak _ _ | .setEscapes _ _ | .setType _ _ | .setLoweredName _ _ => true
  | _ => false

namespace Builder

def Declines (builder : Builder) (call : BuildCall) (new : Builder) : Prop :=
  perform call builder = .ok (.changed false) new ∨ ∃ fault, perform call builder = .error fault new

end Builder

/-- A step that answers false or fails has changed nothing. -/
def Unmoved {State : Type} (state : State) : EStateM.Result Fault State Bool → Prop
  | .ok true _ => True
  | .ok false new | .error _ new => new = state

private theorem unmoved_amendExpr (arena : Arena) (id : ExprId) (amendment : Expr → Option Expr) :
    Unmoved arena (Arena.amendExpr id amendment arena) := by
  unfold Arena.amendExpr
  cases arena.expr id with
  | error fault => rfl
  | ok expr => cases isAmended : amendment expr <;> simp only [isAmended, Unmoved]

private theorem unmoved_amendDecl (arena : Arena) (id : DeclId) (amendment : Decl → Option Decl) :
    Unmoved arena (Arena.amendDecl id amendment arena) := by
  unfold Arena.amendDecl
  cases arena.decl id with
  | error fault => rfl
  | ok decl => cases isAmended : amendment decl <;> simp only [isAmended, Unmoved]

namespace Builder

private theorem unmoved_onArena {change : ArenaM Bool}
    (unmoved : Unmoved builder.arena (change builder.arena)) :
    Unmoved builder (onArena change builder) := by
  obtain ⟨arena, location, depth⟩ := builder
  unfold onArena
  simp only at unmoved ⊢
  cases run : change arena with
  | error fault new =>
      rw [run] at unmoved
      cases unmoved
      rfl
  | ok answer new =>
      rw [run] at unmoved
      cases answer with
      | true => trivial
      | false =>
          cases unmoved
          rfl

private theorem unmoved_resolveBreak (builder : Builder) (leave loop : ExprId) :
    Unmoved builder (resolveBreak leave loop builder) := by
  apply unmoved_onArena
  cases isLoop : builder.arena.expr loop with
  | error fault => rfl
  | ok expr =>
      by_cases loops : expr.form.isLoop
      · simp only [if_pos loops]
        exact unmoved_amendExpr builder.arena leave _
      · simp only [if_neg loops]
        rfl

private theorem unmoved_setLoweredName (builder : Builder) (id : DeclId) (symbol : String) :
    ∃ names, Unmoved { builder with arena := { builder.arena with names := names } }
      (setLoweredName id symbol builder) := by
  obtain ⟨arena, location, depth⟩ := builder
  have interned : ∃ names, stateAfter (Arena.intern symbol) arena =
      { arena with names := names } := by
    obtain ⟨exprs, exprLists, decls, declLists, table⟩ := arena
    unfold stateAfter Arena.intern
    simp only
    cases NameTable.intern symbol table with
    | ok name names => exact ⟨names, rfl⟩
    | error full names => exact ⟨names, rfl⟩
  obtain ⟨names, same⟩ := interned
  refine ⟨names, ?_⟩
  unfold stateAfter at same
  cases run : Arena.intern symbol arena with
  | error fault named =>
      rw [run] at same
      rw [show setLoweredName id symbol ⟨arena, location, depth⟩ =
          .error fault ⟨named, location, depth⟩ by
        simp only [setLoweredName, bind, EStateM.bind, onArena, run], ← same]
      rfl
  | ok name named =>
      rw [run] at same
      rw [show setLoweredName id symbol ⟨arena, location, depth⟩ =
          onArena (Arena.amendDecl id (Decl.withLoweredName? name)) ⟨named, location, depth⟩ by
        simp only [setLoweredName, bind, EStateM.bind, onArena, run], ← same]
      exact unmoved_onArena (unmoved_amendDecl named id _)

private theorem eq_of_declines {step : BuildM Bool} {call : BuildCall} {unmovedFrom new : Builder}
    (performs : perform call = .changed <$> step) (unmoved : Unmoved unmovedFrom (step builder))
    (declines : builder.Declines call new) : new = unmovedFrom := by
  unfold Declines at declines
  simp only [performs, Functor.map, EStateM.map] at declines
  cases run : step builder with
  | error fault reached =>
      rw [run] at declines unmoved
      rcases declines with impossible | ⟨fault, failed⟩
      · cases impossible
      · cases failed
        exact unmoved
  | ok answer reached =>
      rw [run] at declines unmoved
      rcases declines with declined | ⟨fault, impossible⟩
      · cases declined
        exact unmoved
      · cases impossible

/-- A setter that answers false or fails leaves all nodes and lists alone; one for the lowered name
may have added a text. -/
theorem eq_of_setter_declines {call : BuildCall} {new : Builder} (setter : call.isSetter)
    (declines : builder.Declines call new) :
    (∃ names, new = { builder with arena := { builder.arena with names := names } }) ∧
      ((∀ id symbol, call ≠ .setLoweredName id symbol) → new = builder) := by
  have same_of_eq (same : new = builder) :
      (∃ names, new = { builder with arena := { builder.arena with names := names } }) ∧
        ((∀ id symbol, call ≠ .setLoweredName id symbol) → new = builder) :=
    ⟨⟨builder.arena.names, same⟩, fun _ => same⟩
  cases call with
  | resolve use target =>
      exact same_of_eq (eq_of_declines rfl (unmoved_onArena (unmoved_amendExpr _ use _)) declines)
  | resolveBreak leave loop =>
      exact same_of_eq (eq_of_declines rfl (unmoved_resolveBreak builder leave loop) declines)
  | setEscapes id escapes =>
      exact same_of_eq (eq_of_declines rfl (unmoved_onArena (unmoved_amendDecl _ id _)) declines)
  | setType id type =>
      exact same_of_eq (eq_of_declines rfl (unmoved_onArena (unmoved_amendDecl _ id _)) declines)
  | setLoweredName id symbol =>
      obtain ⟨names, unmoved⟩ := unmoved_setLoweredName builder id symbol
      exact ⟨⟨names, eq_of_declines rfl unmoved declines⟩,
        fun other => absurd rfl (other id symbol)⟩
  | _ => cases setter

end Builder

end

namespace Builder

/-- After any run the tables read as the store after the same calls, without those that found a
table full, and go on to answer like it. A node that is answered has the next index of its table.
Lists and texts once in the tables stay; a setter that answers false or fails leaves nodes and
lists alone; and no call is refused while the entries of all calls together fit one table. -/
theorem reads_as_store (calls : List BuildCall) :
    let builder := initial.afterAll calls
    let store := Store.empty.afterAll (initial.accepted calls)
    (∀ id, builder.arena.readExpr id = store.expr id) ∧
    (∀ id, builder.arena.readDecl id = store.decl id) ∧
    (∀ call, builder.accepts call →
      resultOf (perform call) builder = resultOf (Store.perform call) store) ∧
    (∀ call id, resultOf (perform call) builder = .ok (.expr id) →
      id.index.toNat = store.exprs.length) ∧
    (∀ call id, resultOf (perform call) builder = .ok (.decl id) →
      id.index.toNat = store.decls.length) ∧
    (∀ later, builder.arena.Retains (builder.afterAll later).arena) ∧
    (∀ call new, call.isSetter → builder.Declines call new →
      (∃ names, new = { builder with arena := { builder.arena with names := names } }) ∧
        ((∀ id symbol, call ≠ .setLoweredName id symbol) → new = builder)) ∧
    (totalEntries calls + 1 < wordLimit →
      initial.accepted calls = calls) := by
  intro builder store
  have mirrors : builder.Mirrors store :=
    (mirrors_afterAll mirrors_initial calls).1
  refine ⟨mirrors.readExpr, mirrors.readDecl, ?answers, ?exprIndex, ?declIndex, ?lists, ?setters,
    ?room⟩
  case answers =>
    intro call isAccepted
    exact ((mirrors_after mirrors call).2.1 isAccepted).2
  case exprIndex =>
    intro call
    exact (index_of_answer mirrors call).1
  case declIndex =>
    intro call
    exact (index_of_answer mirrors call).2
  case lists =>
    intro later
    exact (mirrors_afterAll mirrors later).2.retains
  case setters =>
    intro call new setter declines
    exact eq_of_setter_declines setter declines
  case room =>
    intro room
    apply accepted_eq_self mirrors_initial
    change 1 + _ < wordLimit
    omega

end Builder

def scatteredCalls : List BuildCall :=
  [.moveTo ⟨3, 1⟩, .enterDepth 2, .sequence [], .sequence [⟨0⟩, ⟨9⟩], .identifier "x",
    .resolve ⟨2⟩ ⟨7⟩, .resolve ⟨0⟩ ⟨7⟩, .resolveBreak ⟨9⟩ ⟨9⟩, .moveTo ⟨4, 1⟩,
    .declareFunction "f" [⟨5⟩] (some "int") ⟨9⟩, .setLoweredName ⟨8⟩ "g",
    .setLoweredName ⟨0⟩ "f_1", .setEscapes ⟨0⟩ true]

theorem reads_as_store_scattered :
    let arena := (Builder.initial.afterAll scatteredCalls).arena
    arena.readExpr ⟨0⟩ = .ok ⟨.sequence [], ⟨3, 1⟩⟩ ∧
      arena.readExpr ⟨1⟩ = .ok ⟨.sequence [⟨0⟩, ⟨9⟩], ⟨3, 1⟩⟩ ∧
      arena.readExpr ⟨2⟩ = .ok ⟨.identifier "x" (some ⟨7⟩) 2, ⟨3, 1⟩⟩ ∧
      arena.readExpr ⟨3⟩ = .error .indexOutOfBounds ∧
      arena.readDecl ⟨0⟩ = .ok ⟨"f", ⟨4, 1⟩, 2, some "int", .undefined, true,
        .function [⟨5⟩] ⟨9⟩ (some "f_1")⟩ := by
  obtain ⟨readsExpr, readsDecl, _, _, _, _, _, room⟩ := Builder.reads_as_store scatteredCalls
  have all : Builder.initial.accepted scatteredCalls = scatteredCalls := room (by decide)
  rw [all] at readsExpr readsDecl
  exact ⟨readsExpr ⟨0⟩, readsExpr ⟨1⟩, readsExpr ⟨2⟩, readsExpr ⟨3⟩, readsDecl ⟨0⟩⟩

end TigerTree
