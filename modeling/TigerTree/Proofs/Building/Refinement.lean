import TigerTree.Proofs.Building.Records

/-! A builder works like a plain store. Lists and texts are put into their own tables first, which
no record notices; the node that is added or amended last does in the tables what its record does
in the store. A step that finds a table full leaves all records alone. -/

set_option autoImplicit false

namespace TigerTree

/-- The number of entries in all tables. -/
def Arena.weight (arena : Arena) : Nat :=
  arena.exprs.size + arena.exprLists.size + arena.decls.size + arena.declLists.size +
    arena.names.size

structure Builder.Mirrors (builder : Builder) (store : Store) : Prop where
  indexed : builder.arena.names.Indexed
  exprs : ReadsAs builder.arena.exprRecord builder.arena.exprs store.exprs
  decls : ReadsAs builder.arena.declRecord builder.arena.decls store.decls
  location : builder.location = store.location
  depth : builder.depth = store.depth
  exprCount : store.exprs.length ≤ wordLimit
  declCount : store.decls.length ≤ wordLimit

structure Builder.Continues (old new : Builder) (entries : Nat) : Prop where
  retains : old.arena.Retains new.arena
  weight : new.arena.weight ≤ old.arena.weight + entries

structure Builder.Prepared (old new : Builder) (entries : Nat) : Prop
    extends old.Continues new entries where
  indexed : old.arena.names.Indexed → new.arena.names.Indexed
  exprs : new.arena.exprs = old.arena.exprs
  decls : new.arena.decls = old.arena.decls
  location : new.location = old.location
  depth : new.depth = old.depth

theorem Builder.Continues.trans {first second third : Builder} {entries more : Nat}
    (earlier : first.Continues second entries) (later : second.Continues third more) :
    first.Continues third (entries + more) where
  retains := earlier.retains.trans later.retains
  weight := by
    have before := earlier.weight
    have after := later.weight
    omega

theorem Builder.Prepared.mirrors {old new : Builder} {store : Store} {entries : Nat}
    (prepared : old.Prepared new entries) (mirrors : old.Mirrors store) : new.Mirrors store where
  indexed := prepared.indexed mirrors.indexed
  exprs := by
    rw [prepared.exprs]
    exact mirrors.exprs.mono (fun _ _ => prepared.retains.exprRecord)
  decls := by
    rw [prepared.decls]
    exact mirrors.decls.mono (fun _ _ => prepared.retains.declRecord)
  location := prepared.location.trans mirrors.location
  depth := prepared.depth.trans mirrors.depth
  exprCount := mirrors.exprCount
  declCount := mirrors.declCount

namespace Builder.Mirrors

variable {builder : Builder} {store : Store}

/-- An index is out of bounds on both sides, or its expression reads as its record. -/
theorem expr_cases (mirrors : builder.Mirrors store) (id : ExprId) :
    (builder.arena.expr id = .error .indexOutOfBounds ∧
        store.expr id = .error .indexOutOfBounds) ∨
      ∃ expr record, builder.arena.expr id = .ok expr ∧
        builder.arena.exprRecord expr = .ok record ∧ store.expr id = .ok record := by
  rcases mirrors.exprs.lookup id.index with
    ⟨missing, missingToo⟩ | ⟨expr, record, found, read, same⟩
  · exact .inl ⟨by rw [Arena.expr, missing], missingToo⟩
  · exact .inr ⟨expr, record, by rw [Arena.expr, found], read, same⟩

theorem decl_cases (mirrors : builder.Mirrors store) (id : DeclId) :
    (builder.arena.decl id = .error .indexOutOfBounds ∧
        store.decl id = .error .indexOutOfBounds) ∨
      ∃ decl record, builder.arena.decl id = .ok decl ∧
        builder.arena.declRecord decl = .ok record ∧ store.decl id = .ok record := by
  rcases mirrors.decls.lookup id.index with
    ⟨missing, missingToo⟩ | ⟨decl, record, found, read, same⟩
  · exact .inl ⟨by rw [Arena.decl, missing], missingToo⟩
  · exact .inr ⟨decl, record, by rw [Arena.decl, found], read, same⟩

theorem readExpr (mirrors : builder.Mirrors store) (id : ExprId) :
    builder.arena.readExpr id = store.expr id := by
  rcases mirrors.expr_cases id with ⟨missing, missingToo⟩ | ⟨expr, record, found, read, same⟩
  · rw [missingToo, Arena.readExpr, missing]
    rfl
  · rw [same, Arena.readExpr, found]
    exact read

theorem readDecl (mirrors : builder.Mirrors store) (id : DeclId) :
    builder.arena.readDecl id = store.decl id := by
  rcases mirrors.decl_cases id with ⟨missing, missingToo⟩ | ⟨decl, record, found, read, same⟩
  · rw [missingToo, Arena.readDecl, missing]
    rfl
  · rw [same, Arena.readDecl, found]
    exact read

end Builder.Mirrors

section

variable {First Second Result : Type} {builder : Builder} {store : Store} {entries more : Nat}

/-- A step that puts lists or texts into the tables; it fails only where a table is full. -/
def BuildM.Prepares (step : BuildM Result) (builder : Builder) (entries : Nat)
    (answer : Result → Arena → Prop) : Prop :=
  match step builder with
  | .ok result new => builder.Prepared new entries ∧ answer result new.arena
  | .error fault new =>
      fault = .capacityExceeded ∧ builder.Prepared new entries ∧
        wordLimit ≤ builder.arena.weight + entries

/-- What has come of a step of the builder, where the store took the given step. -/
def Builder.Agrees (builder : Builder) (entries : Nat) (store : Store)
    (reply : Result → BuildReply) (specified : EStateM.Result Fault Store BuildReply) :
    EStateM.Result Fault Builder Result → Prop
  | .ok result new =>
      ∃ newStore, specified = .ok (reply result) newStore ∧ new.Mirrors newStore ∧
        builder.Continues new entries
  | .error .capacityExceeded new =>
      new.Mirrors store ∧ builder.Continues new entries ∧
        wordLimit ≤ builder.arena.weight + entries
  | .error fault new =>
      specified = .error fault store ∧ new.Mirrors store ∧ builder.Continues new entries

/-- A step that does to the builder what the given step does to the store, unless a table is
full. -/
def BuildM.Follows (step : BuildM Result) (reply : Result → BuildReply) (builder : Builder)
    (entries : Nat) (specified : StoreM BuildReply) (store : Store) : Prop :=
  builder.Agrees entries store reply (specified store) (step builder)

theorem Builder.Continues.refl (builder : Builder) (entries : Nat) :
    builder.Continues builder entries :=
  ⟨Arena.Retains.refl builder.arena, Nat.le_add_right _ _⟩

theorem Builder.Agrees.after {between : Builder} {reply : Result → BuildReply}
    {specified : EStateM.Result Fault Store BuildReply}
    {outcome : EStateM.Result Fault Builder Result}
    (continues : builder.Continues between entries)
    (agrees : between.Agrees more store reply specified outcome) :
    builder.Agrees (entries + more) store reply specified outcome := by
  cases outcome with
  | ok result new =>
      obtain ⟨newStore, same, mirrors, later⟩ := agrees
      exact ⟨newStore, same, mirrors, continues.trans later⟩
  | error fault new =>
      cases fault with
      | capacityExceeded =>
          obtain ⟨mirrors, later, full⟩ := agrees
          have weight := continues.weight
          exact ⟨mirrors, continues.trans later, by omega⟩
      | _ =>
          obtain ⟨same, mirrors, later⟩ := agrees
          exact ⟨same, mirrors, continues.trans later⟩

theorem BuildM.Follows.mono {step : BuildM Result} {reply : Result → BuildReply}
    {specified : StoreM BuildReply} (follows : step.Follows reply builder entries specified store)
    (enough : entries ≤ more) : step.Follows reply builder more specified store := by
  have wider := Builder.Agrees.after (Builder.Continues.refl builder (more - entries)) follows
  rw [Nat.sub_add_cancel enough] at wider
  exact wider

theorem BuildM.Prepares.andThen {first : BuildM First} {second : First → BuildM Second}
    {between : First → Arena → Prop} {reply : Second → BuildReply}
    {specified : StoreM BuildReply} (prepares : first.Prepares builder entries between)
    (mirrors : builder.Mirrors store)
    (follows : ∀ result new, builder.Prepared new entries → new.Mirrors store →
      between result new.arena → (second result).Follows reply new more specified store) :
    (first >>= second).Follows reply builder (entries + more) specified store := by
  unfold BuildM.Prepares at prepares
  unfold BuildM.Follows at follows ⊢
  cases run : first builder with
  | ok result new =>
      rw [run] at prepares
      obtain ⟨prepared, holds⟩ := prepares
      have runBoth : (first >>= second) builder = second result new := by
        simp only [bind, EStateM.bind, run]
      rw [runBoth]
      exact (follows result new prepared (prepared.mirrors mirrors) holds).after
        prepared.toContinues
  | error fault new =>
      rw [run] at prepares
      obtain ⟨rfl, prepared, full⟩ := prepares
      have runBoth : (first >>= second) builder = .error .capacityExceeded new := by
        simp only [bind, EStateM.bind, run]
      rw [runBoth]
      have weight := prepared.weight
      refine ⟨prepared.mirrors mirrors, ⟨prepared.retains, ?_⟩, ?_⟩
      · omega
      · omega

/-! ### Lists and texts -/

structure Arena.Spares (old new : Arena) (entries : Nat) : Prop where
  exprs : new.exprs = old.exprs
  decls : new.decls = old.decls
  weight : new.weight ≤ old.weight + entries

/-- A change that spares the nodes. It may fail for want of room, and what it had added stays. -/
def ArenaM.Spares (change : ArenaM Result) (arena : Arena) (entries : Nat) : Prop :=
  match change arena with
  | .ok _ new => arena.Spares new entries
  | .error fault new =>
      fault = .capacityExceeded ∧ arena.Spares new entries ∧ wordLimit ≤ arena.weight + entries

theorem Arena.Spares.refl (arena : Arena) (entries : Nat) : arena.Spares arena entries :=
  ⟨rfl, rfl, Nat.le_add_right _ _⟩

namespace ArenaM.Spares

variable {change : ArenaM Result} {arena new : Arena}

theorem of_ok {result : Result} (run : change arena = .ok result new)
    (spares : arena.Spares new entries) : change.Spares arena entries := by
  unfold ArenaM.Spares
  rw [run]
  exact spares

theorem of_full (run : change arena = .error .capacityExceeded new)
    (spares : arena.Spares new entries) (full : wordLimit ≤ arena.weight + entries) :
    change.Spares arena entries := by
  unfold ArenaM.Spares
  rw [run]
  exact ⟨rfl, spares, full⟩

end ArenaM.Spares

private theorem prepared_of_grows {new : Arena} (grows : builder.arena.Grows new)
    (spares : builder.arena.Spares new entries) :
    builder.Prepared ⟨new, builder.location, builder.depth⟩ entries :=
  ⟨⟨.of_grows grows, spares.weight⟩, grows.indexed, spares.exprs, spares.decls, rfl, rfl⟩

private theorem prepares_onArena {change : ArenaM Result} {answer : Result → Arena → Prop}
    (adds : change.Adds builder.arena answer) (spares : change.Spares builder.arena entries) :
    (Builder.onArena change).Prepares builder entries answer := by
  unfold ArenaM.Adds at adds
  unfold ArenaM.Spares at spares
  unfold BuildM.Prepares Builder.onArena
  simp only
  cases run : change builder.arena with
  | ok result new =>
      rw [run] at adds spares
      exact ⟨prepared_of_grows adds.1 spares, adds.2⟩
  | error fault new =>
      rw [run] at adds spares
      obtain ⟨rfl, spares, full⟩ := spares
      exact ⟨rfl, prepared_of_grows adds spares, full⟩

theorem intern_prepares (indexed : builder.arena.names.Indexed) (text : String) :
    (Builder.onArena (Arena.intern text)).Prepares builder 1
      (fun name new => new.text name = .ok text) := by
  apply prepares_onArena (Arena.intern_adds _ indexed text)
  cases found : builder.arena.names.find? text with
  | some name =>
      have run : Arena.intern text builder.arena = .ok name builder.arena := by
        simp only [Arena.intern, NameTable.intern, found]
      exact .of_ok run (.refl _ _)
  | none =>
      by_cases room : builder.arena.names.size < wordLimit
      · have run : Arena.intern text builder.arena = .ok ⟨builder.arena.names.size.toUInt32⟩
            { builder.arena with names := builder.arena.names.push text } := by
          simp only [Arena.intern, NameTable.intern, found, if_pos room]
        refine .of_ok run ⟨rfl, rfl, ?_⟩
        simp only [Arena.weight, NameTable.size, NameTable.push, Array.size_push]
        omega
      · have run : Arena.intern text builder.arena = .error .capacityExceeded builder.arena := by
          simp only [Arena.intern, NameTable.intern, found, if_neg room]
        refine .of_full run (.refl _ _) ?_
        simp only [Arena.weight]
        omega

private theorem spares_addExprList (arena : Arena) (ids : List ExprId) :
    (Arena.addExprList ids).Spares arena ids.length := by
  obtain ⟨lists, _, size, outcome⟩ := Arena.addExprList_cases arena ids
  have spares : arena.Spares { arena with exprLists := lists } ids.length := by
    refine ⟨rfl, rfl, ?_⟩
    simp only [Arena.weight]
    omega
  rcases outcome with ⟨range, run, _⟩ | ⟨run, full⟩
  · exact .of_ok run spares
  · refine .of_full run spares ?_
    simp only [Arena.weight]
    omega

private theorem spares_addDeclList (arena : Arena) (ids : List DeclId) :
    (Arena.addDeclList ids).Spares arena ids.length := by
  obtain ⟨lists, _, size, outcome⟩ := Arena.addDeclList_cases arena ids
  have spares : arena.Spares { arena with declLists := lists } ids.length := by
    refine ⟨rfl, rfl, ?_⟩
    simp only [Arena.weight]
    omega
  rcases outcome with ⟨range, run, _⟩ | ⟨run, full⟩
  · exact .of_ok run spares
  · refine .of_full run spares ?_
    simp only [Arena.weight]
    omega

theorem addExprList_prepares (ids : List ExprId) :
    (Builder.onArena (Arena.addExprList ids)).Prepares builder ids.length
      (fun range new => new.exprList range = .ok ids) :=
  prepares_onArena (Arena.addExprList_adds _ ids) (spares_addExprList _ ids)

theorem addDeclList_prepares (ids : List DeclId) :
    (Builder.onArena (Arena.addDeclList ids)).Prepares builder ids.length
      (fun range new => new.declList range = .ok ids) :=
  prepares_onArena (Arena.addDeclList_adds _ ids) (spares_addDeclList _ ids)

variable {arena : Arena} {location : Location} {depth : UInt32}

private theorem retains_withExprs (arena : Arena) (exprs : Array Expr) :
    arena.Retains { arena with exprs := exprs } :=
  ⟨fun _ _ => id, fun _ _ => id, fun _ _ => id⟩

private theorem retains_withDecls (arena : Arena) (decls : Array Decl) :
    arena.Retains { arena with decls := decls } :=
  ⟨fun _ _ => id, fun _ _ => id, fun _ _ => id⟩

private theorem mirrors_withExprs (mirrors : Builder.Mirrors ⟨arena, location, depth⟩ store)
    {exprs : Array Expr} {records : List ExprRecord}
    (reads : ReadsAs arena.exprRecord exprs records) (count : records.length ≤ wordLimit) :
    Builder.Mirrors ⟨{ arena with exprs := exprs }, location, depth⟩
      { store with exprs := records } where
  indexed := mirrors.indexed
  exprs := reads.mono (fun _ _ => (retains_withExprs arena exprs).exprRecord)
  decls := mirrors.decls.mono (fun _ _ => (retains_withExprs arena exprs).declRecord)
  location := mirrors.location
  depth := mirrors.depth
  exprCount := count
  declCount := mirrors.declCount

private theorem mirrors_withDecls (mirrors : Builder.Mirrors ⟨arena, location, depth⟩ store)
    {decls : Array Decl} {records : List DeclRecord}
    (reads : ReadsAs arena.declRecord decls records) (count : records.length ≤ wordLimit) :
    Builder.Mirrors ⟨{ arena with decls := decls }, location, depth⟩
      { store with decls := records } where
  indexed := mirrors.indexed
  exprs := mirrors.exprs.mono (fun _ _ => (retains_withDecls arena decls).exprRecord)
  decls := reads.mono (fun _ _ => (retains_withDecls arena decls).declRecord)
  location := mirrors.location
  depth := mirrors.depth
  exprCount := mirrors.exprCount
  declCount := count

theorem add_follows (mirrors : builder.Mirrors store) {form : StoredForm} {content : ExprContent}
    (reads : ∀ location, builder.arena.exprRecord ⟨form, location⟩ = .ok ⟨content, location⟩) :
    (Builder.add form).Follows .expr builder 1 (Store.addExpr content) store := by
  obtain ⟨arena, location, depth⟩ := builder
  have sameLocation : location = store.location := mirrors.location
  have sameSize : arena.exprs.size = store.exprs.length := mirrors.exprs.size_eq
  unfold BuildM.Follows
  by_cases room : arena.exprs.size < wordLimit
  · rw [show Builder.add form ⟨arena, location, depth⟩ = .ok ⟨arena.exprs.size.toUInt32⟩
        ⟨{ arena with exprs := arena.exprs.push ⟨form, location⟩ }, location, depth⟩ by
      simp only [Builder.add, Builder.currentLocation, Builder.onArena, Arena.addExpr, bind,
        EStateM.bind, if_pos room]]
    have isRecord := reads location
    rw [sameLocation] at isRecord
    refine ⟨{ store with exprs := store.exprs ++ [⟨content, store.location⟩] }, ?_, ?_,
      retains_withExprs _ _, ?_⟩
    · rw [sameSize]
      rfl
    · apply mirrors_withExprs mirrors
      · rw [sameLocation]
        exact mirrors.exprs.push isRecord
      · rw [List.length_append, List.length_singleton, ← sameSize]
        exact room
    · simp only [Arena.weight, Array.size_push]
      omega
  · rw [show Builder.add form ⟨arena, location, depth⟩ =
        .error .capacityExceeded ⟨arena, location, depth⟩ by
      simp only [Builder.add, Builder.currentLocation, Builder.onArena, Arena.addExpr, bind,
        EStateM.bind, if_neg room]]
    refine ⟨mirrors, .refl _ _, ?_⟩
    simp only [Arena.weight]
    omega

theorem addDecl_follows (mirrors : builder.Mirrors store) {decl : Decl} {text : String}
    {typeText : Option String} {content : DeclContent}
    (reads : builder.arena.declRecord decl =
      .ok ⟨text, store.location, store.depth, typeText, .undefined, false, content⟩) :
    (Builder.onArena (Arena.addDecl decl)).Follows .decl builder 1
      (Store.addDecl text typeText content) store := by
  obtain ⟨arena, location, depth⟩ := builder
  have sameSize : arena.decls.size = store.decls.length := mirrors.decls.size_eq
  unfold BuildM.Follows
  by_cases room : arena.decls.size < wordLimit
  · rw [show Builder.onArena (Arena.addDecl decl) ⟨arena, location, depth⟩ =
        .ok ⟨arena.decls.size.toUInt32⟩
          ⟨{ arena with decls := arena.decls.push decl }, location, depth⟩ by
      simp only [Builder.onArena, Arena.addDecl, if_pos room]]
    refine ⟨{ store with decls := store.decls ++
      [⟨text, store.location, store.depth, typeText, .undefined, false, content⟩] }, ?_, ?_,
      retains_withDecls _ _, ?_⟩
    · rw [sameSize]
      rfl
    · apply mirrors_withDecls mirrors
      · exact mirrors.decls.push reads
      · rw [List.length_append, List.length_singleton, ← sameSize]
        exact room
    · simp only [Arena.weight, Array.size_push]
      omega
  · rw [show Builder.onArena (Arena.addDecl decl) ⟨arena, location, depth⟩ =
        .error .capacityExceeded ⟨arena, location, depth⟩ by
      simp only [Builder.onArena, Arena.addDecl, if_neg room]]
    refine ⟨mirrors, .refl _ _, ?_⟩
    simp only [Arena.weight]
    omega

theorem amendExpr_follows (mirrors : builder.Mirrors store) (id : ExprId)
    {amendment : Expr → Option Expr} {specified : ExprRecord → Option ExprRecord}
    (commutes : ∀ expr record, builder.arena.exprRecord expr = .ok record →
      (amendment expr).map builder.arena.exprRecord = (specified record).map .ok) :
    (Builder.onArena (Arena.amendExpr id amendment)).Follows .changed builder 0
      (Store.amendExpr id specified) store := by
  obtain ⟨arena, location, depth⟩ := builder
  unfold BuildM.Follows Store.amendExpr Builder.onArena Arena.amendExpr
  rcases mirrors.expr_cases id with ⟨missing, missingToo⟩ | ⟨expr, record, found, read, same⟩
  · simp only [missing, missingToo]
    exact ⟨rfl, mirrors, .refl _ _⟩
  · have amends := commutes expr record read
    simp only [found, same]
    cases isAmended : amendment expr with
    | none =>
        rw [isAmended] at amends
        rw [Option.map_eq_none_iff.mp amends.symm]
        exact ⟨store, rfl, mirrors, .refl _ _⟩
    | some amended =>
        rw [isAmended] at amends
        obtain ⟨changed, isChanged, isRead⟩ := Option.map_eq_some_iff.mp amends.symm
        rw [isChanged]
        refine ⟨_, rfl, ?_, retains_withExprs _ _, ?_⟩
        · apply mirrors_withExprs mirrors
          · exact mirrors.exprs.set isRead.symm id.index.toNat
          · rw [List.length_set]
            exact mirrors.exprCount
        · simp only [Arena.weight, Array.size_setIfInBounds]
          omega

theorem amendDecl_follows (mirrors : builder.Mirrors store) (id : DeclId)
    {amendment : Decl → Option Decl} {specified : DeclRecord → Option DeclRecord}
    (commutes : ∀ decl record, builder.arena.declRecord decl = .ok record →
      (amendment decl).map builder.arena.declRecord = (specified record).map .ok) :
    (Builder.onArena (Arena.amendDecl id amendment)).Follows .changed builder 0
      (Store.amendDecl id specified) store := by
  obtain ⟨arena, location, depth⟩ := builder
  unfold BuildM.Follows Store.amendDecl Builder.onArena Arena.amendDecl
  rcases mirrors.decl_cases id with ⟨missing, missingToo⟩ | ⟨decl, record, found, read, same⟩
  · simp only [missing, missingToo]
    exact ⟨rfl, mirrors, .refl _ _⟩
  · have amends := commutes decl record read
    simp only [found, same]
    cases isAmended : amendment decl with
    | none =>
        rw [isAmended] at amends
        rw [Option.map_eq_none_iff.mp amends.symm]
        exact ⟨store, rfl, mirrors, .refl _ _⟩
    | some amended =>
        rw [isAmended] at amends
        obtain ⟨changed, isChanged, isRead⟩ := Option.map_eq_some_iff.mp amends.symm
        rw [isChanged]
        refine ⟨_, rfl, ?_, retains_withDecls _ _, ?_⟩
        · apply mirrors_withDecls mirrors
          · exact mirrors.decls.set isRead.symm id.index.toNat
          · rw [List.length_set]
            exact mirrors.declCount
        · simp only [Arena.weight, Array.size_setIfInBounds]
          omega

end

end TigerTree
