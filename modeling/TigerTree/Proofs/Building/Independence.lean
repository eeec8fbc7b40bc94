import TigerTree.Proofs.Building.Lowering
import TigerTree.Proofs.Building.Refusals
import TigerTree.Proofs.Building.Setters

/-! Setters of a builder that write different fields. In what order they are called cannot be seen:
each gives the same answer, and the tables differ in the numbers of lowered names at most. The one
thing that the order can decide is who gets the last places in the table of names. -/

set_option autoImplicit false

namespace TigerTree

/-- The tables are the same but for decorations and names. -/
structure Arena.Redresses (old new : Arena) : Prop where
  exprs : new.exprs.map (fun expr => expr.form.undecorated) =
    old.exprs.map (fun expr => expr.form.undecorated)
  exprLists : new.exprLists = old.exprLists
  decls : new.decls.map Decl.plain = old.decls.map Decl.plain
  declLists : new.declLists = old.declLists

namespace Arena.Redresses

variable {old new arena : Arena}

theorem of_names (arena : Arena) (names : NameTable) :
    arena.Redresses { arena with names := names } :=
  ⟨rfl, rfl, rfl, rfl⟩

theorem symm (redresses : old.Redresses new) : new.Redresses old :=
  ⟨redresses.exprs.symm, redresses.exprLists.symm, redresses.decls.symm, redresses.declLists.symm⟩

theorem trans {third : Arena} (earlier : old.Redresses new) (later : new.Redresses third) :
    old.Redresses third where
  exprs := later.exprs.trans earlier.exprs
  exprLists := later.exprLists.trans earlier.exprLists
  decls := later.decls.trans earlier.decls
  declLists := later.declLists.trans earlier.declLists

private theorem map_setIfInBounds {Entry Plain : Type} {plain : Entry → Plain}
    {table : Array Entry} {index : Nat} {entry amended : Entry}
    (found : table[index]? = some entry) (same : plain amended = plain entry) :
    (table.setIfInBounds index amended).map plain = table.map plain := by
  apply Array.ext_getElem?
  intro other
  rw [Array.getElem?_map, Array.getElem?_map, Array.getElem?_setIfInBounds]
  by_cases here : index = other
  · obtain ⟨inside, _⟩ := Array.getElem?_eq_some_iff.mp found
    rw [if_pos here, if_pos (here ▸ inside), ← here, found, Option.map_some, Option.map_some, same]
  · rw [if_neg here]

theorem of_redecorates {change : ArenaM Bool} (redecorates : Arena.Redecorates change)
    (arena : Arena) : arena.Redresses (stateAfter change arena) := by
  cases redecorates with
  | @expr id amendment keeps =>
      rcases Builder.amendExpr_cases arena id amendment with
        same | ⟨expr, amended, found, amends, changed⟩
      · rw [same]
        exact of_names arena arena.names
      · rw [changed]
        exact ⟨map_setIfInBounds (Arena.expr_eq_ok.mp found) (keeps expr amended amends),
          rfl, rfl, rfl⟩
  | @decl id amendment keeps =>
      rcases Builder.amendDecl_cases arena id amendment with
        same | ⟨decl, amended, found, amends, changed⟩
      · rw [same]
        exact of_names arena arena.names
      · rw [changed]
        exact ⟨rfl, rfl, map_setIfInBounds (Arena.decl_eq_ok.mp found)
          (keeps decl amended amends), rfl⟩

theorem evaluate (redresses : old.Redresses new) (exprs : new.exprs = old.exprs) (node : NodeId) :
    new.evaluate node = old.evaluate node := by
  have outlines (arena : Arena) :
      arena.decls.map outline = (arena.decls.map Decl.plain).map outline := by
    rw [Array.map_map]
    refine Array.map_congr_left (fun decl _ => ?_)
    obtain ⟨name, location, depth, typeName, type, escapes, form⟩ := decl
    cases form <;> rfl
  refine evaluate_congr exprs redresses.exprLists redresses.declLists ?_ node
  rw [outlines new, redresses.decls, outlines old]

end Arena.Redresses

namespace Builder

variable {builder : Builder} {call : BuildCall} {calls : List BuildCall}

theorem redresses_after (setter : call.isSetter) :
    builder.arena.Redresses (builder.after call).arena := by
  obtain ⟨change, redecorates, isAfter⟩ := arena_after setter builder
  rw [isAfter]
  exact (Arena.Redresses.of_names builder.arena _).trans (.of_redecorates redecorates _)

theorem redresses_afterAll (builder : Builder) (setters : ∀ call ∈ calls, call.isSetter) :
    builder.arena.Redresses (builder.afterAll calls).arena := by
  induction calls generalizing builder with
  | nil => exact .of_names builder.arena builder.arena.names
  | cons call rest ih =>
      have later := ih (builder.after call)
        (fun next isNext => setters next (List.mem_cons_of_mem call isNext))
      exact (redresses_after (setters call List.mem_cons_self)).trans later

end Builder

/-! ### Tables that read alike -/

namespace Arena

variable {left right : Arena}

def Shares (left right : Arena) (name : Name) : Prop :=
  ∃ text, left.text name = .ok text ∧ right.text name = .ok text

/-- An expression is known by its record and what no setter changes. -/
theorem eq_of_exprRecords {first second : Expr} {record : ExprRecord}
    (read : left.exprRecord first = .ok record) (readToo : right.exprRecord second = .ok record)
    (same : first.form.undecorated = second.form.undecorated) :
    first = second ∧ ∀ name ∈ first.form.names, left.Shares right name := by
  obtain ⟨shape, resolved, spelled, isLocation⟩ := exprRecord_eq_ok.mp read
  obtain ⟨shapeToo, resolvedToo, spelledToo, isLocationToo⟩ := exprRecord_eq_ok.mp readToo
  obtain ⟨form, location⟩ := first
  obtain ⟨other, otherLocation⟩ := second
  obtain ⟨content, recordLocation⟩ := record
  cases isLocation
  cases isLocationToo
  cases form with
  | string contents =>
      cases other with
      | string _ =>
          cases same
          cases resolved
          cases resolvedToo
          obtain ⟨text, isText, rfl⟩ := map_eq_ok spelled
          obtain ⟨textToo, isTextToo, isContent⟩ := map_eq_ok spelledToo
          cases isContent
          exact ⟨rfl, List.forall_mem_singleton.mpr ⟨text, isText, isTextToo⟩⟩
      | _ => cases same
  | identifier name link depth =>
      cases other with
      | identifier _ linkToo depthToo =>
          cases same
          cases resolved
          cases resolvedToo
          obtain ⟨text, isText, rfl⟩ := map_eq_ok spelled
          obtain ⟨textToo, isTextToo, isContent⟩ := map_eq_ok spelledToo
          cases isContent
          exact ⟨rfl, List.forall_mem_singleton.mpr ⟨text, isText, isTextToo⟩⟩
      | _ => cases same
  | call function arguments link =>
      cases other with
      | call _ argumentsToo linkToo =>
          cases same
          obtain ⟨ids, _, isShape⟩ := bind_eq_ok resolved
          obtain ⟨idsToo, _, isShapeToo⟩ := bind_eq_ok resolvedToo
          cases isShape
          cases isShapeToo
          obtain ⟨text, isText, rfl⟩ := map_eq_ok spelled
          obtain ⟨textToo, isTextToo, isContent⟩ := map_eq_ok spelledToo
          cases isContent
          exact ⟨rfl, List.forall_mem_singleton.mpr ⟨text, isText, isTextToo⟩⟩
      | _ => cases same
  | breakLoop target =>
      cases other with
      | breakLoop targetToo =>
          cases resolved
          cases resolvedToo
          cases spelled
          cases spelledToo
          exact ⟨rfl, fun _ member => by cases member⟩
      | _ => cases same
  | _ =>
      refine ⟨?_, fun _ member => by cases member⟩
      cases other <;> cases same
      rfl

private theorem shares_of_text? {name : Name} {text : Option String}
    (read : left.text? (some name) = .ok text) (readToo : right.text? (some name) = .ok text) :
    left.Shares right name := by
  obtain ⟨known, isKnown, rfl⟩ := map_eq_ok read
  obtain ⟨other, isOther, same⟩ := map_eq_ok readToo
  cases same
  exact ⟨known, isKnown, isOther⟩

private theorem renumber_of_text? (rightNames : right.names.Bijective)
    {name other : Option Name} {text : Option String} (read : left.text? name = .ok text)
    (readToo : right.text? other = .ok text) :
    other = name.map (left.names.renumber right.names) := by
  cases name with
  | none =>
      cases read
      cases other with
      | none => rfl
      | some symbol =>
          obtain ⟨_, _, impossible⟩ := map_eq_ok readToo
          cases impossible
  | some symbol =>
      obtain ⟨known, isKnown, rfl⟩ := map_eq_ok read
      cases other with
      | none => cases readToo
      | some symbolToo =>
          obtain ⟨knownToo, isKnownToo, same⟩ := map_eq_ok readToo
          cases same
          exact congrArg some (rightNames.renumber_of_text isKnown isKnownToo).symm

/-- A declaration is known by its record and what no setter changes, but for the number of its
lowered name. -/
theorem eq_of_declRecords (rightNames : right.names.Bijective) {first second : Decl}
    {record : DeclRecord} (read : left.declRecord first = .ok record)
    (readToo : right.declRecord second = .ok record) (same : first.plain = second.plain) :
    second = first.renumbered (left.names.renumber right.names) ∧
      ∀ name ∈ first.givenNames, left.Shares right name := by
  obtain ⟨named, typed, spelled, isLocation, isDepth, isType, isEscapes⟩ :=
    declRecord_eq_ok.mp read
  obtain ⟨namedToo, typedToo, spelledToo, _, _, isTypeToo, isEscapesToo⟩ :=
    declRecord_eq_ok.mp readToo
  rw [isType] at isTypeToo
  rw [isEscapes] at isEscapesToo
  obtain ⟨name, location, depth, typeName, type, escapes, form⟩ := first
  obtain ⟨_, _, _, _, typeToo, escapesToo, other⟩ := second
  simp only [Decl.plain, Decl.mk.injEq] at same
  obtain ⟨rfl, rfl, rfl, rfl, _, _, sameForm⟩ := same
  cases isTypeToo
  cases isEscapesToo
  constructor
  · cases form with
    | value initializer =>
        cases other with
        | value initializerToo =>
            cases sameForm
            rfl
        | function _ _ _ => cases sameForm
    | function parameters body loweredName =>
        cases other with
        | value _ => cases sameForm
        | function parametersToo bodyToo loweredToo =>
            cases sameForm
            obtain ⟨ids, _, spelled⟩ := bind_eq_ok spelled
            obtain ⟨idsToo, _, spelledToo⟩ := bind_eq_ok spelledToo
            obtain ⟨lowered, isLowered, isContent⟩ := bind_eq_ok spelled
            obtain ⟨loweredTextToo, isLoweredToo, isContentToo⟩ := bind_eq_ok spelledToo
            rw [← isContentToo] at isContent
            cases isContent
            rw [renumber_of_text? rightNames isLowered isLoweredToo]
            rfl
  · intro given isGiven
    rcases List.mem_cons.mp isGiven with rfl | isTypeName
    · exact ⟨_, named, namedToo⟩
    · cases Option.mem_toList.mp isTypeName
      exact shares_of_text? typed typedToo

end Arena

private theorem ReadsAs.both {Entry Record Plain : Type} {read readToo : Entry → Except Fault Record}
    {table tableToo : Array Entry} {records : List Record} {plain : Entry → Plain}
    (reads : ReadsAs read table records) (readsToo : ReadsAs readToo tableToo records)
    (same : tableToo.map plain = table.map plain) (index : Nat) :
    (table[index]? = none ∧ tableToo[index]? = none) ∨
      ∃ entry entryToo record, table[index]? = some entry ∧ tableToo[index]? = some entryToo ∧
        read entry = .ok record ∧ readToo entryToo = .ok record ∧ plain entry = plain entryToo := by
  have here := reads.entry index
  have hereToo := readsToo.entry index
  have plainly := congrArg (fun plains => plains[index]?) same
  simp only [Array.getElem?_map] at plainly
  cases found : table[index]? with
  | none =>
      rw [found, Option.map_none, Option.map_eq_none_iff] at plainly
      exact .inl ⟨rfl, plainly⟩
  | some entry =>
      rw [found] at here plainly
      obtain ⟨entryToo, foundToo, samePlain⟩ := Option.map_eq_some_iff.mp plainly
      obtain ⟨record, isRecord, isRead⟩ := Option.map_eq_some_iff.mp here.symm
      rw [foundToo, isRecord] at hereToo
      exact .inr ⟨entry, entryToo, record, rfl, foundToo, isRead.symm,
        Option.some.inj hereToo, samePlain.symm⟩

namespace Builder.Mirrors

variable {left right : Builder} {store : Store}

/-- Builders that read as stores with the same expressions, and differ in decorations and names
only, hold the same expressions. -/
theorem exprs_eq {other : Store} (leftMirrors : left.Mirrors store)
    (rightMirrors : right.Mirrors other) (sameRecords : other.exprs = store.exprs)
    (redresses : left.arena.Redresses right.arena) : right.arena.exprs = left.arena.exprs := by
  apply Array.ext_getElem?
  intro index
  rcases leftMirrors.exprs.both (sameRecords ▸ rightMirrors.exprs) redresses.exprs index with
    ⟨missing, missingToo⟩ | ⟨expr, exprToo, record, found, foundToo, read, readToo, same⟩
  · rw [missing, missingToo]
  · rw [found, foundToo, (Arena.eq_of_exprRecords read readToo same).1]

/-- Two builders that read as one store, and hold the same lists, hold the same tables up to the
numbers of lowered names. -/
theorem renumbers (leftMirrors : left.Mirrors store) (rightMirrors : right.Mirrors store)
    (redresses : left.arena.Redresses right.arena) (leftNames : left.arena.names.Bijective)
    (rightNames : right.arena.names.Bijective)
    (sameTexts : left.arena.names.SameTexts right.arena.names) :
    left.arena.Renumbers right.arena (leftNames.renumbering rightNames sameTexts) := by
  have exprs := leftMirrors.exprs.both rightMirrors.exprs redresses.exprs
  have decls := leftMirrors.decls.both rightMirrors.decls redresses.decls
  have fixed {name : Name} (shares : left.arena.Shares right.arena name) :
      leftNames.renumbering rightNames sameTexts name = name := by
    obtain ⟨text, reads, readsToo⟩ := shares
    exact rightNames.renumber_of_text reads readsToo
  refine ⟨leftMirrors.exprs_eq rightMirrors rfl redresses, redresses.exprLists, ?decls,
    redresses.declLists, leftNames.text_renumber rightNames sameTexts, ?exprNames, ?declNames⟩
  case decls =>
    apply Array.ext_getElem?
    intro index
    rw [Array.getElem?_map]
    rcases decls index with ⟨missing, missingToo⟩ |
      ⟨decl, declToo, record, found, foundToo, read, readToo, same⟩
    · rw [missing, missingToo, Option.map_none]
    · rw [found, foundToo, (Arena.eq_of_declRecords rightNames read readToo same).1]
      rfl
  case exprNames =>
    intro id expr isExpr name isName
    rcases exprs id.index.toNat with ⟨missing, _⟩ |
      ⟨other, exprToo, record, found, _, read, readToo, same⟩
    · rw [Arena.expr_eq_ok.mp isExpr] at missing
      cases missing
    · rw [Arena.expr_eq_ok.mp isExpr] at found
      cases found
      exact fixed ((Arena.eq_of_exprRecords read readToo same).2 name isName)
  case declNames =>
    intro id decl isDecl name isName
    rcases decls id.index.toNat with ⟨missing, _⟩ |
      ⟨other, declToo, record, found, _, read, readToo, same⟩
    · rw [Arena.decl_eq_ok.mp isDecl] at missing
      cases missing
    · rw [Arena.decl_eq_ok.mp isDecl] at found
      cases found
      exact fixed ((Arena.eq_of_declRecords rightNames read readToo same).2 name isName)

/-- With the same names they are the same builder. -/
theorem eq_of_names (leftMirrors : left.Mirrors store) (rightMirrors : right.Mirrors store)
    (redresses : left.arena.Redresses right.arena) (bijective : left.arena.names.Bijective)
    (names : right.arena.names = left.arena.names) : right = left := by
  have sameTexts : left.arena.names.SameTexts right.arena.names := by
    rw [names]
    exact fun _ => Iff.rfl
  have renumbers := leftMirrors.renumbers rightMirrors redresses bijective (names ▸ bijective)
    sameTexts
  have fixed (name : Name) : left.arena.names.renumber right.arena.names name = name := by
    rw [names]
    exact bijective.renumber_self name
  have sameDecls : right.arena.decls = left.arena.decls := by
    refine renumbers.decls.trans (Array.map_id'' (fun decl => ?_) _)
    exact Decl.renumbered_of_fixed fixed decl
  have sameExprs := renumbers.exprs
  have sameExprLists := renumbers.exprLists
  have sameDeclLists := renumbers.declLists
  have sameLocation := rightMirrors.location.trans leftMirrors.location.symm
  have sameDepth := rightMirrors.depth.trans leftMirrors.depth.symm
  clear renumbers fixed
  obtain ⟨⟨_, _, _, _, _⟩, _, _⟩ := left
  obtain ⟨⟨_, _, _, _, _⟩, _, _⟩ := right
  cases sameExprs
  cases sameExprLists
  cases sameDecls
  cases sameDeclLists
  cases names
  cases sameLocation
  cases sameDepth
  rfl

end Builder.Mirrors

namespace Builder

variable {builder : Builder} {store : Store} {call : BuildCall} {calls other : List BuildCall}

/-- The calls of a run with their answers. -/
def transcript (builder : Builder) :
    List BuildCall → List (BuildCall × Except Fault BuildReply)
  | [] => []
  | call :: rest =>
      (call, resultOf (perform call) builder) :: (builder.after call).transcript rest

/-- The call finds its field and writes it. -/
def Writes (builder : Builder) (call : BuildCall) : Prop :=
  resultOf (perform call) builder = .ok (.changed true)

instance (builder : Builder) (call : BuildCall) : Decidable (builder.Writes call) :=
  match answer : resultOf (perform call) builder with
  | .ok (.changed true) => isTrue answer
  | .ok (.changed false) => isFalse (fun writes => nomatch answer.symm.trans writes)
  | .ok .done => isFalse (fun writes => nomatch answer.symm.trans writes)
  | .ok (.node _) => isFalse (fun writes => nomatch answer.symm.trans writes)
  | .error _ => isFalse (fun writes => nomatch answer.symm.trans writes)

def Clash (builder : Builder) (first second : BuildCall) : Prop :=
  first.field? = second.field? ∧ builder.Writes first ∧ builder.Writes second

instance (builder : Builder) (first second : BuildCall) : Decidable (builder.Clash first second) :=
  inferInstanceAs (Decidable (_ ∧ _ ∧ _))

/-- No two of the calls write the same field. -/
def Independent (builder : Builder) (calls : List BuildCall) : Prop :=
  calls.Pairwise (fun first second => ¬ builder.Clash first second)

instance (builder : Builder) (calls : List BuildCall) : Decidable (builder.Independent calls) :=
  inferInstanceAs (Decidable (calls.Pairwise _))

/-- What a setter answers in a run that comes to these names. It is refused if its text is not among
them; otherwise it answers as in the store when the run began. -/
def answerIn (store : Store) (names : NameTable) (call : BuildCall) : Except Fault BuildReply :=
  if call.isNamedIn names then resultOf (Store.perform call) store else .error .capacityExceeded

theorem answerIn_cases (names : NameTable) (setter : call.isSetter) :
    answerIn store names call = .ok (.changed true) ∨
      answerIn store names call = .ok (.changed false) ∨
      answerIn store names call = .error .indexOutOfBounds ∨
      answerIn store names call = .error .capacityExceeded ∧ ¬ call.isNamedIn names := by
  unfold answerIn
  by_cases named : call.isNamedIn names
  · rw [if_pos named]
    rcases Store.answer_cases store setter with applied | declined | fails
    · exact .inl applied
    · exact .inr (.inl declined)
    · exact .inr (.inr (.inl fails))
  · rw [if_neg named]
    exact .inr (.inr (.inr ⟨rfl, named⟩))

theorem answerIn_alike (store : Store) (names others : NameTable) (call : BuildCall) :
    answerIn store names call = answerIn store others call ∨
      answerIn store names call = .error .capacityExceeded ∨
      answerIn store others call = .error .capacityExceeded := by
  unfold answerIn
  split
  · split
    · exact .inl rfl
    · exact .inr (.inr rfl)
  · exact .inr (.inl rfl)

/-- Whether a setter is answered or refused, the builder goes on like a store with the same bare
records. -/
theorem Mirrors.exists_after (mirrors : builder.Mirrors store) (setter : call.isSetter) :
    ∃ next, (builder.after call).Mirrors next ∧ next.bare = store.bare := by
  obtain ⟨_, whenAccepted, whenRefused⟩ := mirrors_after mirrors call
  cases isAccepted : builder.accepts call with
  | true => exact ⟨_, (whenAccepted isAccepted).1, Store.bare_after setter⟩
  | false => exact ⟨_, (whenRefused isAccepted).1, rfl⟩

theorem Mirrors.transcript (mirrors : builder.Mirrors store)
    (setters : ∀ call ∈ calls, call.isSetter) :
    builder.transcript calls = calls.map (fun call =>
      (call, answerIn store (builder.afterAll calls).arena.names call)) := by
  induction calls generalizing builder store with
  | nil => rfl
  | cons call rest ih =>
      have setter := setters call List.mem_cons_self
      have restSets := fun next isNext => setters next (List.mem_cons_of_mem call isNext)
      obtain ⟨next, later, sameBare⟩ := mirrors.exists_after setter
      rw [Builder.transcript, ih later restSets, List.map_cons]
      congr 1
      · refine congrArg (Prod.mk call) ?_
        have first := accepts_iff_isNamedIn builder setters
        unfold answerIn
        by_cases isAccepted : builder.accepts call
        · rw [if_pos (first.mp isAccepted)]
          exact ((mirrors_after mirrors call).2.1 isAccepted).2
        · rw [if_neg (fun named => isAccepted (first.mpr named))]
          exact answer_of_refused setter ((refuses_iff setter).mpr isAccepted)
      · refine List.map_congr_left (fun next isNext => ?_)
        unfold answerIn
        rw [Store.answer_of_bare (restSets next isNext) sameBare]
        rfl

theorem Mirrors.mem_transcript (mirrors : builder.Mirrors store)
    (setters : ∀ call ∈ calls, call.isSetter) {answer : Except Fault BuildReply}
    (isEntry : (call, answer) ∈ builder.transcript calls) :
    call ∈ calls ∧ answer = answerIn store (builder.afterAll calls).arena.names call := by
  rw [mirrors.transcript setters] at isEntry
  obtain ⟨_, member, same⟩ := List.mem_map.mp isEntry
  cases same
  exact ⟨member, rfl⟩

theorem Independent.perm (independent : builder.Independent calls) (reordered : other.Perm calls) :
    builder.Independent other := by
  refine (reordered.pairwise_iff ?_).mpr independent
  rintro first second apart ⟨same, secondWrites, firstWrites⟩
  exact apart ⟨same.symm, firstWrites, secondWrites⟩

theorem Mirrors.independent (mirrors : builder.Mirrors store)
    (setters : ∀ call ∈ calls, call.isSetter) (independent : builder.Independent calls) :
    store.Independent (builder.accepted calls) := by
  have isFilter := accepted_eq_filter builder setters
  have apart : (builder.accepted calls).Pairwise
      (fun first second => ¬ builder.Clash first second) := by
    rw [isFilter]
    exact List.Pairwise.filter _ independent
  refine List.Pairwise.imp_of_mem ?_ apart
  rintro first second isFirst isSecond apart ⟨same, firstWrites, secondWrites⟩
  have firstAnswer := ((mirrors_after mirrors first).2.1 (accepts_of_mem setters isFirst)).2
  have secondAnswer := ((mirrors_after mirrors second).2.1 (accepts_of_mem setters isSecond)).2
  exact apart ⟨same, firstAnswer.trans firstWrites, secondAnswer.trans secondWrites⟩

/-- A setter that is repeated answers as before and leaves the builder alone. -/
theorem Mirrors.after_of_mem (mirrors : builder.Mirrors store)
    (bijective : builder.arena.names.Bijective) (setters : ∀ call ∈ calls, call.isSetter)
    (independent : store.Independent (builder.accepted calls)) (member : call ∈ calls) :
    (builder.afterAll calls).after call = builder.afterAll calls ∧
      (call, resultOf (perform call) (builder.afterAll calls)) ∈ builder.transcript calls := by
  have setter := setters call member
  suffices repeats : (builder.afterAll calls).after call = builder.afterAll calls ∧
      resultOf (perform call) (builder.afterAll calls) =
        answerIn store (builder.afterAll calls).arena.names call by
    refine ⟨repeats.1, ?_⟩
    rw [repeats.2, mirrors.transcript setters]
    exact List.mem_map_of_mem member
  by_cases named : call.isNamedIn (builder.afterAll calls).arena.names
  · have acceptedSets := builder.isSetter_of_accepted setters
    have reached := (mirrors_afterAll mirrors calls).1
    have reachedNames : (builder.afterAll calls).arena.names.Bijective := by
      rw [names_afterAll builder setters]
      exact bijective.addingAll (symbols calls)
    have known := BuildCall.isNamedIn_iff.mp named
    have isAccepted : (builder.afterAll calls).accepts call := by
      rw [accepts_setter setter]
      cases isSymbol : call.symbol? with
      | none => trivial
      | some symbol => exact ⟨.inl (known symbol isSymbol), trivial⟩
    have sameNames : ((builder.afterAll calls).after call).arena.names =
        (builder.afterAll calls).arena.names := by
      rw [names_after setter]
      cases isSymbol : call.symbol? with
      | none => rfl
      | some symbol => exact NameTable.adding_of_known (known symbol isSymbol)
    obtain ⟨again, answers⟩ := (mirrors_after reached call).2.1 isAccepted
    rw [Store.after_of_mem acceptedSets independent ((mem_accepted setters member).mpr named)]
      at again
    refine ⟨reached.eq_of_names again (redresses_after setter) reachedNames sameNames, ?_⟩
    rw [answers, Store.answer_of_bare setter (Store.bare_afterAll acceptedSets), answerIn,
      if_pos named]
  · have refused := refuses_of_not_named setters member named
    refine ⟨after_of_refused setter refused, ?_⟩
    rw [answer_of_refused setter refused, answerIn, if_neg named]

/-! ### Two orders -/

section

variable (mirrors : builder.Mirrors store) (bijective : builder.arena.names.Bijective)
  (setters : ∀ call ∈ calls, call.isSetter)
include mirrors bijective setters

/-- Setters that are answered in both of two orders lead to the same tables, up to the numbers of
new names. -/
theorem Mirrors.exists_renumbering (all : builder.accepted calls = calls)
    (independent : store.Independent calls) (reordered : other.Perm calls) :
    ∃ renumbering : Name ≃ Name,
      (builder.afterAll calls).arena.Renumbers (builder.afterAll other).arena renumbering ∧
      ∀ name text, builder.arena.text name = .ok text → renumbering name = name := by
  have otherSets := isSetter_of_perm setters reordered
  have allOther := refusals_perm bijective setters reordered all
  have left := (mirrors_afterAll mirrors calls).1
  have right := (mirrors_afterAll mirrors other).1
  rw [all] at left
  rw [allOther, Store.afterAll_perm reordered setters independent] at right
  have redresses := (redresses_afterAll builder setters).symm.trans
    (redresses_afterAll builder otherSets)
  have leftNames := names_afterAll builder setters
  have rightNames := names_afterAll builder otherSets
  have leftBijective := leftNames ▸ bijective.addingAll (symbols calls)
  have rightBijective := rightNames ▸ bijective.addingAll (symbols other)
  have sameTexts : (builder.afterAll calls).arena.names.SameTexts
      (builder.afterAll other).arena.names := by
    intro text
    rw [leftNames, rightNames, bijective.mem_addingAll ((accepted_iff_fits setters).mp all),
      bijective.mem_addingAll ((accepted_iff_fits otherSets).mp allOther)]
    exact or_congr_right (symbols_perm reordered).mem_iff.symm
  refine ⟨_, left.renumbers right redresses leftBijective rightBijective sameTexts, ?_⟩
  intro name text reads
  exact rightBijective.renumber_of_text
    ((mirrors_afterAll mirrors calls).2.retains.text name text reads)
    ((mirrors_afterAll mirrors other).2.retains.text name text reads)

/-- What is seen of the tables is what the setters that are answered in both orders leave, but for
more lowered names. -/
theorem Mirrors.alikeBut_shared (independent : store.Independent (builder.accepted calls))
    {functions : DeclId → Prop}
    (listed : ∀ id symbol, .setLoweredName id symbol ∈ builder.unshared calls other →
      functions id) :
    Arena.AlikeBut functions (builder.afterAll calls).arena
      (builder.afterAll (builder.shared calls other)).arena := by
  have acceptedSets := builder.isSetter_of_accepted setters
  obtain ⟨renumbering, renumbers, _⟩ := mirrors.exists_renumbering bijective acceptedSets
    (accepted_accepted builder setters) independent (builder.shared_append_unshared calls other)
  rw [afterAll_accepted builder setters, afterAll_append] at renumbers
  have reached := (mirrors_afterAll mirrors (builder.shared calls other)).1
  refine (Arena.AlikeBut.of_layers renumbers.layer renumbers.pathBound).trans
    (reached.alikeBut_loweredNames ?_ (accepted_parts bijective setters).2).symm
  intro call member
  obtain ⟨id, symbol, rfl⟩ := eq_setLoweredName_of_unshared member
  exact ⟨id, symbol, rfl, listed id symbol member⟩

end

/-- What the order of setters leaves as it is. A setter whose text finds no room in the table of
names is refused, and that is none of the three answers. Where not all texts find room the order
decides which of them do (`accepted_of_one_place`). It can change the lowered names of their
functions then, which shows in verbose texts of trees with these functions, and nothing else. -/
structure Commutes (builder : Builder) (calls other : List BuildCall) : Prop where
  answered : ∀ entry ∈ builder.transcript calls,
    entry.2 = .ok (.changed true) ∨ entry.2 = .ok (.changed false) ∨
      entry.2 = .error .indexOutOfBounds ∨
      entry.2 = .error .capacityExceeded ∧ entry.1 ∉ builder.accepted calls ∧
        (builder.afterAll calls).Refuses entry.1
  answers : ∀ call first second, (call, first) ∈ builder.transcript calls →
    (call, second) ∈ builder.transcript other →
      first = second ∨ first = .error .capacityExceeded ∨ second = .error .capacityExceeded
  refusals : builder.accepted other = other ↔ builder.accepted calls = calls
  /-- Where the same setters are answered, nothing but the numbers of new names can differ. -/
  alike : (builder.accepted other).Perm (builder.accepted calls) →
    (builder.transcript other).Perm (builder.transcript calls) ∧
      (∃ renumbering : Name ≃ Name,
        (builder.afterAll calls).arena.Renumbers (builder.afterAll other).arena renumbering ∧
        ∀ name text, builder.arena.text name = .ok text → renumbering name = name) ∧
      ∀ style node, (builder.afterAll other).arena.render style node =
        (builder.afterAll calls).arena.render style node
  exprs : ∀ id, (builder.afterAll other).arena.readExpr id =
    (builder.afterAll calls).arena.readExpr id
  lists : (builder.afterAll other).arena.exprLists = (builder.afterAll calls).arena.exprLists ∧
    (builder.afterAll other).arena.declLists = (builder.afterAll calls).arena.declLists
  decls : ∀ id, (∀ symbol, .setLoweredName id symbol ∈ builder.accepted other ↔
      .setLoweredName id symbol ∈ builder.accepted calls) →
    (builder.afterAll other).arena.readDecl id = (builder.afterAll calls).arena.readDecl id
  unlowered : ∀ id, ((builder.afterAll other).arena.readDecl id).map DeclRecord.unlowered =
    ((builder.afterAll calls).arena.readDecl id).map DeclRecord.unlowered
  evaluate : ∀ node, (builder.afterAll other).arena.evaluate node =
    (builder.afterAll calls).arena.evaluate node
  render : ∀ style node,
    (style.verbose → ∀ id symbol, (builder.afterAll calls).arena.Reaches node (.decl id) →
      (.setLoweredName id symbol ∈ builder.accepted other ↔
        .setLoweredName id symbol ∈ builder.accepted calls)) →
    (builder.afterAll other).arena.render style node =
      (builder.afterAll calls).arena.render style node
  repeats : ∀ first later call, other = first ++ later → call ∈ first →
    (builder.afterAll first).after call = builder.afterAll first ∧
      (call, resultOf (perform call) (builder.afterAll first)) ∈ builder.transcript first

section

variable (mirrors : builder.Mirrors store) (bijective : builder.arena.names.Bijective)
  (setters : ∀ call ∈ calls, call.isSetter) (independent : builder.Independent calls)
  (reordered : other.Perm calls)
include mirrors setters reordered

private theorem perm_transcript (same : (builder.accepted other).Perm (builder.accepted calls)) :
    (builder.transcript other).Perm (builder.transcript calls) := by
  have otherSets := isSetter_of_perm setters reordered
  have answers : ∀ call ∈ other,
      (call, answerIn store (builder.afterAll other).arena.names call) =
        (call, answerIn store (builder.afterAll calls).arena.names call) := by
    intro call member
    have named : call.isNamedIn (builder.afterAll other).arena.names =
        call.isNamedIn (builder.afterAll calls).arena.names := by
      rw [Bool.eq_iff_iff, ← mem_accepted otherSets member,
        ← mem_accepted setters (reordered.mem_iff.mp member)]
      exact same.mem_iff
    rw [answerIn, answerIn, named]
  rw [mirrors.transcript setters, mirrors.transcript otherSets, List.map_congr_left answers]
  exact reordered.map _

include independent

private theorem records_perm :
    (store.afterAll (builder.accepted other)).exprs =
        (store.afterAll (builder.accepted calls)).exprs ∧
      (store.afterAll (builder.accepted other)).decls.map DeclRecord.unlowered =
        (store.afterAll (builder.accepted calls)).decls.map DeclRecord.unlowered ∧
      ∀ id, (∀ symbol, .setLoweredName id symbol ∈ builder.accepted other ↔
          .setLoweredName id symbol ∈ builder.accepted calls) →
        (store.afterAll (builder.accepted other)).decl id =
          (store.afterAll (builder.accepted calls)).decl id := by
  have otherSets := isSetter_of_perm setters reordered
  have apart := mirrors.independent setters independent
  have apartOther := mirrors.independent otherSets (independent.perm reordered)
  have acceptedSets := builder.isSetter_of_accepted setters
  have left := Store.afterAll_perm (builder.shared_append_unshared calls other) acceptedSets apart
  have right := Store.afterAll_perm (builder.shared_append_unshared other calls)
    (builder.isSetter_of_accepted otherSets) apartOther
  have both := Store.afterAll_perm (shared_perm setters otherSets reordered)
    (builder.isSetter_of_shared setters) (List.Pairwise.filter _ apart)
  rw [Store.afterAll_append] at left right
  rw [both] at right
  have lowered := @Store.afterAll_loweredNames (store.afterAll (builder.shared calls other))
  obtain ⟨leftExprs, leftDecls, leftDecl⟩ :=
    lowered (fun call => @eq_setLoweredName_of_unshared builder call calls other)
  obtain ⟨rightExprs, rightDecls, rightDecl⟩ :=
    lowered (fun call => @eq_setLoweredName_of_unshared builder call other calls)
  rw [← left, ← right]
  refine ⟨rightExprs.trans leftExprs.symm, rightDecls.trans leftDecls.symm, ?_⟩
  intro id same
  rw [rightDecl id, leftDecl id]
  · intro symbol member
    apply not_accepted_of_unshared otherSets member
    exact (same symbol).mpr (List.mem_of_mem_filter member)
  · intro symbol member
    apply not_accepted_of_unshared setters member
    exact (same symbol).mp (List.mem_of_mem_filter member)

include bijective

private theorem alikeBut_perm :
    Arena.AlikeBut (fun id => ∃ symbol, ¬ (.setLoweredName id symbol ∈ builder.accepted other ↔
        .setLoweredName id symbol ∈ builder.accepted calls))
      (builder.afterAll calls).arena (builder.afterAll other).arena := by
  have otherSets := isSetter_of_perm setters reordered
  have apart := mirrors.independent setters independent
  have apartOther := mirrors.independent otherSets (independent.perm reordered)
  obtain ⟨_, renumbers, _⟩ := mirrors.exists_renumbering bijective
    (builder.isSetter_of_shared setters) (accepted_parts bijective setters).1
    (List.Pairwise.filter _ apart) (shared_perm setters otherSets reordered)
  refine (mirrors.alikeBut_shared bijective setters apart ?here).trans
    ((Arena.AlikeBut.of_layers renumbers.layer renumbers.pathBound).trans
      (mirrors.alikeBut_shared bijective otherSets apartOther ?there).symm)
  case here =>
    intro id symbol member
    refine ⟨symbol, fun same => not_accepted_of_unshared otherSets member ?_⟩
    exact same.mpr (List.mem_of_mem_filter member)
  case there =>
    intro id symbol member
    refine ⟨symbol, fun same => not_accepted_of_unshared setters member ?_⟩
    exact same.mp (List.mem_of_mem_filter member)

/-- Setters that write different fields have nothing to tell of their order but who is refused. -/
theorem Mirrors.commutes : builder.Commutes calls other := by
  have otherSets := isSetter_of_perm setters reordered
  have apart := mirrors.independent setters independent
  have left := (mirrors_afterAll mirrors calls).1
  have right := (mirrors_afterAll mirrors other).1
  have redresses := (redresses_afterAll builder setters).symm.trans
    (redresses_afterAll builder otherSets)
  obtain ⟨sameExprs, sameUnlowered, sameDecls⟩ :=
    records_perm mirrors setters independent reordered
  constructor
  case answered =>
    rintro ⟨call, answer⟩ isEntry
    obtain ⟨member, isAnswer⟩ := mirrors.mem_transcript setters isEntry
    rw [isAnswer]
    refine (answerIn_cases _ (setters call member)).imp_right (Or.imp_right (Or.imp_right ?_))
    rintro ⟨refused, unnamed⟩
    refine ⟨refused, ?_, refuses_of_not_named setters member unnamed⟩
    exact fun isAccepted => unnamed ((mem_accepted setters member).mp isAccepted)
  case answers =>
    intro call first second isFirst isSecond
    rw [(mirrors.mem_transcript setters isFirst).2, (mirrors.mem_transcript otherSets isSecond).2]
    exact answerIn_alike store _ _ call
  case refusals =>
    constructor
    · exact refusals_perm bijective otherSets reordered.symm
    · exact refusals_perm bijective setters reordered
  case alike =>
    intro same
    have acceptedSets := builder.isSetter_of_accepted setters
    obtain ⟨renumbering, renumbers, keeps⟩ := mirrors.exists_renumbering bijective acceptedSets
      (accepted_accepted builder setters) apart same
    rw [afterAll_accepted builder setters, afterAll_accepted builder otherSets] at renumbers
    exact ⟨perm_transcript mirrors setters reordered same, ⟨renumbering, renumbers, keeps⟩,
      renumbers.render⟩
  case exprs =>
    intro id
    rw [right.readExpr, left.readExpr, Store.expr, sameExprs, Store.expr]
  case lists => exact ⟨redresses.exprLists, redresses.declLists⟩
  case decls =>
    intro id same
    rw [right.readDecl, left.readDecl, sameDecls id same]
  case unlowered =>
    intro id
    rw [right.readDecl, left.readDecl, Store.decl, Store.decl, ← record_map, ← record_map,
      sameUnlowered]
  case evaluate => exact redresses.evaluate (left.exprs_eq right sameExprs redresses)
  case render =>
    intro style root unseen
    apply (alikeBut_perm mirrors bijective setters independent reordered).render style root
    rintro verbose id ⟨symbol, differs⟩ reached
    exact differs (unseen verbose id symbol reached)
  case repeats =>
    rintro first later call rfl member
    have firstSets : ∀ call ∈ first, call.isSetter := fun call isCall =>
      otherSets call (List.mem_append_left later isCall)
    have apartFirst := mirrors.independent firstSets
      (List.pairwise_append.mp (independent.perm reordered)).1
    exact mirrors.after_of_mem bijective firstSets apartFirst member

end

end Builder

end TigerTree
