import TigerTree.Proofs.Building.Runs

/-! Where breaks lead. A break is linked to a loop or to nothing. No call replaces a loop, and one
that links a break again links it to a loop again, so this stays as it is for as long as a run goes
on, and the comment behind a break tells where a loop stands. -/

set_option autoImplicit false

namespace TigerTree

namespace ExprRecord

variable {record amended : ExprRecord}

def target? (record : ExprRecord) : Option ExprId :=
  match record.content with
  | .breakLoop target => target
  | _ => none

/-- Only an identifier or a call is linked to a declaration, and remains one. -/
theorem withLink?_eq_some {target : DeclId} (links : record.withLink? target = some amended) :
    record.content.isLoop = false ∧ record.target? = none ∧ amended.target? = none := by
  obtain ⟨content, location⟩ := record
  cases content with
  | identifier text link depth =>
      cases links
      exact ⟨rfl, rfl, rfl⟩
  | call function arguments link =>
      cases links
      exact ⟨rfl, rfl, rfl⟩
  | _ => cases links

/-- Only a break is linked to a loop, and stays where it is. -/
theorem withLoop?_eq_some {loop : ExprId} (aims : record.withLoop? loop = some amended) :
    record.content.isLoop = false ∧ amended = ⟨.breakLoop (some loop), record.location⟩ := by
  obtain ⟨content, location⟩ := record
  cases content with
  | breakLoop link =>
      cases aims
      exact ⟨rfl, rfl⟩
  | _ => cases aims

end ExprRecord

namespace Store

variable {store : Store} {call : BuildCall}

def HasLoop (store : Store) (id : ExprId) : Prop :=
  ∃ record, store.expr id = .ok record ∧ record.content.isLoop

inductive ExprStep (store : Store) : List ExprRecord → Prop
  | same : store.ExprStep store.exprs
  | added (record : ExprRecord) (unlinked : record.target? = none) :
      store.ExprStep (store.exprs ++ [record])
  | linked (use : ExprId) (target : DeclId) {record amended : ExprRecord}
      (found : store.expr use = .ok record) (links : record.withLink? target = some amended) :
      store.ExprStep (store.exprs.set use.index.toNat amended)
  | aimed (leave loop : ExprId) {record amended : ExprRecord} (isLoop : store.HasLoop loop)
      (found : store.expr leave = .ok record) (aims : record.withLoop? loop = some amended) :
      store.ExprStep (store.exprs.set leave.index.toNat amended)

theorem exprs_amendExpr (id : ExprId) (amendment : ExprRecord → Option ExprRecord) :
    (stateAfter (amendExpr id amendment) store).exprs = store.exprs ∨
      ∃ record amended, store.expr id = .ok record ∧ amendment record = some amended ∧
        (stateAfter (amendExpr id amendment) store).exprs =
          store.exprs.set id.index.toNat amended := by
  unfold stateAfter amendExpr
  cases found : store.expr id with
  | error fault => exact .inl rfl
  | ok record =>
      cases amends : amendment record with
      | none => exact .inl (by simp only [amends])
      | some amended => exact .inr ⟨record, amended, rfl, amends, by simp only [amends]⟩

theorem exprs_amendDecl (id : DeclId) (amendment : DeclRecord → Option DeclRecord) :
    (stateAfter (amendDecl id amendment) store).exprs = store.exprs := by
  unfold stateAfter amendDecl
  cases store.decl id with
  | error fault => rfl
  | ok record => cases amends : amendment record <;> simp only [amends]

theorem exprStep_after (store : Store) (call : BuildCall) :
    store.ExprStep (store.after call).exprs := by
  unfold after
  cases call with
  | moveTo location => exact .same
  | enterDepth depth => exact .same
  | declareVariable text typeText initializer => exact .same
  | declareParameter text typeText => exact .same
  | declareFunction text parameters resultText body => exact .same
  | setEscapes id escapes =>
      rw [perform, exprs_amendDecl]
      exact .same
  | setType id type =>
      rw [perform, exprs_amendDecl]
      exact .same
  | setLoweredName id symbol =>
      rw [perform, exprs_amendDecl]
      exact .same
  | resolve use target =>
      rw [perform]
      rcases exprs_amendExpr use (ExprRecord.withLink? target) with
        unchanged | ⟨record, amended, found, links, changed⟩
      · rw [unchanged]
        exact .same
      · rw [changed]
        exact .linked use target found links
  | resolveBreak leave loop =>
      cases isLoop : store.expr loop with
      | error fault =>
          simp only [stateAfter, perform, isLoop]
          exact .same
      | ok record =>
          by_cases loops : record.content.isLoop
          · have amends : stateAfter (perform (.resolveBreak leave loop)) store =
                stateAfter (amendExpr leave (ExprRecord.withLoop? loop)) store := by
              simp only [stateAfter, perform, isLoop, if_pos loops]
            rw [amends]
            rcases exprs_amendExpr leave (ExprRecord.withLoop? loop) with
              unchanged | ⟨leaving, amended, found, aims, changed⟩
            · rw [unchanged]
              exact .same
            · rw [changed]
              exact .aimed leave loop ⟨record, isLoop, loops⟩ found aims
          · simp only [stateAfter, perform, isLoop, if_neg loops]
            exact .same
  | _ => exact .added _ rfl

inductive RecordStep (store : Store) (record : ExprRecord) : ExprRecord → Prop
  | same : store.RecordStep record record
  | linked (target : DeclId) {amended : ExprRecord}
      (links : record.withLink? target = some amended) : store.RecordStep record amended
  | aimed (loop : ExprId) {amended : ExprRecord} (isLoop : store.HasLoop loop)
      (aims : record.withLoop? loop = some amended) : store.RecordStep record amended

/-- An expression that is there steps as its record does, and one that comes has no link yet. -/
theorem ExprStep.lookup {records : List ExprRecord} (step : store.ExprStep records)
    (index : Nat) :
    (∀ record, store.exprs[index]? = some record →
      ∃ next, records[index]? = some next ∧ store.RecordStep record next) ∧
    (store.exprs[index]? = none → ∀ next, records[index]? = some next → next.target? = none) := by
  have replaced {id : ExprId} {record amended : ExprRecord} (found : store.expr id = .ok record)
      (steps : store.RecordStep record amended) :
      (∀ old, store.exprs[index]? = some old →
        ∃ next, (store.exprs.set id.index.toNat amended)[index]? = some next ∧
          store.RecordStep old next) ∧
      (store.exprs[index]? = none → ∀ next,
        (store.exprs.set id.index.toNat amended)[index]? = some next → next.target? = none) := by
    have here := record_eq_ok.mp found
    rw [List.getElem?_set]
    by_cases isHere : id.index.toNat = index
    · rw [isHere] at here
      obtain ⟨inside, _⟩ := List.getElem?_eq_some_iff.mp here
      simp only [isHere, inside, here, if_true]
      constructor
      · intro old isOld
        cases isOld
        exact ⟨amended, rfl, steps⟩
      · intro missing
        cases missing
    · rw [if_neg isHere]
      constructor
      · intro old isOld
        exact ⟨old, isOld, .same⟩
      · intro missing next isNext
        rw [missing] at isNext
        cases isNext
  cases step with
  | same =>
      constructor
      · intro record found
        exact ⟨record, found, .same⟩
      · intro missing next isNext
        rw [missing] at isNext
        cases isNext
  | added record unlinked =>
      constructor
      · intro old isOld
        obtain ⟨inside, _⟩ := List.getElem?_eq_some_iff.mp isOld
        exact ⟨old, by rw [List.getElem?_append_left inside, isOld], .same⟩
      · intro missing next isNext
        rw [List.getElem?_append_right (List.getElem?_eq_none_iff.mp missing)] at isNext
        rw [← List.mem_singleton.mp (List.mem_of_getElem? isNext)] at unlinked
        exact unlinked
  | linked use target found links => exact replaced found (.linked target links)
  | aimed leave loop isLoop found aims => exact replaced found (.aimed loop isLoop aims)

/-! ### Loops stay, and links to them -/

structure Persists (old new : Store) : Prop where
  loop : ∀ id record, old.expr id = .ok record → record.content.isLoop →
    new.expr id = .ok record
  linked : ∀ id target location, old.expr id = .ok ⟨.breakLoop (some target), location⟩ →
    ∃ next, new.expr id = .ok ⟨.breakLoop (some next), location⟩

theorem Persists.refl (store : Store) : store.Persists store :=
  ⟨fun _ _ found _ => found, fun _ target _ found => ⟨target, found⟩⟩

theorem Persists.trans {first second third : Store} (earlier : first.Persists second)
    (later : second.Persists third) : first.Persists third where
  loop id record found isLoop := later.loop id record (earlier.loop id record found isLoop) isLoop
  linked id target location found := by
    obtain ⟨next, foundNext⟩ := earlier.linked id target location found
    exact later.linked id next location foundNext

theorem Persists.hasLoop {old new : Store} (persists : old.Persists new) {id : ExprId}
    (isLoop : old.HasLoop id) : new.HasLoop id := by
  obtain ⟨record, found, loops⟩ := isLoop
  exact ⟨record, persists.loop id record found loops, loops⟩

theorem persists_after (store : Store) (call : BuildCall) : store.Persists (store.after call) where
  loop id record found isLoop := by
    obtain ⟨next, foundNext, steps⟩ :=
      ((store.exprStep_after call).lookup id.index.toNat).1 record (record_eq_ok.mp found)
    cases steps with
    | same => exact record_eq_ok.mpr foundNext
    | linked target links =>
        rw [(ExprRecord.withLink?_eq_some links).1] at isLoop
        cases isLoop
    | aimed loop _ aims =>
        rw [(ExprRecord.withLoop?_eq_some aims).1] at isLoop
        cases isLoop
  linked id target location found := by
    obtain ⟨next, foundNext, steps⟩ :=
      ((store.exprStep_after call).lookup id.index.toNat).1 _ (record_eq_ok.mp found)
    cases steps with
    | same => exact ⟨target, record_eq_ok.mpr foundNext⟩
    | linked _ links => cases links
    | aimed loop _ aims =>
        cases aims
        exact ⟨loop, record_eq_ok.mpr foundNext⟩

/-- Every linked break is linked to a loop. -/
def LeadsToLoops (store : Store) : Prop :=
  ∀ id record target, store.expr id = .ok record → record.target? = some target →
    store.HasLoop target

theorem LeadsToLoops.after (leads : store.LeadsToLoops) (call : BuildCall) :
    (store.after call).LeadsToLoops := by
  intro id record target found linked
  have here := (store.exprStep_after call).lookup id.index.toNat
  -- the loop of the step is one before the call, and that is a loop afterwards
  suffices before : store.HasLoop target from (store.persists_after call).hasLoop before
  cases old : store.exprs[id.index.toNat]? with
  | none =>
      rw [here.2 old record (record_eq_ok.mp found)] at linked
      cases linked
  | some before =>
      obtain ⟨next, foundNext, steps⟩ := here.1 before old
      rw [record_eq_ok.mp found] at foundNext
      cases foundNext
      cases steps with
      | same => exact leads id record target (record_eq_ok.mpr old) linked
      | linked declared links =>
          rw [(ExprRecord.withLink?_eq_some links).2.2] at linked
          cases linked
      | aimed loop isLoop aims =>
          rw [(ExprRecord.withLoop?_eq_some aims).2] at linked
          cases linked
          exact isLoop

theorem persists_afterAll (store : Store) (calls : List BuildCall) :
    store.Persists (store.afterAll calls) := by
  induction calls generalizing store with
  | nil => exact .refl store
  | cons call rest ih => exact (store.persists_after call).trans (ih (store.after call))

theorem LeadsToLoops.afterAll (leads : store.LeadsToLoops) (calls : List BuildCall) :
    (store.afterAll calls).LeadsToLoops := by
  induction calls generalizing store with
  | nil => exact leads
  | cons call rest ih => exact ih (leads.after call)

theorem leadsToLoops_empty : empty.LeadsToLoops := by
  intro id record target found
  cases found

end Store

/-- The form of a loop or a break, which holds no texts and no lists. -/
def ExprContent.form? : ExprContent → Option StoredForm
  | .whileLoop condition body => some (.whileLoop condition body)
  | .forLoop loopVariable high body => some (.forLoop loopVariable high body)
  | .breakLoop target => some (.breakLoop target)
  | _ => none

theorem ExprContent.form?_of_isLoop {content : ExprContent} (loops : content.isLoop) :
    ∃ form, content.form? = some form := by
  cases content with
  | whileLoop condition body => exact ⟨_, rfl⟩
  | forLoop loopVariable high body => exact ⟨_, rfl⟩
  | _ => cases loops

namespace Arena

variable {arena : Arena}

/-- The record of a loop or a break is that of one expression only. -/
theorem eq_of_exprRecord {expr : Expr} {record : ExprRecord} {form : StoredForm}
    (read : arena.exprRecord expr = .ok record) (hasForm : record.content.form? = some form) :
    expr = ⟨form, record.location⟩ := by
  obtain ⟨stored, location⟩ := expr
  obtain ⟨content, recordLocation⟩ := record
  obtain ⟨shape, resolved, spelled, rfl⟩ := exprRecord_eq_ok.mp read
  cases stored with
  | string contents =>
      cases resolved
      obtain ⟨text, _, rfl⟩ := map_eq_ok spelled
      cases hasForm
  | identifier name link depth =>
      cases resolved
      obtain ⟨text, _, rfl⟩ := map_eq_ok spelled
      cases hasForm
  | sequence elements =>
      obtain ⟨ids, _, same⟩ := bind_eq_ok resolved
      cases same
      cases spelled
      cases hasForm
  | letIn decls body =>
      obtain ⟨declIds, _, resolved⟩ := bind_eq_ok resolved
      obtain ⟨bodyIds, _, same⟩ := bind_eq_ok resolved
      cases same
      cases spelled
      cases hasForm
  | call function arguments link =>
      obtain ⟨ids, _, same⟩ := bind_eq_ok resolved
      cases same
      obtain ⟨text, _, rfl⟩ := map_eq_ok spelled
      cases hasForm
  | _ =>
      cases resolved
      cases spelled
      cases hasForm <;> rfl

/-- Wherever the node comes in a text with comments, it adds the pieces, and no lookup fails. -/
def DraftsAs (arena : Arena) (node : NodeId) (pieces : List Piece) : Prop :=
  ∀ length draft, arena.draftWithin true (length + 1) node draft =
    .ok () { draft with pieces := draft.pieces ++ pieces }

theorem draftsAs_break {id : ExprId} {location : Location}
    (found : arena.expr id = .ok ⟨.breakLoop none, location⟩) :
    arena.DraftsAs (.expr id) [.text "break"] := by
  intro length draft
  simp only [draftWithin, found, Draft.look, shape, draftShape, Draft.text, Draft.put, draftLoop,
    bind, EStateM.bind, if_true]
  rfl

theorem draftsAs_linkedBreak {id target : ExprId} {location : Location} {loop : Expr}
    (found : arena.expr id = .ok ⟨.breakLoop (some target), location⟩)
    (isTarget : arena.expr target = .ok loop) :
    arena.DraftsAs (.expr id) [.text "break", .comment ("loop:" ++ loop.location.text)] := by
  intro length draft
  simp only [draftWithin, found, isTarget, Draft.look, shape, draftShape, Draft.text,
    Draft.comment, Draft.put, draftLoop, bind, EStateM.bind, if_true]
  rfl

theorem render_linkedBreak {id : ExprId} {words : String} (indentSize : UInt64)
    (drafts : arena.DraftsAs (.expr id) [.text "break", .comment words]) :
    arena.render ⟨indentSize, true⟩ (.expr id) = .ok ("break/*" ++ words ++ "*/") := by
  have drafted := drafts (arena.exprs.size + arena.decls.size) Draft.blank
  have written (page : Page) :
      Draft.layOn ⟨Draft.blank.pieces ++ [Piece.text "break", Piece.comment words],
        Draft.blank.level⟩ page =
        .ok () { page with text := page.text ++ "break" ++ ("/*" ++ words ++ "*/") } := rfl
  have joined : "break" ++ ("/*" ++ words ++ "*/") = "break/*" ++ words ++ "*/" := by
    rw [← String.append_assoc, ← String.append_assoc]
    rfl
  simp only [render, renderOn, pathBound, Page.blank, drafted, written, String.empty_append, joined]

end Arena

namespace Builder

variable {builder : Builder} {store : Store}

theorem Mirrors.break_iff (mirrors : builder.Mirrors store) {id : ExprId} {link : Option ExprId}
    {location : Location} :
    builder.arena.expr id = .ok ⟨.breakLoop link, location⟩ ↔
      store.expr id = .ok ⟨.breakLoop link, location⟩ := by
  rcases mirrors.expr_cases id with ⟨missing, missingToo⟩ | ⟨expr, record, found, read, same⟩
  · rw [missing, missingToo]
    constructor
    · intro impossible
      cases impossible
    · intro impossible
      cases impossible
  · rw [found, same]
    constructor
    · intro isBreak
      cases isBreak
      exact read.symm
    · intro isBreak
      cases isBreak
      rw [Arena.eq_of_exprRecord read rfl]

theorem Mirrors.loop (mirrors : builder.Mirrors store) {id : ExprId} {record : ExprRecord}
    (isRecord : store.expr id = .ok record) (loops : record.content.isLoop) :
    ∃ form, record.content.form? = some form ∧ form.isLoop ∧
      builder.arena.expr id = .ok ⟨form, record.location⟩ := by
  rcases mirrors.expr_cases id with ⟨missing, missingToo⟩ | ⟨expr, other, found, read, same⟩
  · rw [missingToo] at isRecord
    cases isRecord
  · rw [same] at isRecord
    cases isRecord
    obtain ⟨form, hasForm⟩ := ExprContent.form?_of_isLoop loops
    have isExpr := Arena.eq_of_exprRecord read hasForm
    refine ⟨form, hasForm, ?_, isExpr ▸ found⟩
    rw [(amendments_of_exprRecord read).1, isExpr] at loops
    exact loops

/-- A break that calls of any kind have left in the tables is linked to nothing, or to a `while` or
`for` loop that is in the tables as well. A linked break stays a linked break and its loop stays
as it is, whatever is called later, so both hold again then. Drafting a break with comments never
fails, and the comment behind it shows where its loop stands. -/
theorem break_leads_to_loop (calls : List BuildCall) {id : ExprId} {link : Option ExprId}
    {location : Location}
    (isBreak : (initial.afterAll calls).arena.expr id = .ok ⟨.breakLoop link, location⟩) :
    (link = none ∧ (initial.afterAll calls).arena.DraftsAs (.expr id) [.text "break"]) ∨
      ∃ target loop, link = some target ∧
        (initial.afterAll calls).arena.expr target = .ok loop ∧ loop.form.isLoop ∧
        (initial.afterAll calls).arena.DraftsAs (.expr id)
          [.text "break", .comment ("loop:" ++ loop.location.text)] ∧
        (∀ indentSize, (initial.afterAll calls).arena.render ⟨indentSize, true⟩ (.expr id) =
          .ok ("break/*" ++ ("loop:" ++ loop.location.text) ++ "*/")) ∧
        ∀ later, (initial.afterAll (calls ++ later)).arena.expr target = .ok loop ∧
          ∃ next nextLoop,
            (initial.afterAll (calls ++ later)).arena.expr id =
              .ok ⟨.breakLoop (some next), location⟩ ∧
            (initial.afterAll (calls ++ later)).arena.expr next = .ok nextLoop ∧
            nextLoop.form.isLoop := by
  have mirrors := (mirrors_afterAll mirrors_initial calls).1
  have leads := Store.leadsToLoops_empty.afterAll (initial.accepted calls)
  cases link with
  | none => exact .inl ⟨rfl, Arena.draftsAs_break isBreak⟩
  | some target =>
      have isRecord := mirrors.break_iff.mp isBreak
      obtain ⟨record, isTarget, loops⟩ := leads id _ target isRecord rfl
      obtain ⟨form, hasForm, isLoop, found⟩ := mirrors.loop isTarget loops
      have drafts := Arena.draftsAs_linkedBreak isBreak found
      refine .inr ⟨target, _, rfl, found, isLoop, drafts, ?_, ?_⟩
      · intro indentSize
        exact Arena.render_linkedBreak indentSize drafts
      · intro later
        have laterMirrors := (mirrors_afterAll mirrors later).1
        rw [afterAll_append]
        have persists := Store.persists_afterAll
          (Store.empty.afterAll (initial.accepted calls))
          ((initial.afterAll calls).accepted later)
        have laterLeads := leads.afterAll ((initial.afterAll calls).accepted later)
        constructor
        · obtain ⟨sameForm, hasSameForm, _, stillFound⟩ :=
            laterMirrors.loop (persists.loop target record isTarget loops) loops
          rw [hasForm] at hasSameForm
          cases hasSameForm
          exact stillFound
        · obtain ⟨next, linkedLater⟩ := persists.linked id target location isRecord
          obtain ⟨nextRecord, isNext, nextLoops⟩ := laterLeads id _ next linkedLater rfl
          obtain ⟨nextForm, _, nextIsLoop, foundNext⟩ := laterMirrors.loop isNext nextLoops
          exact ⟨next, _, laterMirrors.break_iff.mpr linkedLater, foundNext, nextIsLoop⟩

end Builder

/-- A break that is linked to a loop with dangling parts, after calls that would link it to itself
and to nothing. -/
def misledCalls : List BuildCall :=
  [.breakLoop, .moveTo ⟨2, 5⟩, .whileLoop ⟨9⟩ ⟨0⟩, .resolveBreak ⟨0⟩ ⟨0⟩, .resolveBreak ⟨0⟩ ⟨9⟩,
    .resolveBreak ⟨9⟩ ⟨1⟩, .resolveBreak ⟨0⟩ ⟨1⟩, .resolve ⟨0⟩ ⟨3⟩]

theorem break_leads_to_loop_misled :
    (Builder.initial.afterAll misledCalls).arena.expr ⟨0⟩ =
        .ok ⟨.breakLoop (some ⟨1⟩), Location.dummy⟩ ∧
      (∃ loop, (Builder.initial.afterAll misledCalls).arena.expr ⟨1⟩ = .ok loop ∧
        loop.form.isLoop) ∧
      (Builder.initial.afterAll misledCalls).arena.render Style.commented (.expr ⟨0⟩) =
        .ok "break/*loop:2:5*/" := by
  have isBreak : (Builder.initial.afterAll misledCalls).arena.expr ⟨0⟩ =
      .ok ⟨.breakLoop (some ⟨1⟩), Location.dummy⟩ := rfl
  refine ⟨isBreak, ?_⟩
  rcases Builder.break_leads_to_loop misledCalls isBreak with
    ⟨impossible, _⟩ | ⟨target, loop, same, found, isLoop, _, renders, _⟩
  · cases impossible
  · cases same
    refine ⟨⟨loop, found, isLoop⟩, ?_⟩
    cases found
    exact renders 2
end TigerTree
