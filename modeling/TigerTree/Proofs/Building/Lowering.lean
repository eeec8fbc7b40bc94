import TigerTree.Proofs.Building.Naming
import TigerTree.Proofs.Rendering.Renumbering

/-! The lowered name of one function. A builder that is given it has interned a text and amended one
declaration, so the layer of that function has the lowered name and all other layers are as they
were. Only comments tell a lowered name: the plain text is as it was, too. -/

set_option autoImplicit false

namespace TigerTree

variable {Child Other : Type}

def Layer.lowered (name : LoweredName) : Layer Child → Layer Child
  | .funDecl heading _ parameters body => .funDecl heading (some name) parameters body
  | layer => layer

section

variable (name : LoweredName) (layer : Layer Child)

theorem Layer.lowered_map (change : Child → Other) :
    (layer.map change).lowered name = (layer.lowered name).map change := by
  cases layer <;> rfl

theorem Layer.children_lowered : (layer.lowered name).children = layer.children := by
  cases layer <;> rfl

theorem Layer.isWellNamed_lowered : (layer.lowered name).isWellNamed = layer.isWellNamed := by
  cases layer <;> rfl

theorem Layer.isIntact_lowered (found : name.text.isOk) (intact : layer.isIntact) :
    (layer.lowered name).isIntact := by
  cases layer with
  | funDecl heading loweredName parameters body =>
      simp only [isIntact, lowered, Bool.and_eq_true] at intact ⊢
      exact ⟨⟨intact.1.1, found⟩, intact.2⟩
  | _ => exact intact

end

/-- Only comments tell the lowered name. -/
theorem Layer.passage_lowered (name : LoweredName) (layer : Layer Passage) :
    (layer.lowered name).passage false = layer.passage false := by
  cases layer with
  | funDecl heading loweredName parameters body =>
      cases parameters <;> simp [passage, lowered, sketch, Passage.ofItems]
  | _ => rfl

namespace Arena

variable {old new : Arena} {function : DeclId} {name : LoweredName} {root : NodeId}

structure Lowers (old new : Arena) (function : DeclId) (name : LoweredName) : Prop where
  layer : ∀ node, new.layer node =
    if node = .decl function then (old.layer node).lowered name else old.layer node
  pathBound : new.pathBound = old.pathBound

namespace Lowers

variable (lowers : old.Lowers new function name)
include lowers

theorem layer_function :
    new.layer (.decl function) = (old.layer (.decl function)).lowered name := by
  rw [lowers.layer, if_pos rfl]

theorem layer_other {node : NodeId} (other : node ≠ .decl function) :
    new.layer node = old.layer node := by
  rw [lowers.layer, if_neg other]

theorem owns : new.Owns = old.Owns := by
  funext parent child
  unfold Owns
  by_cases here : parent = .decl function
  · rw [here, lowers.layer_function, Layer.children_lowered]
  · rw [lowers.layer_other here]

theorem reaches : new.Reaches root = old.Reaches root := by
  funext node
  rw [Reaches, lowers.owns, Reaches]

theorem acyclic (acyclic : old.Acyclic root) : new.Acyclic root := by
  intro node reached
  rw [lowers.reaches] at reached
  rw [lowers.owns]
  exact acyclic node reached

/-- What a lowered name does not touch holds as before. -/
theorem throughout {property : Layer NodeId → Prop}
    (keeps : ∀ layer, property layer → property (layer.lowered name))
    (holds : old.Throughout property root) : new.Throughout property root := by
  intro node reached
  rw [lowers.reaches] at reached
  by_cases here : node = .decl function
  · subst here
    rw [lowers.layer_function]
    exact keeps _ (holds _ reached)
  · rw [lowers.layer_other here]
    exact holds node reached

theorem passage_unfold (root : NodeId) :
    (new.unfold root).passage false = (old.unfold root).passage false := by
  have within (length : Nat) (node : NodeId) :
      (new.unfoldWithin length node).passage false =
        (old.unfoldWithin length node).passage false := by
    induction length generalizing node with
    | zero => rfl
    | succ length ih =>
        simp only [unfoldWithin, Tree.passage_node, Layer.map_map, ih]
        by_cases here : node = .decl function
        · rw [here, lowers.layer_function, ← Layer.lowered_map, Layer.passage_lowered]
        · rw [lowers.layer_other here]
  rw [unfold, lowers.pathBound, within, unfold]

end Lowers

/-- The arenas look alike but for the lowered names of some functions. -/
structure AlikeBut (functions : DeclId → Prop) (left right : Arena) : Prop where
  reaches : ∀ root, right.Reaches root = left.Reaches root
  render : ∀ style root,
    (style.verbose → ∀ id, functions id → ¬ left.Reaches root (.decl id)) →
      right.render style root = left.render style root

namespace AlikeBut

variable {functions : DeclId → Prop} {left right third : Arena}

theorem refl (arena : Arena) : AlikeBut functions arena arena :=
  ⟨fun _ => rfl, fun _ _ _ => rfl⟩

theorem symm (alike : AlikeBut functions left right) : AlikeBut functions right left where
  reaches root := (alike.reaches root).symm
  render style root unseen := by
    rw [alike.reaches] at unseen
    exact (alike.render style root unseen).symm

theorem trans (earlier : AlikeBut functions left right) (later : AlikeBut functions right third) :
    AlikeBut functions left third where
  reaches root := (later.reaches root).trans (earlier.reaches root)
  render style root unseen := by
    have unseenThen := unseen
    rw [← earlier.reaches] at unseenThen
    exact (later.render style root unseenThen).trans (earlier.render style root unseen)

theorem of_layers (layers : ∀ node, right.layer node = left.layer node)
    (bound : right.pathBound = left.pathBound) : AlikeBut functions left right where
  reaches root := by
    have owns : right.Owns = left.Owns := by
      funext parent child
      rw [Owns, layers, Owns]
    funext node
    rw [Reaches, owns, Reaches]
  render style root _ := by
    apply render_eq_of_passage_eq
    rw [unfold_congr (fun node _ => layers node) bound]

theorem of_lowers (lowers : old.Lowers new function name) (isListed : functions function) :
    AlikeBut functions old new where
  reaches root := lowers.reaches
  render style root unseen := by
    apply render_eq_of_passage_eq
    cases verbose : style.verbose with
    | false => exact lowers.passage_unfold root
    | true =>
        have apart := unseen verbose function isListed
        rw [unfold_congr (fun node reached => ?_) lowers.pathBound]
        exact lowers.layer_other (fun here => apart (here ▸ reached))

end AlikeBut

section

variable {arena : Arena} {symbol : Name} {decl amended : Decl}
  (found : arena.decl function = .ok decl)
  (isAmended : decl.withLoweredName? symbol = some amended)
include found isAmended

private theorem site_withLoweredName :
    (arena.withDecl function amended).site = arena.site := by
  funext link
  rw [site, decl_withDecl found, site]
  by_cases here : link = function
  · rw [if_pos here, here, found]
    obtain ⟨parameters, body, loweredName, _, rfl⟩ := Decl.withLoweredName?_eq_some isAmended
    rfl
  · rw [if_neg here]

private theorem loopStart_withLoweredName :
    (arena.withDecl function amended).loopStart = arena.loopStart := by
  funext loopVariable
  rw [loopStart, decl_withDecl found, loopStart]
  by_cases here : loopVariable = function
  · rw [if_pos here, here, found]
    obtain ⟨parameters, body, loweredName, form, rfl⟩ := Decl.withLoweredName?_eq_some isAmended
    simp only [form]
  · rw [if_neg here]
    rfl

/-- With another lowered name a function is another layer, and nothing else is. -/
theorem layer_withLoweredName (node : NodeId) :
    (arena.withDecl function amended).layer node =
      if node = .decl function then
        (arena.layer node).lowered ⟨arena.text symbol, symbol = decl.name⟩
      else arena.layer node := by
  cases node with
  | expr id =>
      rw [if_neg NodeId.noConfusion]
      apply layer_expr_congr (site_withLoweredName found isAmended)
        (loopStart_withLoweredName found isAmended) rfl
      · intro expr _
        cases expr.form <;> rfl
      · exact fun _ _ _ _ => rfl
  | decl id =>
      have amends := decl_withDecl found amended id
      by_cases here : id = function
      · subst here
        rw [if_pos rfl] at amends
        rw [if_pos rfl, layer_decl amends, layer_decl found]
        obtain ⟨parameters, body, loweredName, form, rfl⟩ :=
          Decl.withLoweredName?_eq_some isAmended
        simp only [declLayer, form]
        rfl
      · rw [if_neg here] at amends
        rw [if_neg (fun same => here (NodeId.decl.inj same))]
        cases known : arena.decl id with
        | error fault =>
            rw [layer_decl_missing known]
            exact layer_decl_missing (amends.trans known)
        | ok other =>
            rw [layer_decl known, layer_decl (amends.trans known)]
            rfl

end

end Arena

/-! ### Tables with more texts

Every name in the tables of a builder is the name of a text, so what a node reads does not change
when texts are added. -/

namespace Arena

variable {old new : Arena} (retains : old.Retains new)
include retains

private theorem text_of_retains {Result : Type} {name : Name} {give : String → Result}
    {result : Result} (read : (old.text name).map give = .ok result) :
    new.text name = old.text name := by
  obtain ⟨text, isText, _⟩ := map_eq_ok read
  exact (retains.text name text isText).trans isText.symm

private theorem heading_of_retains {decl : Decl} {record : DeclRecord}
    (read : old.declRecord decl = .ok record) : new.heading decl = old.heading decl := by
  obtain ⟨named, typed, _⟩ := declRecord_eq_ok.mp read
  have sameName : new.text decl.name = old.text decl.name :=
    (retains.text decl.name record.text named).trans named.symm
  have sameType : decl.typeName.map new.text = decl.typeName.map old.text := by
    cases written : decl.typeName with
    | none => rfl
    | some typeName =>
        rw [written] at typed
        exact congrArg some (text_of_retains retains typed)
  simp only [heading, sameName, sameType]

private theorem declLayer_of_retains {decl : Decl} {record : DeclRecord}
    (read : old.declRecord decl = .ok record) : new.declLayer decl = old.declLayer decl := by
  have sameHeading := heading_of_retains retains read
  obtain ⟨_, _, spelled, _⟩ := declRecord_eq_ok.mp read
  unfold declLayer
  rw [sameHeading]
  cases form : decl.form with
  | value initializer => cases initializer <;> rfl
  | function parameters body loweredName =>
      rw [form] at spelled
      obtain ⟨ids, listed, spelled⟩ := bind_eq_ok spelled
      obtain ⟨loweredText, isLowered, _⟩ := bind_eq_ok spelled
      simp only [retains.declList parameters ids listed, listed]
      cases loweredName with
      | none => rfl
      | some symbol => simp only [Option.map_some, text_of_retains retains isLowered]

private theorem texts_of_retains {shape : Shape} {content : ExprContent}
    (spelled : old.content shape = .ok content) :
    ∀ name ∈ shape.names, new.text name = old.text name := by
  cases shape with
  | string contents => exact List.forall_mem_singleton.mpr (text_of_retains retains spelled)
  | identifier name link depth =>
      exact List.forall_mem_singleton.mpr (text_of_retains retains spelled)
  | call function arguments link =>
      exact List.forall_mem_singleton.mpr (text_of_retains retains spelled)
  | _ => exact fun _ member => absurd member List.not_mem_nil

end Arena

namespace Builder

variable {builder new : Builder} {store : Store} {entries : Nat}

/-- New lists and texts change no layer. -/
theorem Mirrors.layer_of_prepared (mirrors : builder.Mirrors store)
    (prepared : builder.Prepared new entries) (node : NodeId) :
    new.arena.layer node = builder.arena.layer node := by
  have retains := prepared.retains
  have exprs : new.arena.expr = builder.arena.expr := by
    funext id
    rw [Arena.expr, prepared.exprs, Arena.expr]
  have decls : new.arena.decl = builder.arena.decl := by
    funext id
    rw [Arena.decl, prepared.decls, Arena.decl]
  have sites : new.arena.site = builder.arena.site := by
    funext link
    rw [Arena.site, decls, Arena.site]
  have starts : new.arena.loopStart = builder.arena.loopStart := by
    funext loopVariable
    rw [Arena.loopStart, decls, Arena.loopStart]
    rcases mirrors.decl_cases loopVariable with ⟨missing, _⟩ | ⟨decl, record, found, read, _⟩
    · rw [missing]
    · rw [found]
      simp only [Arena.heading_of_retains retains read]
  cases node with
  | expr id =>
      have reads (expr : Expr) (found : builder.arena.expr id = .ok expr) :
          ∃ shape, builder.arena.shape expr.form = .ok shape ∧
            ∃ content, builder.arena.content shape = .ok content := by
        rcases mirrors.expr_cases id with ⟨missing, _⟩ | ⟨other, record, isOther, read, _⟩
        · rw [missing] at found
          cases found
        · cases isOther.symm.trans found
          obtain ⟨shape, resolved, spelled, _⟩ := Arena.exprRecord_eq_ok.mp read
          exact ⟨shape, resolved, _, spelled⟩
      apply Arena.layer_expr_congr sites starts exprs
      · intro expr found
        obtain ⟨shape, resolved, _⟩ := reads expr found
        exact (Arena.shape_of_lists retains.exprList retains.declList resolved).trans resolved.symm
      · intro expr found
        obtain ⟨shape, resolved, content, spelled⟩ := reads expr found
        rw [← Arena.names_of_shape resolved]
        exact Arena.texts_of_retains retains spelled
  | decl id =>
      rcases mirrors.decl_cases id with ⟨missing, _⟩ | ⟨decl, record, found, read, _⟩
      · rw [Arena.layer_decl_missing missing, Arena.layer_decl_missing (decls ▸ missing)]
      · rw [Arena.layer_decl found, Arena.layer_decl (decls ▸ found)]
        exact Arena.declLayer_of_retains retains read

private theorem after_setLoweredName (mirrors : builder.Mirrors store) {function : DeclId}
    {symbol : String} (accepted : builder.accepts (.setLoweredName function symbol)) :
    ∃ name between, builder.Prepared between 1 ∧ between.arena.text name = .ok symbol ∧
      (builder.after (.setLoweredName function symbol)).arena =
        stateAfter (Arena.amendDecl function (Decl.withLoweredName? name)) between.arena := by
  have prepares := intern_prepares mirrors.indexed symbol
  unfold BuildM.Prepares at prepares
  cases run : onArena (Arena.intern symbol) builder with
  | error fault between =>
      rw [run] at prepares
      obtain ⟨rfl, _⟩ := prepares
      have refused : perform (.setLoweredName function symbol) builder =
          .error .capacityExceeded between := by
        simp only [perform, Functor.map, EStateM.map, setLoweredName, bind, EStateM.bind, run]
      rw [accepts, refused] at accepted
      cases accepted
  | ok name between =>
      rw [run] at prepares
      refine ⟨name, between, prepares.1, prepares.2, ?_⟩
      rw [← stateAfter_onArena, after, perform, stateAfter_map]
      simp only [stateAfter, setLoweredName, bind, EStateM.bind, run]

/-- A lowered name that is set is read again; it is the function's own only if it was its name. -/
theorem Mirrors.lowers (mirrors : builder.Mirrors store) {function : DeclId} {symbol : String}
    (isFunction : builder.arena.nodeKind (.decl function) = .ok .funDecl)
    (accepted : builder.accepts (.setLoweredName function symbol)) :
    ∃ name : LoweredName, name.text = .ok symbol ∧
      (name.isOwn → .ok symbol ∈ (builder.arena.layer (.decl function)).names) ∧
      builder.arena.Lowers (builder.after (.setLoweredName function symbol)).arena function
        name := by
  obtain ⟨name, between, prepared, isText, isAfter⟩ := after_setLoweredName mirrors accepted
  obtain ⟨decl, found, kind⟩ := bind_eq_ok isFunction
  have foundThere : between.arena.decl function = .ok decl := by
    rw [Arena.decl, prepared.decls]
    exact found
  obtain ⟨amended, isAmended⟩ : ∃ amended, decl.withLoweredName? name = some amended := by
    unfold Decl.withLoweredName?
    cases form : decl.form with
    | value initializer =>
        rw [form] at kind
        cases kind
    | function parameters body loweredName => exact ⟨_, rfl⟩
  have amends : stateAfter (Arena.amendDecl function (Decl.withLoweredName? name)) between.arena =
      between.arena.withDecl function amended := by
    simp only [stateAfter, Arena.amendDecl, foundThere, isAmended]
    rfl
  rw [amends] at isAfter
  have layers := Arena.layer_withLoweredName foundThere isAmended
  simp only [mirrors.layer_of_prepared prepared] at layers
  refine ⟨⟨between.arena.text name, name = decl.name⟩, isText, ?own, isAfter ▸ layers, ?bound⟩
  case own =>
    intro isOwn
    have same : name = decl.name := of_decide_eq_true isOwn
    obtain ⟨parameters, body, loweredName, form, _⟩ := Decl.withLoweredName?_eq_some isAmended
    rw [← mirrors.layer_of_prepared prepared, Arena.layer_decl foundThere, Arena.declLayer, form,
      ← isText, same]
    exact List.mem_cons_self
  case bound =>
    rw [isAfter]
    simp only [Arena.pathBound, Arena.withDecl, Array.size_setIfInBounds, prepared.exprs,
      prepared.decls]

theorem Mirrors.alikeBut_setLoweredName (mirrors : builder.Mirrors store) {id : DeclId}
    {symbol : String} (accepted : builder.accepts (.setLoweredName id symbol))
    {functions : DeclId → Prop} (isListed : functions id) :
    Arena.AlikeBut functions builder.arena
      (builder.after (.setLoweredName id symbol)).arena := by
  obtain ⟨name, between, prepared, _, isAfter⟩ := after_setLoweredName mirrors accepted
  have bound : between.arena.pathBound = builder.arena.pathBound := by
    rw [Arena.pathBound, prepared.exprs, prepared.decls, Arena.pathBound]
  refine (Arena.AlikeBut.of_layers (mirrors.layer_of_prepared prepared) bound).trans ?_
  rw [isAfter]
  rcases amendDecl_cases between.arena id (Decl.withLoweredName? name) with
    same | ⟨decl, amended, found, isAmended, same⟩
  · rw [same]
    exact .refl between.arena
  · rw [same]
    refine .of_lowers ⟨Arena.layer_withLoweredName found isAmended, ?_⟩ isListed
    simp only [Arena.pathBound, Arena.withDecl, Array.size_setIfInBounds]

theorem Mirrors.alikeBut_loweredNames (mirrors : builder.Mirrors store) {calls : List BuildCall}
    {functions : DeclId → Prop}
    (lower : ∀ call ∈ calls, ∃ id symbol, call = .setLoweredName id symbol ∧ functions id)
    (all : builder.accepted calls = calls) :
    Arena.AlikeBut functions builder.arena (builder.afterAll calls).arena := by
  induction calls generalizing builder store with
  | nil => exact .refl builder.arena
  | cons call rest ih =>
      obtain ⟨id, symbol, rfl, isListed⟩ := lower call List.mem_cons_self
      obtain ⟨isAccepted, restAccepted⟩ := (accepted_cons_eq_self builder _ rest).mp all
      have later := ((mirrors_after mirrors _).2.1 isAccepted).1
      refine (mirrors.alikeBut_setLoweredName isAccepted isListed).trans (ih later ?_ restAccepted)
      exact fun next isNext => lower next (List.mem_cons_of_mem _ isNext)

end Builder
end TigerTree
