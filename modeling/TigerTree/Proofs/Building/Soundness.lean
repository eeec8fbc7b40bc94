import TigerTree.Proofs.Building.Growth
import TigerTree.Proofs.Unfolding.Intact

/-! Sound nodes: every lookup below them succeeds and no path below them is endless. A node stays
sound when the tables grow, and also when links and decorations are replaced, since no link is
ever followed as a child. -/

set_option autoImplicit false

namespace TigerTree

/-- Only a function is given a lowered name, and it remains the same otherwise. -/
theorem Decl.withLoweredName?_eq_some {symbol : Name} {decl amended : Decl}
    (isAmended : decl.withLoweredName? symbol = some amended) :
    ∃ parameters body loweredName, decl.form = .function parameters body loweredName ∧
      amended = { decl with form := .function parameters body (some symbol) } := by
  obtain ⟨name, location, depth, typeName, type, escapes, form⟩ := decl
  cases form with
  | value initializer => cases isAmended
  | function parameters body loweredName =>
      cases isAmended
      exact ⟨parameters, body, loweredName, rfl, rfl⟩

namespace Arena

open Relation (ReflTransGen TransGen)

variable {arena old new : Arena}

/-- The node and everything below it is intact, and there is an end to it. -/
inductive Sound (arena : Arena) : NodeId → Prop
  | node (node : NodeId) (intact : (arena.layer node).isIntact)
      (below : ∀ child ∈ (arena.layer node).children, arena.Sound child) : arena.Sound node

theorem Sound.throughout {root : NodeId} (sound : arena.Sound root) :
    arena.Throughout (fun layer => layer.isIntact) root := by
  intro node reached
  induction reached using ReflTransGen.head_induction_on with
  | refl =>
      cases sound with
      | node _ intact below => exact intact
  | head owned _ ih =>
      cases sound with
      | node _ intact below => exact ih (below _ owned)

private theorem within_all {children : List NodeId}
    (bounded : ∀ child ∈ children, ∃ length, arena.Within length child) :
    ∃ length, ∀ child ∈ children, arena.Within length child := by
  induction children with
  | nil => exact ⟨0, fun _ member => by cases member⟩
  | cons first rest ih =>
      obtain ⟨firstLength, firstWithin⟩ := bounded first List.mem_cons_self
      obtain ⟨restLength, restWithin⟩ :=
        ih (fun child member => bounded child (List.mem_cons_of_mem _ member))
      refine ⟨max firstLength restLength, ?_⟩
      intro child member
      rcases List.mem_cons.mp member with rfl | later
      · exact firstWithin.mono (le_max_left _ _)
      · exact (restWithin child later).mono (le_max_right _ _)

theorem Sound.acyclic {root : NodeId} (sound : arena.Sound root) : arena.Acyclic root := by
  have bounded : ∃ length, arena.Within length root := by
    induction sound with
    | node node intact below ih =>
        obtain ⟨length, within⟩ := within_all ih
        exact ⟨length + 1, within⟩
  obtain ⟨length, within⟩ := bounded
  exact within.acyclic

theorem Sound.isOk_expr {id : ExprId} (sound : arena.Sound (.expr id)) :
    (arena.expr id).isOk := by
  cases sound with
  | node _ intact below =>
      cases found : arena.expr id with
      | ok expr => rfl
      | error fault =>
          rw [layer_expr_missing found] at intact
          cases intact

theorem Sound.isOk_decl {id : DeclId} (sound : arena.Sound (.decl id)) :
    (arena.decl id).isOk := by
  cases sound with
  | node _ intact below =>
      cases found : arena.decl id with
      | ok decl => rfl
      | error fault =>
          rw [layer_decl_missing found] at intact
          cases intact

/-- A loop over an intact declaration starts at its initializer, if it has one. -/
theorem loopStart_of_intact {loopVariable : DeclId}
    (intact : (arena.layer (.decl loopVariable)).isIntact) :
    arena.loopStart loopVariable = .missing ∨
      ∃ heading low, arena.loopStart loopVariable = .bound heading low ∧ heading.name.isOk ∧
        low ∈ (arena.layer (.decl loopVariable)).children := by
  cases found : arena.decl loopVariable with
  | error fault =>
      rw [layer_decl_missing found] at intact
      cases intact
  | ok decl =>
      rw [layer_decl found] at intact ⊢
      simp only [loopStart, found]
      unfold declLayer at intact ⊢
      cases form : decl.form with
      | function parameters body loweredName => exact .inl rfl
      | value initializer =>
          cases initializer with
          | none => exact .inl rfl
          | some low =>
              rw [form] at intact
              simp only [Layer.isIntact, Heading.isIntact, Bool.and_eq_true] at intact
              exact .inr ⟨_, _, rfl, intact.1, List.mem_cons_self⟩

/-! ### Tables that keep their nodes -/

/-- What is intact stays so and keeps its children. -/
def Extends (old new : Arena) : Prop :=
  ∀ node, (old.layer node).isIntact →
    (new.layer node).isIntact ∧ (new.layer node).children = (old.layer node).children

theorem Extends.trans {third : Arena} (earlier : old.Extends new) (later : new.Extends third) :
    old.Extends third := by
  intro node intact
  obtain ⟨stillIntact, sameChildren⟩ := earlier node intact
  obtain ⟨finallyIntact, sameFinally⟩ := later node stillIntact
  exact ⟨finallyIntact, sameFinally.trans sameChildren⟩

theorem Sound.mono {node : NodeId} (sound : old.Sound node) (extends_ : old.Extends new) :
    new.Sound node := by
  induction sound with
  | node node intact below ih =>
      obtain ⟨stillIntact, sameChildren⟩ := extends_ node intact
      refine .node node stillIntact ?_
      rw [sameChildren]
      exact ih

/-- The expression itself, or the same with a link to something that is there. -/
def Relinked (arena : Arena) (expr amended : Expr) : Prop :=
  amended = expr ∨
    (∃ target, (arena.decl target).isOk ∧ expr.withLink? target = some amended) ∨
    (∃ loop, (arena.expr loop).isOk ∧ expr.withLoop? loop = some amended)

def Redecorated (arena : Arena) (decl amended : Decl) : Prop :=
  amended.name = decl.name ∧ amended.typeName = decl.typeName ∧
    (amended.form = decl.form ∨
      ∃ parameters body loweredName symbol, decl.form = .function parameters body loweredName ∧
        amended.form = .function parameters body (some symbol) ∧ (arena.text symbol).isOk)

structure Keeps (old new : Arena) : Prop where
  expr : ∀ id expr, old.expr id = .ok expr →
    ∃ amended, new.expr id = .ok amended ∧ new.Relinked expr amended
  exprList : ∀ range ids, old.exprList range = .ok ids → new.exprList range = .ok ids
  decl : ∀ id decl, old.decl id = .ok decl →
    ∃ amended, new.decl id = .ok amended ∧ new.Redecorated decl amended
  declList : ∀ range ids, old.declList range = .ok ids → new.declList range = .ok ids
  text : ∀ name, (old.text name).isOk → (new.text name).isOk

theorem Grows.keeps (grows : old.Grows new) : old.Keeps new where
  expr id expr found := ⟨expr, grows.expr id expr found, .inl rfl⟩
  exprList := grows.exprList
  decl id decl found := ⟨decl, grows.decl id decl found, rfl, rfl, .inl rfl⟩
  declList := grows.declList
  text name found := by
    cases known : old.text name with
    | error fault =>
        rw [known] at found
        cases found
    | ok text =>
        rw [grows.text name text known]
        rfl

namespace Keeps

theorem isOk_expr (keeps : old.Keeps new) {id : ExprId} (found : (old.expr id).isOk) :
    (new.expr id).isOk := by
  cases known : old.expr id with
  | error fault =>
      rw [known] at found
      cases found
  | ok expr =>
      obtain ⟨amended, isAmended, _⟩ := keeps.expr id expr known
      rw [isAmended]
      rfl

theorem isOk_decl (keeps : old.Keeps new) {id : DeclId} (found : (old.decl id).isOk) :
    (new.decl id).isOk := by
  cases known : old.decl id with
  | error fault =>
      rw [known] at found
      cases found
  | ok decl =>
      obtain ⟨amended, isAmended, _⟩ := keeps.decl id decl known
      rw [isAmended]
      rfl

theorem heading (keeps : old.Keeps new) {decl amended : Decl}
    (redecorated : new.Redecorated decl amended) (intact : (old.heading decl).isIntact) :
    (new.heading amended).isIntact := by
  obtain ⟨sameName, sameType, _⟩ := redecorated
  simp only [Arena.heading, Heading.isIntact, sameName, sameType, Bool.and_eq_true] at intact ⊢
  refine ⟨keeps.text _ intact.1, ?_⟩
  cases written : decl.typeName with
  | none => rfl
  | some typeName =>
      rw [written] at intact
      exact keeps.text typeName intact.2

/-- A loop starts where it started, if it did. -/
theorem loopStart (keeps : old.Keeps new) (loopVariable : DeclId) :
    match old.loopStart loopVariable with
    | .lost _ => True
    | .missing => new.loopStart loopVariable = .missing
    | .bound heading low => heading.name.isOk →
        ∃ amended, new.loopStart loopVariable = .bound amended low ∧ amended.name.isOk := by
  unfold Arena.loopStart
  cases known : old.decl loopVariable with
  | error fault => trivial
  | ok decl =>
      obtain ⟨amended, isAmended, sameName, _, sameForm | otherForm⟩ :=
        keeps.decl loopVariable decl known
      · simp only [isAmended, sameForm]
        cases decl.form with
        | value initializer =>
            cases initializer with
            | none => rfl
            | some low =>
                intro found
                refine ⟨_, rfl, ?_⟩
                simp only [Arena.heading, sameName] at found ⊢
                exact keeps.text decl.name found
        | function parameters body loweredName => rfl
      · obtain ⟨parameters, body, loweredName, symbol, form, amendedForm, _⟩ := otherForm
        simp only [isAmended, form, amendedForm]

end Keeps

private theorem isOk_map {Result Other : Type} (lookup : Except Fault Result)
    (change : Result → Other) : (lookup.map change).isOk = lookup.isOk := by
  cases lookup <;> rfl

private theorem Keeps.shapeLayer (keeps : old.Keeps new) (location : Location) (shape : Shape)
    (intact : (old.shapeLayer location shape).isIntact) :
    (new.shapeLayer location shape).isIntact ∧
      (new.shapeLayer location shape).children = (old.shapeLayer location shape).children := by
  have linked (link : Option DeclId) (found : (link.map old.site).all (·.isOk)) :
      (link.map new.site).all (·.isOk) := by
    cases link with
    | none => rfl
    | some target =>
        simp only [Option.map_some, Option.all_some, site, isOk_map] at found ⊢
        exact keeps.isOk_decl found
  cases shape with
  | string contents => exact ⟨keeps.text contents intact, rfl⟩
  | identifier name link depth =>
      simp only [Arena.shapeLayer, Layer.isIntact, Bool.and_eq_true] at intact ⊢
      exact ⟨⟨keeps.text name intact.1, linked link intact.2⟩, rfl⟩
  | call function arguments link =>
      simp only [Arena.shapeLayer, Layer.isIntact, Bool.and_eq_true] at intact ⊢
      exact ⟨⟨keeps.text function intact.1, linked link intact.2⟩, rfl⟩
  | forLoop loopVariable high body =>
      have started := keeps.loopStart loopVariable
      simp only [Arena.shapeLayer] at intact ⊢
      cases start : old.loopStart loopVariable with
      | lost fault =>
          rw [start] at intact
          cases intact
      | missing =>
          rw [start] at started
          rw [started]
          exact ⟨rfl, rfl⟩
      | bound heading low =>
          rw [start] at started intact
          obtain ⟨amended, newStart, found⟩ := started intact
          rw [newStart]
          exact ⟨found, rfl⟩
  | breakLoop target =>
      refine ⟨?_, rfl⟩
      cases target with
      | none => rfl
      | some loop =>
          simp only [Arena.shapeLayer, Layer.isIntact, Option.map_some, Option.all_some,
            isOk_map] at intact ⊢
          exact keeps.isOk_expr intact
  | _ => exact ⟨rfl, rfl⟩

private theorem Keeps.relinked (keeps : old.Keeps new) {expr amended : Expr} {shape : Shape}
    (relinked : new.Relinked expr amended) (resolved : old.shape expr.form = .ok shape)
    (intact : (old.shapeLayer expr.location shape).isIntact) :
    ∃ newShape, new.shape amended.form = .ok newShape ∧
      (new.shapeLayer amended.location newShape).isIntact ∧
      (new.shapeLayer amended.location newShape).children =
        (old.shapeLayer expr.location shape).children := by
  obtain ⟨form, location⟩ := expr
  have kept := shape_of_lists keeps.exprList keeps.declList resolved
  have reads := keeps.shapeLayer location shape intact
  rcases relinked with rfl | ⟨target, found, isAmended⟩ | ⟨loop, found, isAmended⟩
  · exact ⟨shape, kept, reads⟩
  · cases form with
    | identifier name link depth =>
        cases isAmended
        cases resolved
        refine ⟨_, rfl, ?_, rfl⟩
        simp only [Arena.shapeLayer, Layer.isIntact, Option.map_some, Option.all_some, site,
          isOk_map, Bool.and_eq_true] at reads ⊢
        exact ⟨reads.1.1, found⟩
    | call function arguments link =>
        cases isAmended
        rw [Arena.shape] at kept
        cases listed : new.exprList arguments with
        | error fault =>
            rw [listed] at kept
            cases kept
        | ok ids =>
            rw [listed] at kept
            cases kept
            refine ⟨.call function ids (some target), by rw [Arena.shape, listed]; rfl, ?_, ?_⟩
            · simp only [Arena.shapeLayer, Layer.isIntact, Option.map_some, Option.all_some, site,
                isOk_map, Bool.and_eq_true] at reads ⊢
              exact ⟨reads.1.1, found⟩
            · rfl
    | _ => cases isAmended
  · cases form with
    | breakLoop target =>
        cases isAmended
        cases resolved
        refine ⟨_, rfl, ?_, rfl⟩
        simp only [Arena.shapeLayer, Layer.isIntact, Option.map_some, Option.all_some, isOk_map]
        exact found
    | _ => cases isAmended

private theorem Keeps.declLayer (keeps : old.Keeps new) {decl amended : Decl}
    (redecorated : new.Redecorated decl amended) (intact : (old.declLayer decl).isIntact) :
    (new.declLayer amended).isIntact ∧
      (new.declLayer amended).children = (old.declLayer decl).children := by
  have headed := keeps.heading redecorated
  have listed {parameters : ListRange DeclId} (found : (old.declList parameters).isOk) :
      new.declList parameters = old.declList parameters := by
    cases known : old.declList parameters with
    | error fault =>
        rw [known] at found
        cases found
    | ok ids => exact keeps.declList parameters ids known
  obtain ⟨sameName, _, sameForm | otherForm⟩ := redecorated
  · unfold Arena.declLayer at intact ⊢
    rw [sameForm]
    cases form : decl.form with
    | value initializer =>
        rw [form] at intact
        cases initializer <;> exact ⟨headed intact, rfl⟩
    | function parameters body loweredName =>
        rw [form] at intact
        simp only [Layer.isIntact, Bool.and_eq_true, isOk_map] at intact ⊢
        rw [listed intact.2]
        refine ⟨⟨⟨headed intact.1.1, ?_⟩, intact.2⟩, rfl⟩
        cases loweredName with
        | none => rfl
        | some symbol => exact keeps.text symbol intact.1.2
  · obtain ⟨parameters, body, loweredName, symbol, form, amendedForm, found⟩ := otherForm
    unfold Arena.declLayer at intact ⊢
    rw [form] at intact ⊢
    rw [amendedForm]
    simp only [Layer.isIntact, Bool.and_eq_true, isOk_map] at intact ⊢
    rw [listed intact.2]
    exact ⟨⟨⟨headed intact.1.1, found⟩, intact.2⟩, rfl⟩

theorem Keeps.extends (keeps : old.Keeps new) : old.Extends new := by
  intro node intact
  cases node with
  | decl id =>
      cases known : old.decl id with
      | error fault =>
          rw [layer_decl_missing known] at intact
          cases intact
      | ok decl =>
          obtain ⟨amended, isAmended, redecorated⟩ := keeps.decl id decl known
          rw [layer_decl known] at intact ⊢
          rw [layer_decl isAmended]
          exact keeps.declLayer redecorated intact
  | expr id =>
      cases known : old.expr id with
      | error fault =>
          rw [layer_expr_missing known] at intact
          cases intact
      | ok expr =>
          cases resolved : old.shape expr.form with
          | error fault =>
              rw [layer_expr_unresolved known resolved] at intact
              cases intact
          | ok shape =>
              obtain ⟨amended, isAmended, relinked⟩ := keeps.expr id expr known
              rw [layer_expr known resolved] at intact ⊢
              obtain ⟨newShape, newResolved, reads⟩ := keeps.relinked relinked resolved intact
              rw [layer_expr isAmended newResolved]
              exact reads

def withExpr (arena : Arena) (id : ExprId) (expr : Expr) : Arena :=
  { arena with exprs := arena.exprs.setIfInBounds id.index.toNat expr }

def withDecl (arena : Arena) (id : DeclId) (decl : Decl) : Arena :=
  { arena with decls := arena.decls.setIfInBounds id.index.toNat decl }

private theorem getElem?_setIfInBounds_of_some {Entry : Type} {table : Array Entry}
    {index : UInt32} {entry : Entry} (found : table[index.toNat]? = some entry) (amended : Entry)
    (other : UInt32) :
    (table.setIfInBounds index.toNat amended)[other.toNat]? =
      if other = index then some amended else table[other.toNat]? := by
  obtain ⟨inside, _⟩ := Array.getElem?_eq_some_iff.mp found
  rw [Array.getElem?_setIfInBounds]
  by_cases same : other = index
  · rw [if_pos same, same, if_pos rfl, if_pos inside]
  · have differ : index.toNat ≠ other.toNat := fun equal => same (UInt32.toNat_inj.mp equal).symm
    rw [if_neg same, if_neg differ]

theorem expr_withExpr {id : ExprId} {expr : Expr} (found : arena.expr id = .ok expr)
    (amended : Expr) (other : ExprId) :
    (arena.withExpr id amended).expr other =
      if other = id then .ok amended else arena.expr other := by
  have entry := getElem?_setIfInBounds_of_some (expr_eq_ok.mp found) amended other.index
  unfold Arena.expr withExpr
  rw [entry]
  by_cases same : other = id
  · rw [if_pos same, if_pos (congrArg ExprId.index same)]
  · have differ : other.index ≠ id.index := by
      intro equal
      cases other
      cases id
      exact same (congrArg ExprId.mk equal)
    rw [if_neg same, if_neg differ]

theorem decl_withDecl {id : DeclId} {decl : Decl} (found : arena.decl id = .ok decl)
    (amended : Decl) (other : DeclId) :
    (arena.withDecl id amended).decl other =
      if other = id then .ok amended else arena.decl other := by
  have entry := getElem?_setIfInBounds_of_some (decl_eq_ok.mp found) amended other.index
  unfold Arena.decl withDecl
  rw [entry]
  by_cases same : other = id
  · rw [if_pos same, if_pos (congrArg DeclId.index same)]
  · have differ : other.index ≠ id.index := by
      intro equal
      cases other
      cases id
      exact same (congrArg DeclId.mk equal)
    rw [if_neg same, if_neg differ]

theorem keeps_withExpr {id : ExprId} {expr amended : Expr} (found : arena.expr id = .ok expr)
    (relinked : arena.Relinked expr amended) : arena.Keeps (arena.withExpr id amended) where
  expr other known isKnown := by
    rw [expr_withExpr found]
    by_cases same : other = id
    · subst same
      cases found.symm.trans isKnown
      rw [if_pos rfl]
      refine ⟨amended, rfl, ?_⟩
      rcases relinked with unchanged | linked | ⟨loop, isLoop, isAmended⟩
      · exact .inl unchanged
      · exact .inr (.inl linked)
      · refine .inr (.inr ⟨loop, ?_, isAmended⟩)
        rw [expr_withExpr found]
        split
        · rfl
        · exact isLoop
    · rw [if_neg same]
      exact ⟨known, isKnown, .inl rfl⟩
  exprList _ _ found := found
  decl other known isKnown := ⟨known, isKnown, rfl, rfl, .inl rfl⟩
  declList _ _ found := found
  text _ found := found

theorem keeps_withDecl {id : DeclId} {decl amended : Decl} (found : arena.decl id = .ok decl)
    (redecorated : arena.Redecorated decl amended) : arena.Keeps (arena.withDecl id amended) where
  expr other known isKnown := ⟨known, isKnown, .inl rfl⟩
  exprList _ _ found := found
  decl other known isKnown := by
    rw [decl_withDecl found]
    by_cases same : other = id
    · subst same
      cases found.symm.trans isKnown
      rw [if_pos rfl]
      exact ⟨amended, rfl, redecorated⟩
    · rw [if_neg same]
      exact ⟨known, isKnown, rfl, rfl, .inl rfl⟩
  declList _ _ found := found
  text _ found := found

end Arena
end TigerTree
