import TigerTree.Evaluation.Basic
import TigerTree.Proofs.Unfolding.Intact

/-! The meaning of a tree over the integers: exact arithmetic, brought back into the range of a
signed 32-bit word after every operation. It is a fold and knows neither tables nor words, and
evaluating an arena computes it. -/

set_option autoImplicit false

namespace TigerTree

/-- The one integer in the range of a signed 32-bit word that is congruent to the given one. -/
def wrapped (exact : Int) : Int := exact.bmod UInt32.size

def Operator.onIntegers? (operator : Operator) (left right : Int) : Option Int :=
  match operator with
  | .add => some (wrapped (left + right))
  | .sub => some (wrapped (left - right))
  | .mul => some (wrapped (left * right))
  | .div => if right = 0 then none else some (wrapped (left.tdiv right))
  | .eq => some (if left = right then 1 else 0)
  | .lt => some (if left < right then 1 else 0)
  | .gt => some (if left > right then 1 else 0)
  | .le => some (if left ≤ right then 1 else 0)
  | .ge => some (if left ≥ right then 1 else 0)

private theorem truth_toInt (holds : Bool) :
    (Operator.truth holds).toInt = if holds then 1 else 0 := by
  cases holds <;> rfl

theorem Operator.compute?_eq_onIntegers? (operator : Operator) (left right : Int32) :
    (operator.compute? left right).map Int32.toInt =
      operator.onIntegers? left.toInt right.toInt := by
  cases operator with
  | add => exact congrArg some (Int32.toInt_add left right)
  | sub => exact congrArg some (Int32.toInt_sub left right)
  | mul => exact congrArg some (Int32.toInt_mul left right)
  | div =>
      have zeroes : right = 0 ↔ right.toInt = 0 := by
        rw [← Int32.toInt_inj, Int32.toInt_zero]
      by_cases isZero : right = 0
      · simp [compute?, onIntegers?, isZero]
      · rw [compute?, onIntegers?, if_neg isZero, if_neg (fun none => isZero (zeroes.mpr none))]
        exact congrArg some (Int32.toInt_div left right)
  | eq => simp [compute?, onIntegers?, truth_toInt, Int32.toInt_inj]
  | lt => simp [compute?, onIntegers?, truth_toInt, Int32.lt_iff_toInt_lt]
  | gt => simp [compute?, onIntegers?, truth_toInt, Int32.lt_iff_toInt_lt]
  | le => simp [compute?, onIntegers?, truth_toInt, Int32.le_iff_toInt_le]
  | ge => simp [compute?, onIntegers?, truth_toInt, Int32.le_iff_toInt_le]

abbrev Meaning := Except (Stop EvalError) Int

def Meaning.objection (cause : EvalCause) (location : Location) : Meaning :=
  .error (.diagnosed ⟨cause, some location⟩)

def Meaning.lastOf (location : Location) : List Meaning → Meaning
  | [] => objection (.violated .emptySequence) location
  | [last] => last
  | meaning :: rest => do
      let _ ← meaning
      lastOf location rest

/-- The meaning of a node whose children have theirs. What has no meaning without variables or
effects is refused without a look at its children. -/
def Layer.meaning : Layer Meaning → Meaning
  | .broken fault => .error (.faulted fault)
  | .int _ value => .ok value.toInt
  | .binary location operator left right => do
      let left ← left
      let right ← right
      match operator.onIntegers? left right with
      | some value => .ok value
      | none => Meaning.objection (.violated .divisionByZero) location
  | .sequence location elements => Meaning.lastOf location elements
  | .ifThenElse _ condition thenBranch elseBranch => do
      let condition ← condition
      if condition = 0 then elseBranch else thenBranch
  | .string location _ => Meaning.objection (.unsupported .stringLiteral) location
  | .letIn location _ _ => Meaning.objection (.unsupported .letIn) location
  | .identifier location _ _ _ => Meaning.objection (.unsupported .identifier) location
  | .call location _ _ _ => Meaning.objection (.unsupported .funCall) location
  | .whileLoop location _ _ => Meaning.objection (.unsupported .whileLoop) location
  | .forLoop location _ _ _ => Meaning.objection (.unsupported .forLoop) location
  | .breakLoop location _ => Meaning.objection (.unsupported .breakLoop) location
  | .assign location _ _ => Meaning.objection (.unsupported .assign) location
  | .varDecl heading _ => Meaning.objection (.unsupported .varDecl) heading.location
  | .parameter heading => Meaning.objection (.unsupported .varDecl) heading.location
  | .funDecl heading _ _ _ => Meaning.objection (.unsupported .funDecl) heading.location

def Tree.meaning (tree : Tree) : Meaning :=
  tree.fold Layer.meaning

/-- No broken lookup was met. -/
def Meaning.Unfaulted (meaning : Meaning) : Prop :=
  ∀ fault, meaning ≠ .error (.faulted fault)

theorem Meaning.unfaulted_ok (value : Int) : Unfaulted (.ok value) := by
  intro fault same
  cases same

theorem Meaning.unfaulted_objection (cause : EvalCause) (location : Location) :
    (objection cause location).Unfaulted := by
  intro fault same
  cases same

theorem Meaning.unfaulted_bind {first : Meaning} {next : Int → Meaning}
    (unfaulted : first.Unfaulted) (later : ∀ value, (next value).Unfaulted) :
    Unfaulted (first >>= next) := by
  cases first with
  | ok value => exact later value
  | error stop =>
      intro fault same
      cases same
      exact unfaulted fault rfl

theorem Meaning.unfaulted_lastOf (location : Location) {meanings : List Meaning}
    (unfaulted : ∀ meaning ∈ meanings, meaning.Unfaulted) :
    (lastOf location meanings).Unfaulted := by
  induction meanings with
  | nil => exact unfaulted_objection _ location
  | cons first rest ih =>
      cases rest with
      | nil => exact unfaulted first List.mem_cons_self
      | cons next rest =>
          refine unfaulted_bind (unfaulted first List.mem_cons_self) (fun _ => ih ?_)
          exact fun meaning member => unfaulted meaning (List.mem_cons_of_mem _ member)

theorem Layer.unfaulted_meaning {layer : Layer Meaning} (intact : layer.isIntact)
    (below : ∀ child ∈ layer.children, child.Unfaulted) : layer.meaning.Unfaulted := by
  cases layer with
  | broken fault => cases intact
  | int location value => exact Meaning.unfaulted_ok value.toInt
  | binary location operator left right =>
      refine Meaning.unfaulted_bind (below left (by simp [children])) (fun leftValue => ?_)
      refine Meaning.unfaulted_bind (below right (by simp [children])) (fun rightValue => ?_)
      split
      · exact Meaning.unfaulted_ok _
      · exact Meaning.unfaulted_objection _ location
  | sequence location elements => exact Meaning.unfaulted_lastOf location below
  | ifThenElse location condition thenBranch elseBranch =>
      refine Meaning.unfaulted_bind (below condition (by simp [children])) (fun value => ?_)
      split
      · exact below elseBranch (by simp [children])
      · exact below thenBranch (by simp [children])
  | _ => exact Meaning.unfaulted_objection _ _

/-- Where every lookup succeeds there is a value, or an objection to the program. -/
theorem Tree.unfaulted_meaning {tree : Tree}
    (intact : tree.Throughout (fun layer => layer.isIntact)) : tree.meaning.Unfaulted := by
  induction intact with
  | node layer here below ih =>
      rw [meaning, fold_node]
      refine Layer.unfaulted_meaning (by rw [Layer.isIntact_map]; exact here) ?_
      intro child member
      rw [Layer.children_map] at member
      obtain ⟨inner, isInner, rfl⟩ := List.mem_map.mp member
      exact ih inner isInner

/-- The outcome of an evaluation with its word read as an integer. -/
def EvalM.toMeaning (outcome : EvalM Int32) : Meaning :=
  outcome.map Int32.toInt

private theorem operate_toMeaning (operator : Operator) (location : Location)
    (left right : Int32) :
    EvalM.toMeaning
      (match EvalM.operate operator left right with
        | .ok value => .ok value
        | .error error => EvalM.diagnose (error.locatedAt location)) =
      match operator.onIntegers? left.toInt right.toInt with
      | some value => .ok value
      | none => Meaning.objection (.violated .divisionByZero) location := by
  rw [← Operator.compute?_eq_onIntegers?]
  unfold EvalM.operate
  cases operator.compute? left right <;> rfl

private theorem evaluateElements_toMeaning (evaluate : ExprId → EvalM Int32)
    (location : Location) (element : ExprId) (rest : List ExprId) :
    EvalM.toMeaning (evaluateElements evaluate element rest) =
      Meaning.lastOf location
        ((element :: rest).map (fun id => EvalM.toMeaning (evaluate id))) := by
  induction rest generalizing element with
  | nil => rfl
  | cons next rest ih =>
      rw [List.map_cons, evaluateElements]
      have later := ih next
      cases evaluate element with
      | error stop => rfl
      | ok value => exact later

private theorem evaluateShape_toMeaning (arena : Arena) (evaluate : ExprId → EvalM Int32)
    (meaning : NodeId → Meaning) (location : Location) (shape : Shape)
    (agree : ∀ id, .expr id ∈ (arena.shapeLayer location shape).children →
      EvalM.toMeaning (evaluate id) = meaning (.expr id)) :
    EvalM.toMeaning (evaluateShape evaluate location shape) =
      ((arena.shapeLayer location shape).map meaning).meaning := by
  cases shape with
  | binary operator left right =>
      have onLeft := agree left List.mem_cons_self
      have onRight := agree right (.tail _ List.mem_cons_self)
      simp only [Arena.shapeLayer, Layer.map, Layer.meaning, ← onLeft, ← onRight]
      change EvalM.toMeaning (evaluate left >>= fun leftValue => evaluate right >>= _) = _
      cases evaluate left with
      | error stop => rfl
      | ok leftValue =>
          cases evaluate right with
          | error stop => rfl
          | ok rightValue => exact operate_toMeaning operator location leftValue rightValue
  | sequence elements =>
      have listed : (elements.map NodeId.expr).map meaning =
          elements.map (fun id => EvalM.toMeaning (evaluate id)) := by
        rw [List.map_map]
        refine List.map_congr_left ?_
        intro id member
        exact (agree id (List.mem_map_of_mem member)).symm
      simp only [Arena.shapeLayer, Layer.map, Layer.meaning, listed]
      cases elements with
      | nil => rfl
      | cons element rest => exact evaluateElements_toMeaning evaluate location element rest
  | ifThenElse condition thenBranch elseBranch =>
      have onCondition := agree condition List.mem_cons_self
      have onThen := agree thenBranch (.tail _ List.mem_cons_self)
      have onElse := agree elseBranch (.tail _ (.tail _ List.mem_cons_self))
      simp only [Arena.shapeLayer, Layer.map, Layer.meaning, ← onCondition, ← onThen, ← onElse]
      change EvalM.toMeaning (evaluate condition >>= fun value =>
        if value ≠ 0 then evaluate thenBranch else evaluate elseBranch) = _
      cases evaluate condition with
      | error stop => rfl
      | ok value =>
          have zeroes : value = 0 ↔ value.toInt = 0 := by
            rw [← Int32.toInt_inj, Int32.toInt_zero]
          by_cases isZero : value = 0
          · have isZeroInt : value.toInt = 0 := zeroes.mp isZero
            simp [EvalM.toMeaning, Except.map, bind, Except.bind, isZero]
          · have notZeroInt : value.toInt ≠ 0 := fun none => isZero (zeroes.mpr none)
            simp [EvalM.toMeaning, Except.map, bind, Except.bind, isZero, notZeroInt]
  | _ => rfl

theorem evaluateWithin_toMeaning (arena : Arena) (length : Nat) (id : ExprId)
    (within : arena.Within length (.expr id)) :
    EvalM.toMeaning (arena.evaluateWithin length id) =
      (arena.unfoldWithin length (.expr id)).meaning := by
  induction length generalizing id with
  | zero => exact within.elim
  | succ length ih =>
      rw [Arena.unfoldWithin, Tree.meaning, Tree.fold_node, Layer.map_map]
      rw [Arena.Within] at within
      cases found : arena.expr id with
      | error fault =>
          rw [Arena.layer_expr_missing found, Arena.evaluateWithin, found]
          rfl
      | ok expr =>
          cases resolved : arena.shape expr.form with
          | error fault =>
              rw [Arena.layer_expr_unresolved found resolved, Arena.evaluateWithin, found]
              change EvalM.toMeaning (Stop.ofLookup (arena.shape expr.form) >>= _) = _
              rw [resolved]
              rfl
          | ok shape =>
              rw [Arena.layer_expr found resolved] at within ⊢
              have step := evaluateShape_toMeaning arena (arena.evaluateWithin length)
                (fun child => (arena.unfoldWithin length child).meaning) expr.location shape
                (fun child member => ih child (within _ member))
              rw [Arena.evaluateWithin, found]
              change EvalM.toMeaning (Stop.ofLookup (arena.shape expr.form) >>= _) = _
              rw [resolved]
              exact step

theorem evaluate_decl_toMeaning (arena : Arena) (id : DeclId)
    (acyclic : arena.Acyclic (.decl id)) :
    EvalM.toMeaning (arena.evaluate (.decl id)) = (arena.unfold (.decl id)).meaning := by
  rw [Arena.unfold_eq acyclic, Tree.meaning, Tree.fold_node, Arena.evaluate]
  cases found : arena.decl id with
  | error fault =>
      rw [Arena.layer_decl_missing found]
      rfl
  | ok decl =>
      rw [Arena.layer_decl found]
      obtain ⟨name, location, depth, typeName, type, escapes, form⟩ := decl
      cases form with
      | value initializer => cases initializer <;> rfl
      | function parameters body loweredName => rfl

theorem Arena.evaluate_eq_ok_iff_meaning {arena : Arena} {root : NodeId}
    (acyclic : arena.Acyclic root) (value : Int32) :
    arena.evaluate root = .ok value ↔ (arena.unfold root).meaning = .ok value.toInt := by
  have computes : EvalM.toMeaning (arena.evaluate root) = (arena.unfold root).meaning := by
    cases root with
    | expr id => exact evaluateWithin_toMeaning arena arena.pathBound id acyclic.within
    | decl id => exact evaluate_decl_toMeaning arena id acyclic
  rw [← computes]
  cases arena.evaluate root with
  | error stop => simp [EvalM.toMeaning, Except.map]
  | ok found => simp [EvalM.toMeaning, Except.map, Int32.toInt_inj]

/-- Evaluation is the meaning of the unfolded tree: the same integer, the same objection at the
same location, or the same fault, whatever the tables hold elsewhere. -/
theorem evaluate_eq_meaning_unfold (arena : Arena) (root : NodeId)
    (acyclic : arena.Acyclic root) :
    (arena.evaluate root).map Int32.toInt = (arena.unfold root).meaning := by
  cases root with
  | expr id => exact evaluateWithin_toMeaning arena arena.pathBound id acyclic.within
  | decl id => exact evaluate_decl_toMeaning arena id acyclic

/-- A dangling branch that is not taken, a divisor of zero in the one that is, and an operand that
stands in three places. -/
def faultyDivision : Arena :=
  { Arena.initial with
    exprs := #[
      ⟨.int 0, ⟨1, 1⟩⟩,
      ⟨.binary .div ⟨0⟩ ⟨0⟩, ⟨1, 2⟩⟩,
      ⟨.ifThenElse ⟨0⟩ ⟨9⟩ ⟨1⟩, ⟨1, 3⟩⟩,
      ⟨.binary .mul ⟨2⟩ ⟨8⟩, ⟨1, 4⟩⟩] }

theorem evaluate_faultyDivision :
    faultyDivision.Acyclic (.expr ⟨3⟩) ∧
      (faultyDivision.evaluate (.expr ⟨3⟩)).map Int32.toInt =
        (faultyDivision.unfold (.expr ⟨3⟩)).meaning ∧
      (faultyDivision.unfold (.expr ⟨3⟩)).meaning =
        Meaning.objection (.violated .divisionByZero) ⟨1, 2⟩ := by
  have within : faultyDivision.Within 5 (.expr ⟨3⟩) := by decide
  exact ⟨within.acyclic, evaluate_eq_meaning_unfold _ _ within.acyclic, rfl⟩

end TigerTree
