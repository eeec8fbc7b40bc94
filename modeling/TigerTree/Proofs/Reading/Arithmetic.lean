import TigerTree.Proofs.Evaluation.Meaning
import TigerTree.Proofs.Reading.Precedence
import TigerTree.Proofs.Rendering.Decorations

/-! The value of what a text shows. Where no operator has a conditional for its left operand, the
tree that is read from a text has the value of the tree that was written. A conditional in that
place needs a parenthesis that the text does not have. -/

set_option autoImplicit false

namespace TigerTree

variable {Child Other : Type}

def lastValue? : List (Option Int) → Option Int
  | [] => none
  | [last] => last
  | value :: rest => do
      let _ ← value
      lastValue? rest

def Layer.value? : Layer (Option Int) → Option Int
  | .int _ value => some value.toInt
  | .binary _ operator left right => do
      let left ← left
      let right ← right
      operator.onIntegers? left right
  | .sequence _ elements => lastValue? elements
  | .ifThenElse _ condition thenBranch elseBranch => do
      let condition ← condition
      if condition = 0 then elseBranch else thenBranch
  | _ => none

def Tree.value? (tree : Tree) : Option Int :=
  tree.fold Layer.value?

theorem Tree.value?_node (layer : Layer Tree) :
    (Tree.node layer).value? = (layer.map Tree.value?).value? :=
  Tree.fold_node _ layer

private theorem toOption_bind (meaning : Meaning) (next : Int → Meaning) :
    (meaning >>= next).toOption = meaning.toOption >>= fun value => (next value).toOption := by
  cases meaning <;> rfl

private theorem toOption_lastOf (location : Location) (meanings : List Meaning) :
    (Meaning.lastOf location meanings).toOption = lastValue? (meanings.map Except.toOption) := by
  induction meanings with
  | nil => rfl
  | cons first rest ih =>
      cases rest with
      | nil => rfl
      | cons second rest =>
          change (first >>= fun _ => Meaning.lastOf location (second :: rest)).toOption = _
          rw [toOption_bind, ih]
          rfl

theorem Layer.toOption_meaning (layer : Layer Meaning) :
    layer.meaning.toOption = (layer.map Except.toOption).value? := by
  cases layer with
  | binary location operator left right =>
      cases left with
      | error stop => rfl
      | ok leftValue =>
          cases right with
          | error stop => rfl
          | ok rightValue =>
              simp only [meaning, map, value?, bind, Except.bind, Except.toOption, Option.bind]
              cases operator.onIntegers? leftValue rightValue <;> rfl
  | sequence location elements => exact toOption_lastOf location elements
  | ifThenElse location condition thenBranch elseBranch =>
      cases condition with
      | error stop => rfl
      | ok value =>
          change Except.toOption (if value = 0 then elseBranch else thenBranch) =
            if value = 0 then elseBranch.toOption else thenBranch.toOption
          split <;> rfl
  | _ => rfl

theorem Tree.toOption_meaning (tree : Tree) : tree.meaning.toOption = tree.value? := by
  induction tree with
  | node layer ih =>
      rw [meaning, fold_node, Layer.toOption_meaning, Layer.map_map, value?_node]
      exact congrArg Layer.value? (Layer.map_congr layer ih)

theorem Tree.meaning_eq_ok_iff {tree : Tree} {value : Int} :
    tree.meaning = .ok value ↔ tree.value? = some value := by
  rw [← toOption_meaning]
  cases tree.meaning <;> simp [Except.toOption]

theorem Layer.value?_surface (layer : Layer (Option Int)) :
    layer.surface.value? = layer.value? := by
  cases layer with
  | forLoop location start high body => cases start <;> rfl
  | _ => rfl

/-- The value of a tree is told by its surface. -/
theorem Tree.value?_surface (tree : Tree) : tree.surface.value? = tree.value? := by
  induction tree with
  | node layer ih =>
      rw [surface_node, value?_node, ← Layer.surface_map, Layer.value?_surface, Layer.map_map,
        value?_node]
      exact congrArg Layer.value? (Layer.map_congr layer ih)

theorem Arena.evaluate_eq_ok_iff {arena : Arena} {root : NodeId} (acyclic : arena.Acyclic root)
    (value : Int32) :
    arena.evaluate root = .ok value ↔ (arena.unfold root).value? = some value.toInt := by
  rw [evaluate_eq_ok_iff_meaning acyclic, Tree.meaning_eq_ok_iff]

/-! ### Operators behind a conditional -/

def Layer.isConditional : Layer Child → Bool
  | .ifThenElse _ _ _ _ => true
  | _ => false

theorem Layer.isConditional_map (change : Child → Other) (layer : Layer Child) :
    (layer.map change).isConditional = layer.isConditional := by
  cases layer <;> rfl

/-- If the layer is an operation, then its left operand is no conditional. -/
def Arena.leadsPlainly (arena : Arena) : Layer NodeId → Bool
  | .binary _ _ left _ => !(arena.layer left).isConditional
  | _ => true

def Layer.leadsPlainly : Layer Tree → Bool
  | .binary _ _ (.node left) _ => !left.isConditional
  | _ => true

/-- An operator stays with a left operand that is no conditional. -/
theorem Tree.regroup_of_not_conditional {layer : Layer Tree} (closed : layer.isConditional = false)
    (pending : Pending) :
    (Tree.node layer).regroup pending = pending.applied (Tree.node layer).regrouped := by
  rw [regrouped, regroup_node]
  cases layer with
  | ifThenElse location condition thenBranch elseBranch => cases closed
  | sequence location elements => cases elements <;> rfl
  | _ => rfl

private theorem value?_ofElements (first : Tree) (others : List Tree) :
    (Tree.ofElements first others).value? = lastValue? ((first :: others).map Tree.value?) := by
  cases others with
  | nil => rfl
  | cons second others =>
      rw [Tree.ofElements, Tree.value?_node]
      rfl

/-- Regrouping keeps the value of an arithmetic tree whose operators stay where they are. -/
theorem Arithmetic.value?_regrouped {tree : Tree} (arithmetic : Arithmetic tree)
    (plain : tree.Throughout (fun layer => layer.leadsPlainly)) :
    tree.regrouped.value? = tree.value? := by
  induction arithmetic with
  | int location value => rfl
  | @binary location operator left right _ _ sameLeft sameRight =>
      obtain ⟨_, here, below⟩ := plain
      obtain ⟨leftLayer⟩ := left
      have closed : leftLayer.isConditional = false := Bool.not_eq_true' _ ▸ here
      have isRegrouped :
          (Tree.node (.binary location operator (.node leftLayer) right)).regrouped =
            .node (.binary Location.dummy operator (Tree.node leftLayer).regrouped
              right.regrouped) := by
        rw [Tree.regrouped, Tree.regroup_binary]
        exact Tree.regroup_of_not_conditional closed (some (operator, right.regrouped))
      rw [isRegrouped, Tree.value?_node, Tree.value?_node]
      simp only [Layer.map, Layer.value?, sameLeft (below _ List.mem_cons_self),
        sameRight (below _ (.tail _ List.mem_cons_self))]
  | sequence location first others _ same =>
      obtain ⟨_, _, below⟩ := plain
      have isRegrouped : (Tree.node (.sequence location (first :: others))).regrouped =
          .ofElements first.regrouped (others.map Tree.regrouped) :=
        Tree.regroup_sequence location first others none
      have sameAll : ((first :: others).map Tree.regrouped).map Tree.value? =
          (first :: others).map Tree.value? := by
        rw [List.map_map]
        exact List.map_congr_left (fun element member => same element member (below _ member))
      rw [isRegrouped, value?_ofElements, ← List.map_cons, sameAll, Tree.value?_node]
      rfl
  | @ifThenElse location condition thenBranch elseBranch _ _ _ sameCondition sameThen sameElse =>
      obtain ⟨_, _, below⟩ := plain
      have isRegrouped :
          (Tree.node (.ifThenElse location condition thenBranch elseBranch)).regrouped =
            .node (.ifThenElse Location.dummy condition.regrouped thenBranch.regrouped
              elseBranch.regrouped) :=
        Tree.regroup_ifThenElse location condition thenBranch elseBranch none
      rw [isRegrouped, Tree.value?_node, Tree.value?_node]
      simp only [Layer.map, Layer.value?, sameCondition (below _ List.mem_cons_self),
        sameThen (below _ (.tail _ List.mem_cons_self)),
        sameElse (below _ (.tail _ (.tail _ List.mem_cons_self)))]

namespace Arena

variable {arena : Arena}

private theorem leadsPlainly_unfoldWithin {length : Nat} {root : NodeId}
    (within : arena.Within length root)
    (plain : arena.Throughout (fun layer => arena.leadsPlainly layer) root) :
    (arena.unfoldWithin length root).Throughout (fun layer => layer.leadsPlainly) := by
  induction length generalizing root with
  | zero => exact within.elim
  | succ length ih =>
      rw [unfoldWithin]
      refine .node _ ?_ ?_
      · have here := plain root .refl
        rw [Within] at within
        generalize arena.layer root = layer at here within
        cases layer with
        | binary location operator left right =>
            -- the left operand is looked up in the arena, so its tree has to show its layer
            have leftWithin := within left List.mem_cons_self
            cases length with
            | zero => exact leftWithin.elim
            | succ length =>
                change (!(Layer.map _ (arena.layer left)).isConditional) = true
                rw [Layer.isConditional_map]
                exact here
        | _ => rfl
      · intro tree member
        rw [Layer.children_map] at member
        obtain ⟨child, owned, rfl⟩ := List.mem_map.mp member
        exact ih (within child owned) (fun node reached => plain node (.head owned reached))

/-- The text of an arithmetic tree with a value can be read, and shows the tree regrouped. If no
operator has a conditional for its left operand, what is read has that value, however it is
stored. -/
theorem value_of_reading_render {root : ExprId} {value : Int32}
    (acyclic : arena.Acyclic (.expr root))
    (arithmetic : arena.Throughout (fun layer => layer.isArithmetic) (.expr root))
    (evaluates : arena.evaluate (.expr root) = .ok value) (indentSize : UInt64) :
    arena.render ⟨indentSize, false⟩ (.expr root) = .error (.faulted .arithmeticOverflow) ∨
    ∃ text read, arena.render ⟨indentSize, false⟩ (.expr root) = .ok text ∧
      readExpression text = some read ∧ read = (arena.unfold (.expr root)).regrouped ∧
      (arena.Throughout (fun layer => arena.leadsPlainly layer) (.expr root) →
        read.meaning = .ok value.toInt ∧
        ∀ (other : Arena) (node : NodeId), other.Acyclic node →
          (other.unfold node).surface = read → other.evaluate node = .ok value) := by
  by_cases narrow :
      arena.render ⟨indentSize, false⟩ (.expr root) = .error (.faulted .arithmeticOverflow)
  · exact .inl narrow
  · have readable : arena.Throughout (fun layer => layer.isReadable false) (.expr root) :=
      fun node reached => Layer.isReadable_of_isArithmetic (arithmetic node reached)
    have sound : arena.Throughout (fun layer => layer.violation? = none) (.expr root) :=
      fun node reached => Layer.violation?_of_isArithmetic (arithmetic node reached)
    obtain ⟨text, rendered⟩ := exists_render_of_sound acyclic readable sound narrow
    refine .inr ⟨text, _, rendered, readExpression_of_render acyclic arithmetic rendered, rfl, ?_⟩
    intro plain
    have isValue : (arena.unfold (.expr root)).regrouped.value? = some value.toInt := by
      rw [(arithmetic_unfold acyclic arithmetic).value?_regrouped
        (leadsPlainly_unfoldWithin acyclic.within plain)]
      exact (evaluate_eq_ok_iff acyclic value).mp evaluates
    refine ⟨Tree.meaning_eq_ok_iff.mpr isValue, ?_⟩
    intro other node acyclicToo shows
    apply (evaluate_eq_ok_iff acyclicToo value).mpr
    rw [← Tree.value?_surface, shows, isValue]

end Arena

def squaredDifference : Arena :=
  { Arena.initial with
    exprs := #[
      ⟨.int 4, ⟨1, 1⟩⟩,
      ⟨.int (-3), ⟨1, 2⟩⟩,
      ⟨.ifThenElse ⟨0⟩ ⟨1⟩ ⟨0⟩, ⟨1, 3⟩⟩,
      ⟨.binary .sub ⟨0⟩ ⟨2⟩, ⟨1, 4⟩⟩,
      ⟨.sequence ⟨0, 1⟩, ⟨1, 5⟩⟩,
      ⟨.binary .mul ⟨4⟩ ⟨3⟩, ⟨1, 6⟩⟩]
    exprLists := #[⟨3⟩] }

theorem value_of_reading_squaredDifference :
    ∃ text read, squaredDifference.render Style.plain (.expr ⟨5⟩) = .ok text ∧
      readExpression text = some read ∧ read.meaning = .ok 49 ∧
      squaredDifference.evaluate (.expr ⟨5⟩) = .ok 49 := by
  have within : squaredDifference.Within 7 (.expr ⟨5⟩) := by decide
  have arithmetic := Arena.throughout_of_checkWithin (by decide :
    squaredDifference.checkWithin (fun layer => layer.isArithmetic) 7 (.expr ⟨5⟩))
  have plain := Arena.throughout_of_checkWithin (by decide :
    squaredDifference.checkWithin squaredDifference.leadsPlainly 7 (.expr ⟨5⟩))
  have evaluates : squaredDifference.evaluate (.expr ⟨5⟩) = .ok 49 := rfl
  rcases Arena.value_of_reading_render within.acyclic arithmetic evaluates 2 with
    wide | ⟨text, read, rendered, isRead, _, keeps⟩
  · exact absurd wide (by decide +kernel)
  · exact ⟨text, read, rendered, isRead, (keeps plain).1, evaluates⟩

def leadingConditional : Arena :=
  { Arena.initial with
    exprs := #[
      ⟨.int 1, ⟨1, 1⟩⟩,
      ⟨.int 2, ⟨1, 2⟩⟩,
      ⟨.int 3, ⟨1, 3⟩⟩,
      ⟨.ifThenElse ⟨0⟩ ⟨1⟩ ⟨2⟩, ⟨1, 4⟩⟩,
      ⟨.int 10, ⟨1, 5⟩⟩,
      ⟨.binary .add ⟨3⟩ ⟨4⟩, ⟨1, 6⟩⟩] }

/-- The sum goes to the last branch of the conditional that it has for its left operand. -/
theorem reading_changes_leadingConditional :
    leadingConditional.Acyclic (.expr ⟨5⟩) ∧
      leadingConditional.Throughout (fun layer => layer.isArithmetic) (.expr ⟨5⟩) ∧
      leadingConditional.evaluate (.expr ⟨5⟩) = .ok 12 ∧
      ∃ text read, leadingConditional.render Style.plain (.expr ⟨5⟩) = .ok text ∧
        text = "(if\n  1\nthen\n  2\nelse\n  3 + 10)" ∧
        readExpression text = some read ∧ read.meaning = .ok 2 := by
  have within : leadingConditional.Within 7 (.expr ⟨5⟩) := by decide
  have arithmetic := Arena.throughout_of_checkWithin (by decide :
    leadingConditional.checkWithin (fun layer => layer.isArithmetic) 7 (.expr ⟨5⟩))
  have rendered : leadingConditional.render Style.plain (.expr ⟨5⟩) =
      .ok "(if\n  1\nthen\n  2\nelse\n  3 + 10)" := by decide +kernel
  have isRead := readExpression_of_render within.acyclic arithmetic rendered
  exact ⟨within.acyclic, arithmetic, rfl, _, _, rendered, rfl, isRead, rfl⟩

end TigerTree
