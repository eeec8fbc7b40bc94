import Mathlib.Data.Finset.Card
import Mathlib.Data.Nat.Find
import TigerTree.Proofs.Evaluation.Folding

/-! Which nodes an evaluation asks for. One step asks for some of the children: the operands up to
the first that fails, the elements of a sequence up to the first that fails, the condition and the
branch it chooses. A step knows nothing of the children it does not ask for, and an evaluation that
ends for any bound on its length ends for the bound that the tables give. -/

set_option autoImplicit false

namespace TigerTree

def askedInOrder (evaluate : ExprId → EvalM Int32) : List ExprId → List ExprId
  | [] => []
  | id :: rest =>
      match evaluate id with
      | .ok _ => id :: askedInOrder evaluate rest
      | .error _ => [id]

theorem askedInOrder_singleton (evaluate : ExprId → EvalM Int32) (id : ExprId) :
    askedInOrder evaluate [id] = [id] := by
  rw [askedInOrder]
  cases evaluate id <;> rfl

/-- The children that one step of evaluation asks for, once it is known how children evaluate. -/
def Shape.asked (evaluate : ExprId → EvalM Int32) : Shape → List ExprId
  | .binary _ left right => askedInOrder evaluate [left, right]
  | .sequence elements => askedInOrder evaluate elements
  | .ifThenElse condition thenBranch elseBranch =>
      match evaluate condition with
      | .ok value => [condition, if value ≠ 0 then thenBranch else elseBranch]
      | .error _ => [condition]
  | _ => []

section

variable {first second : ExprId → EvalM Int32}

private theorem askedInOrder_congr {ids : List ExprId}
    (agree : ∀ id ∈ askedInOrder first ids, second id = first id) :
    askedInOrder second ids = askedInOrder first ids := by
  induction ids with
  | nil => rfl
  | cons id rest ih =>
      rw [askedInOrder] at agree ⊢
      rw [askedInOrder]
      cases here : first id with
      | error stop =>
          rw [here] at agree
          rw [agree id List.mem_cons_self, here]
      | ok value =>
          rw [here] at agree
          rw [agree id List.mem_cons_self, here]
          have later := ih (fun next member => agree next (List.mem_cons_of_mem _ member))
          exact congrArg (id :: ·) later

/-- Evaluations of children that agree where the one is asked are asked for the same children. -/
theorem Shape.asked_congr {shape : Shape}
    (agree : ∀ id ∈ shape.asked first, second id = first id) :
    shape.asked second = shape.asked first := by
  cases shape with
  | binary operator left right => exact askedInOrder_congr agree
  | sequence elements => exact askedInOrder_congr agree
  | ifThenElse condition thenBranch elseBranch =>
      simp only [asked] at agree ⊢
      cases here : first condition with
      | error stop =>
          rw [here] at agree
          rw [agree condition List.mem_cons_self, here]
      | ok value =>
          rw [here] at agree
          rw [agree condition List.mem_cons_self, here]
  | _ => rfl

private theorem evaluateElements_of_asked {element : ExprId} {rest : List ExprId}
    (agree : ∀ id ∈ askedInOrder first (element :: rest), second id = first id) :
    evaluateElements second element rest = evaluateElements first element rest := by
  induction rest generalizing element with
  | nil =>
      rw [askedInOrder_singleton] at agree
      exact agree element List.mem_cons_self
  | cons next rest ih =>
      rw [askedInOrder] at agree
      rw [evaluateElements, evaluateElements]
      cases here : first element with
      | error stop =>
          rw [here] at agree
          rw [agree element List.mem_cons_self, here]
          rfl
      | ok value =>
          rw [here] at agree
          rw [agree element List.mem_cons_self, here]
          exact ih (fun id member => agree id (List.mem_cons_of_mem _ member))

/-- A step of evaluation depends on no child that it does not ask for. -/
theorem evaluateShape_of_asked (location : Location) {shape : Shape}
    (agree : ∀ id ∈ shape.asked first, second id = first id) :
    evaluateShape second location shape = evaluateShape first location shape := by
  cases shape with
  | binary operator left right =>
      change (second left >>= fun _ => second right >>= _) =
        first left >>= fun _ => first right >>= _
      rw [Shape.asked, askedInOrder, askedInOrder_singleton] at agree
      cases onLeft : first left with
      | error stop =>
          rw [onLeft] at agree
          rw [agree left List.mem_cons_self, onLeft]
          rfl
      | ok leftValue =>
          rw [onLeft] at agree
          have onRight := agree right (.tail _ List.mem_cons_self)
          rw [agree left List.mem_cons_self, onLeft, onRight]
  | sequence elements =>
      cases elements with
      | nil => rfl
      | cons element rest => exact evaluateElements_of_asked agree
  | ifThenElse condition thenBranch elseBranch =>
      change (second condition >>= fun value =>
        if value ≠ 0 then second thenBranch else second elseBranch) =
        first condition >>= fun value =>
          if value ≠ 0 then first thenBranch else first elseBranch
      simp only [Shape.asked] at agree
      cases onCondition : first condition with
      | error stop =>
          rw [onCondition] at agree
          rw [agree condition List.mem_cons_self, onCondition]
          rfl
      | ok value =>
          rw [onCondition] at agree
          have onBranch := agree _ (.tail _ List.mem_cons_self)
          rw [agree condition List.mem_cons_self, onCondition]
          change (if value ≠ 0 then second thenBranch else second elseBranch) =
            if value ≠ 0 then first thenBranch else first elseBranch
          split at onBranch
          · next chosen => rw [if_pos chosen, if_pos chosen, onBranch]
          · next chosen => rw [if_neg chosen, if_neg chosen, onBranch]
  | _ => rfl

end

section

variable {evaluate : ExprId → EvalM Int32}

private theorem evaluateElements_of_asked_error {element id : ExprId} {rest : List ExprId}
    {stop : Stop EvalError} (asked : id ∈ askedInOrder evaluate (element :: rest))
    (fails : evaluate id = .error stop) : evaluateElements evaluate element rest = .error stop := by
  induction rest generalizing element with
  | nil =>
      rw [askedInOrder_singleton] at asked
      cases List.mem_singleton.mp asked
      exact fails
  | cons next rest ih =>
      rw [askedInOrder] at asked
      rw [evaluateElements]
      cases here : evaluate element with
      | error earlier =>
          rw [here] at asked
          cases List.mem_singleton.mp asked
          rw [here] at fails
          exact fails
      | ok value =>
          rw [here] at asked
          rcases List.mem_cons.mp asked with rfl | later
          · rw [here] at fails
            cases fails
          · exact ih later

/-- A child that is asked for and fails ends the step. -/
theorem evaluateShape_of_asked_error (location : Location) {shape : Shape} {id : ExprId}
    {stop : Stop EvalError} (asked : id ∈ shape.asked evaluate)
    (fails : evaluate id = .error stop) : evaluateShape evaluate location shape = .error stop := by
  cases shape with
  | binary operator left right =>
      change (evaluate left >>= fun _ => evaluate right >>= _) = _
      rw [Shape.asked, askedInOrder, askedInOrder_singleton] at asked
      cases onLeft : evaluate left with
      | error earlier =>
          rw [onLeft] at asked
          cases List.mem_singleton.mp asked
          rw [onLeft] at fails
          exact fails
      | ok leftValue =>
          rw [onLeft] at asked
          rcases List.mem_cons.mp asked with rfl | later
          · rw [onLeft] at fails
            cases fails
          · cases List.mem_singleton.mp later
            rw [fails]
            rfl
  | sequence elements =>
      cases elements with
      | nil => cases asked
      | cons element rest => exact evaluateElements_of_asked_error asked fails
  | ifThenElse condition thenBranch elseBranch =>
      change (evaluate condition >>= fun value =>
        if value ≠ 0 then evaluate thenBranch else evaluate elseBranch) = _
      simp only [Shape.asked] at asked
      cases onCondition : evaluate condition with
      | error earlier =>
          rw [onCondition] at asked
          cases List.mem_singleton.mp asked
          rw [onCondition] at fails
          exact fails
      | ok value =>
          rw [onCondition] at asked
          rcases List.mem_cons.mp asked with rfl | later
          · rw [onCondition] at fails
            cases fails
          · have isBranch := List.mem_singleton.mp later
            change (if value ≠ 0 then evaluate thenBranch else evaluate elseBranch) = _
            split at isBranch
            · next chosen => rw [if_pos chosen, ← isBranch, fails]
            · next chosen => rw [if_neg chosen, ← isBranch, fails]
  | _ => cases asked

end

namespace Arena

variable {arena : Arena} {length longer : Nat} {id : ExprId}

def Ends (arena : Arena) (length : Nat) (id : ExprId) : Prop :=
  arena.evaluateWithin length id ≠ .error (.faulted .cyclicTree)

theorem evaluateWithin_missing {fault : Fault} (missing : arena.expr id = .error fault) :
    arena.evaluateWithin (length + 1) id = .error (.faulted fault) := by
  rw [evaluateWithin, missing]
  rfl

theorem evaluateWithin_unresolved {expr : Expr} {fault : Fault} (found : arena.expr id = .ok expr)
    (unresolved : arena.shape expr.form = .error fault) :
    arena.evaluateWithin (length + 1) id = .error (.faulted fault) := by
  rw [evaluateWithin, found]
  change (Stop.ofLookup (arena.shape expr.form) >>= _) = _
  rw [unresolved]
  rfl

theorem evaluateWithin_succ {expr : Expr} {shape : Shape} (found : arena.expr id = .ok expr)
    (resolved : arena.shape expr.form = .ok shape) :
    arena.evaluateWithin (length + 1) id =
      evaluateShape (arena.evaluateWithin length) expr.location shape := by
  rw [evaluateWithin, found]
  change (Stop.ofLookup (arena.shape expr.form) >>= _) = _
  rw [resolved]
  rfl

/-- What an evaluation that ends asks for ends one level below. -/
theorem Ends.asked {expr : Expr} {shape : Shape} (ends : arena.Ends (length + 1) id)
    (found : arena.expr id = .ok expr) (resolved : arena.shape expr.form = .ok shape)
    {child : ExprId} (isAsked : child ∈ shape.asked (arena.evaluateWithin length)) :
    arena.Ends length child := by
  intro endless
  apply ends
  rw [evaluateWithin_succ found resolved]
  exact evaluateShape_of_asked_error expr.location isAsked endless

/-- A longer bound changes nothing once an evaluation ends. -/
theorem Ends.evaluateWithin_eq (ends : arena.Ends length id) (bound : length ≤ longer) :
    arena.evaluateWithin longer id = arena.evaluateWithin length id := by
  induction length generalizing longer id with
  | zero => exact absurd rfl ends
  | succ length ih =>
      obtain ⟨longer, rfl⟩ : ∃ shorter, longer = shorter + 1 := ⟨longer - 1, by omega⟩
      cases found : arena.expr id with
      | error fault => rw [evaluateWithin_missing found, evaluateWithin_missing found]
      | ok expr =>
          cases resolved : arena.shape expr.form with
          | error fault =>
              rw [evaluateWithin_unresolved found resolved,
                evaluateWithin_unresolved found resolved]
          | ok shape =>
              rw [evaluateWithin_succ found resolved, evaluateWithin_succ found resolved]
              apply evaluateShape_of_asked
              intro child isAsked
              exact ih (ends.asked found resolved isAsked) (by omega)

theorem Ends.mono (ends : arena.Ends length id) (bound : length ≤ longer) :
    arena.Ends longer id := by
  unfold Ends
  rw [ends.evaluateWithin_eq bound]
  exact ends

/-! ### The tables bound evaluations that end -/

/-- The length is the least bound within which the evaluation ends. -/
def Takes (arena : Arena) (length : Nat) (id : ExprId) : Prop :=
  arena.Ends length id ∧ ∀ shorter < length, ¬ arena.Ends shorter id

theorem Takes.unique (takes : arena.Takes length id) (other : arena.Takes longer id) :
    length = longer := by
  rcases Nat.lt_trichotomy length longer with less | same | more
  · exact absurd takes.1 (other.2 length less)
  · exact same
  · exact absurd other.1 (takes.2 longer more)

private theorem Ends.exists_takes (ends : arena.Ends length id) :
    ∃ least ≤ length, arena.Takes least id := by
  classical
  have some : ∃ bound, arena.Ends bound id := ⟨length, ends⟩
  refine ⟨Nat.find some, Nat.find_min' some ends, Nat.find_spec some, ?_⟩
  intro shorter less
  exact Nat.find_min some less

private theorem Takes.below (takes : arena.Takes (length + 2) id) :
    id.index.toNat < arena.exprs.size ∧ ∃ child, arena.Takes (length + 1) child := by
  obtain ⟨ends, least⟩ := takes
  have endless : ¬ arena.Ends (length + 1) id := least (length + 1) (Nat.lt_succ_self _)
  cases found : arena.expr id with
  | error fault =>
      apply absurd _ endless
      unfold Ends at ends ⊢
      rw [evaluateWithin_missing found] at ends ⊢
      exact ends
  | ok expr =>
      have stored : id.index.toNat < arena.exprs.size := by
        by_contra outside
        rw [Arena.expr, Array.getElem?_eq_none (Nat.le_of_not_lt outside)] at found
        cases found
      refine ⟨stored, ?_⟩
      cases resolved : arena.shape expr.form with
      | error fault =>
          apply absurd _ endless
          unfold Ends at ends ⊢
          rw [evaluateWithin_unresolved found resolved] at ends ⊢
          exact ends
      | ok shape =>
          by_contra noChild
          -- otherwise all that is asked for ends one step earlier, and so does the node itself
          apply endless
          unfold Ends
          rw [evaluateWithin_succ found resolved]
          have agree : ∀ child ∈ shape.asked (arena.evaluateWithin (length + 1)),
              arena.evaluateWithin length child = arena.evaluateWithin (length + 1) child := by
            intro child isAsked
            have endsThere := ends.asked found resolved isAsked
            have endsEarlier : arena.Ends length child := by
              by_contra later
              apply noChild
              refine ⟨child, endsThere, ?_⟩
              intro shorter less endsShorter
              exact later (endsShorter.mono (Nat.le_of_lt_succ less))
            exact (endsEarlier.evaluateWithin_eq (Nat.le_succ length)).symm
          rw [evaluateShape_of_asked expr.location agree, ← evaluateWithin_succ found resolved]
          exact ends

private theorem Takes.exists_of_le (takes : arena.Takes (length + 1) id) {steps : Nat}
    (bound : steps ≤ length) : ∃ node, arena.Takes (steps + 1) node := by
  induction length generalizing id with
  | zero =>
      cases Nat.le_zero.mp bound
      exact ⟨id, takes⟩
  | succ length ih =>
      rcases Nat.lt_or_eq_of_le bound with less | rfl
      · obtain ⟨_, child, below⟩ := takes.below
        exact ih below (Nat.le_of_lt_succ less)
      · exact ⟨id, takes⟩

private theorem Takes.le_size (takes : arena.Takes (length + 1) id) :
    length ≤ arena.exprs.size := by
  -- The nodes met one below the other take different numbers of steps, so they are different.
  have reached : ∀ steps : Nat, ∃ index, steps < length →
      index < arena.exprs.size ∧ ∃ node : ExprId, node.index.toNat = index ∧
        arena.Takes (steps + 2) node := by
    intro steps
    by_cases inside : steps < length
    · obtain ⟨node, takesThere⟩ := takes.exists_of_le (Nat.succ_le_of_lt inside)
      exact ⟨node.index.toNat, fun _ => ⟨takesThere.below.1, node, rfl, takesThere⟩⟩
    · exact ⟨0, fun inside' => absurd inside' inside⟩
  choose index reaches using reached
  have counted := Finset.card_le_card_of_injOn index
    (s := Finset.range length) (t := Finset.range arena.exprs.size) ?_ ?_
  · rw [Finset.card_range, Finset.card_range] at counted
    exact counted
  · intro steps member
    exact Finset.mem_coe.mpr (Finset.mem_range.mpr
      (reaches steps (Finset.mem_range.mp (Finset.mem_coe.mp member))).1)
  · intro first memberFirst second memberSecond same
    obtain ⟨_, firstNode, atFirst, takesFirst⟩ :=
      reaches first (Finset.mem_range.mp (Finset.mem_coe.mp memberFirst))
    obtain ⟨_, secondNode, atSecond, takesSecond⟩ :=
      reaches second (Finset.mem_range.mp (Finset.mem_coe.mp memberSecond))
    have sameNode : firstNode = secondNode := by
      rw [ExprId.mk.injEq, ← UInt32.toNat_inj, atFirst, atSecond]
      exact same
    rw [sameNode] at takesFirst
    exact Nat.add_right_cancel (takesFirst.unique takesSecond)

/-- An evaluation that ends within any bound has the outcome that the bound of the tables gives. -/
theorem Ends.evaluate_eq (ends : arena.Ends length id) :
    arena.evaluateWithin length id = arena.evaluate (.expr id) := by
  obtain ⟨least, fewer, takes⟩ := ends.exists_takes
  cases least with
  | zero => exact absurd rfl takes.1
  | succ least =>
      have enough : least + 1 ≤ arena.pathBound := by
        have bounded := takes.le_size
        unfold pathBound
        omega
      rw [evaluate, takes.1.evaluateWithin_eq fewer, takes.1.evaluateWithin_eq enough]

end Arena
end TigerTree
