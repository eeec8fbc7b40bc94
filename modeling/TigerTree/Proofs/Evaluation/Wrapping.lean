import Mathlib.Data.Int.ModEq
import TigerTree.Proofs.Evaluation.Meaning

/-! Integers that wrap. A tree of literals, sums, differences and products also has a value over the
unbounded integers. Bringing an integer back into the range of a word respects the three operations,
so it does not matter whether that is done after each of them or once at the end. -/

set_option autoImplicit false

namespace TigerTree

variable {Child Other : Type}

def Operator.isPolynomial : Operator → Bool
  | .add | .sub | .mul => true
  | _ => false

/-- An integer literal, a sum, a difference, a product or a sequence with elements. -/
def Layer.isPolynomial : Layer Child → Bool
  | .int _ _ => true
  | .binary _ operator _ _ => operator.isPolynomial
  | .sequence _ elements => !elements.isEmpty
  | _ => false

theorem Layer.isPolynomial_map (change : Child → Other) (layer : Layer Child) :
    (layer.map change).isPolynomial = layer.isPolynomial := by
  cases layer with
  | sequence location elements => cases elements <;> rfl
  | _ => rfl

/-- The operation on integers without bounds; only that of the three operators is asked for. -/
def Operator.exact (operator : Operator) (left right : Int) : Int :=
  match operator with
  | .add => left + right
  | .sub => left - right
  | .mul => left * right
  | _ => 0

/-- The unbounded value of a node whose children have theirs. A sequence stands for its last
element; nodes that are not polynomial have no value, and 0 stands in for it. -/
def Layer.exactValue : Layer Int → Int
  | .int _ value => value.toInt
  | .binary _ operator left right => operator.exact left right
  | .sequence _ elements => elements.getLast?.getD 0
  | _ => 0

def Tree.exactValue (tree : Tree) : Int :=
  tree.fold Layer.exactValue

theorem Tree.exactValue_node (layer : Layer Tree) :
    (Tree.node layer).exactValue = (layer.map Tree.exactValue).exactValue :=
  Tree.fold_node _ layer

theorem wrapped_toInt (value : Int32) : wrapped value.toInt = value.toInt :=
  Int32.toInt_bmod value

theorem onIntegers?_wrapped {operator : Operator} (polynomial : operator.isPolynomial)
    (left right : Int) :
    operator.onIntegers? (wrapped left) (wrapped right) =
      some (wrapped (operator.exact left right)) := by
  cases operator with
  | add =>
      have sums : wrapped (wrapped left + wrapped right) = wrapped (left + right) := by
        unfold wrapped
        rw [Int.bmod_add_bmod, Int.add_bmod_bmod]
      exact congrArg some sums
  | sub =>
      have differences : wrapped (wrapped left - wrapped right) = wrapped (left - right) := by
        unfold wrapped
        rw [Int.bmod_sub_bmod, Int.sub_bmod_bmod]
      exact congrArg some differences
  | mul =>
      have products : wrapped (wrapped left * wrapped right) = wrapped (left * right) := by
        unfold wrapped
        rw [Int.bmod_mul_bmod, Int.mul_bmod_bmod]
      exact congrArg some products
  | _ => cases polynomial

private theorem lastOf_map_ok (location : Location) (first : Int) (rest : List Int) :
    Meaning.lastOf location ((first :: rest).map Except.ok) =
      .ok ((first :: rest).getLast?.getD 0) := by
  induction rest generalizing first with
  | nil => rfl
  | cons next rest ih => exact ih next

/-- One step of the meaning, where all children have wrapped values. -/
theorem Layer.meaning_of_polynomial {layer : Layer Int} (polynomial : layer.isPolynomial) :
    (layer.map (fun exact => (.ok (wrapped exact) : Meaning))).meaning =
      .ok (wrapped layer.exactValue) := by
  cases layer with
  | int location value =>
      change Except.ok value.toInt = _
      rw [exactValue, wrapped_toInt]
  | binary location operator left right =>
      simp only [map, meaning, bind, Except.bind]
      rw [onIntegers?_wrapped polynomial]
      rfl
  | sequence location elements =>
      cases elements with
      | nil => cases polynomial
      | cons first rest =>
          have last := lastOf_map_ok location (wrapped first) (rest.map wrapped)
          rw [← List.map_cons, List.map_map, List.getLast?_map] at last
          rw [map, meaning, exactValue]
          refine last.trans ?_
          cases isLast : (first :: rest).getLast? with
          | none => exact absurd (List.getLast?_eq_none_iff.mp isLast) (List.cons_ne_nil _ _)
          | some value => rfl
  | _ => cases polynomial

/-- A polynomial tree means its unbounded value, wrapped once. -/
theorem Tree.meaning_of_polynomial {tree : Tree}
    (polynomial : tree.Throughout (fun layer => layer.isPolynomial)) :
    tree.meaning = .ok (wrapped tree.exactValue) := by
  induction polynomial with
  | node layer here below ih =>
      have children : layer.map meaning =
          (layer.map exactValue).map (fun exact => (.ok (wrapped exact) : Meaning)) := by
        rw [Layer.map_map]
        exact Layer.map_congr layer ih
      rw [meaning, fold_node, exactValue_node]
      rw [← Layer.isPolynomial_map exactValue] at here
      exact (congrArg Layer.meaning children).trans (Layer.meaning_of_polynomial here)

theorem wrapped_eq_iff (first second : Int) :
    wrapped first = wrapped second ↔ first ≡ second [ZMOD 2 ^ 32] := by
  have size : ((UInt32.size : Nat) : Int) = 2 ^ 32 := rfl
  rw [Int.ModEq, ← size]
  constructor
  · intro same
    rw [← Int.bmod_emod, ← Int.bmod_emod (x := second)]
    exact congrArg (· % (UInt32.size : Int)) same
  · intro same
    rw [wrapped, wrapped, ← Int.emod_bmod, same, Int.emod_bmod]

namespace Arena

variable {arena : Arena} {root : NodeId}

theorem evaluate_of_polynomial (acyclic : arena.Acyclic root)
    (polynomial : arena.Throughout (fun layer => layer.isPolynomial) root) :
    ∃ value, arena.evaluate root = .ok value ∧
      value.toInt = wrapped (arena.unfold root).exactValue := by
  have onTree : (arena.unfold root).Throughout (fun layer => layer.isPolynomial) := by
    apply throughout_unfold _ acyclic polynomial
    intro layer change holds
    rw [Layer.isPolynomial_map]
    exact holds
  have isWrapped : (Int32.ofInt (arena.unfold root).exactValue).toInt =
      wrapped (arena.unfold root).exactValue :=
    Int32.toInt_ofInt
  refine ⟨_, (evaluate_eq_ok_iff_meaning acyclic _).mpr ?_, isWrapped⟩
  rw [isWrapped, Tree.meaning_of_polynomial onTree]

/-- A tree of literals, sums, differences, products and sequences has a value, and it is the one
32-bit integer that is congruent to the value over the unbounded integers, however often the
operations overflow on the way. Two such trees have the same value exactly if they are congruent
as integers, so in any case if they are equal. -/
theorem evaluate_wraps_once (acyclic : arena.Acyclic root)
    (polynomial : arena.Throughout (fun layer => layer.isPolynomial) root) :
    (∃ value, arena.evaluate root = .ok value ∧
      ∀ integer : Int, integer = value.toInt ↔
        -2 ^ 31 ≤ integer ∧ integer < 2 ^ 31 ∧
          integer ≡ (arena.unfold root).exactValue [ZMOD 2 ^ 32]) ∧
    (∀ (other : Arena) (otherRoot : NodeId), other.Acyclic otherRoot →
      other.Throughout (fun layer => layer.isPolynomial) otherRoot →
        (other.evaluate otherRoot = arena.evaluate root ↔
          (other.unfold otherRoot).exactValue ≡ (arena.unfold root).exactValue [ZMOD 2 ^ 32])) := by
  obtain ⟨value, evaluated, isWrapped⟩ := evaluate_of_polynomial acyclic polynomial
  constructor
  · refine ⟨value, evaluated, ?_⟩
    intro integer
    rw [← wrapped_eq_iff, ← isWrapped]
    constructor
    · rintro rfl
      exact ⟨value.le_toInt, value.toInt_lt, wrapped_toInt value⟩
    · rintro ⟨lower, upper, same⟩
      have inRange : wrapped integer = integer := Int.bmod_eq_of_le lower upper
      exact inRange.symm.trans same
  · intro other otherRoot acyclicToo polynomialToo
    obtain ⟨otherValue, evaluatedToo, isWrappedToo⟩ :=
      evaluate_of_polynomial acyclicToo polynomialToo
    rw [← wrapped_eq_iff, ← isWrapped, ← isWrappedToo, evaluated, evaluatedToo, Int32.toInt_inj]
    constructor
    · exact fun same => Except.ok.inj same
    · exact fun same => congrArg _ same

end Arena

/-- `(a + b) * c` and `a * c + b * c` for the largest word `a`, the word `b` next to it and the
smallest word `c`; both overflow, the one in its sum and its product, the other in all three. -/
def distributedProduct : Arena :=
  { Arena.initial with
    exprs := #[
      ⟨.int 2147483647, ⟨1, 1⟩⟩,
      ⟨.int 2147483646, ⟨1, 2⟩⟩,
      ⟨.int (-2147483648), ⟨1, 3⟩⟩,
      ⟨.binary .add ⟨0⟩ ⟨1⟩, ⟨1, 4⟩⟩,
      ⟨.sequence ⟨0, 2⟩, ⟨1, 5⟩⟩,
      ⟨.binary .mul ⟨4⟩ ⟨2⟩, ⟨1, 6⟩⟩,
      ⟨.binary .mul ⟨0⟩ ⟨2⟩, ⟨1, 7⟩⟩,
      ⟨.binary .mul ⟨1⟩ ⟨2⟩, ⟨1, 8⟩⟩,
      ⟨.binary .add ⟨6⟩ ⟨7⟩, ⟨1, 9⟩⟩]
    exprLists := #[⟨0⟩, ⟨3⟩] }

theorem evaluate_distributedProduct :
    distributedProduct.Acyclic (.expr ⟨5⟩) ∧ distributedProduct.Acyclic (.expr ⟨8⟩) ∧
      (distributedProduct.unfold (.expr ⟨5⟩)).exactValue =
        (2147483647 + 2147483646) * (-2147483648) ∧
      distributedProduct.evaluate (.expr ⟨8⟩) = distributedProduct.evaluate (.expr ⟨5⟩) ∧
      ∃ value, distributedProduct.evaluate (.expr ⟨5⟩) = .ok value ∧
        (-2147483648 : Int) = value.toInt := by
  have withinProduct : distributedProduct.Within 5 (.expr ⟨5⟩) := by decide
  have withinSum : distributedProduct.Within 5 (.expr ⟨8⟩) := by decide
  have polynomialProduct : distributedProduct.Throughout (fun layer => layer.isPolynomial)
      (.expr ⟨5⟩) :=
    Arena.throughout_of_checkWithin
      (by decide : distributedProduct.checkWithin (fun layer => layer.isPolynomial) 5 (.expr ⟨5⟩))
  have polynomialSum : distributedProduct.Throughout (fun layer => layer.isPolynomial)
      (.expr ⟨8⟩) :=
    Arena.throughout_of_checkWithin
      (by decide : distributedProduct.checkWithin (fun layer => layer.isPolynomial) 5 (.expr ⟨8⟩))
  have product : (distributedProduct.unfold (.expr ⟨5⟩)).exactValue =
      (2147483647 + 2147483646) * (-2147483648) := by decide +kernel
  have sum : (distributedProduct.unfold (.expr ⟨8⟩)).exactValue =
      2147483647 * (-2147483648) + 2147483646 * (-2147483648) := by decide +kernel
  have wraps := Arena.evaluate_wraps_once withinProduct.acyclic polynomialProduct
  have same := wraps.2 distributedProduct (.expr ⟨8⟩) withinSum.acyclic polynomialSum
  obtain ⟨value, evaluated, unique⟩ := wraps.1
  rw [product] at unique same
  rw [sum] at same
  refine ⟨withinProduct.acyclic, withinSum.acyclic, product, same.mpr (by decide), value,
    evaluated, (unique _).mpr ?_⟩
  decide

end TigerTree
