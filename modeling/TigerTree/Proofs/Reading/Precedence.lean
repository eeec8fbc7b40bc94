import TigerTree.Proofs.Reading.RoundTrip
import TigerTree.Proofs.Reading.Spelled
import TigerTree.Proofs.Rendering.Violations

/-! Expressions as the language groups them. Products bind tighter than sums and sums tighter than
comparisons, the last branch of a conditional is as long as possible, and a sequence of one element
stands for the element. So read, the text of an arithmetic tree shows the tree again, but for an
operator whose left operand is a conditional: it goes to the last branch of the conditional. -/

set_option autoImplicit false

namespace TigerTree

/-- Operators that bind looser have the greater number. -/
def Operator.looseness : Operator → Nat
  | .mul | .div => 0
  | .add | .sub => 1
  | .eq | .lt | .gt | .le | .ge => 2

def Tree.ofElements (first : Tree) : List Tree → Tree
  | [] => first
  | second :: others => .node (.sequence Location.dummy (first :: second :: others))

namespace Reader

/-- Goes on from a left operand with operators of one looseness, which group to the left. -/
def chain (item : Reader Tree) (looseness : Nat) : Nat → Tree → Reader Tree
  | 0, left, tokens => some (left, tokens)
  | fuel + 1, left, tokens =>
      match operator tokens with
      | some (found, rest) =>
          if found.looseness = looseness then do
            let (right, rest) ← item rest
            chain item looseness fuel (.node (.binary Location.dummy found left right)) rest
          else some (left, tokens)
      | none => some (left, tokens)

/-- Items with operators between them whose looseness is below the given one. -/
def operation (item : Reader Tree) : Nat → Reader Tree
  | 0, tokens => item tokens
  | looseness + 1, tokens => do
      let (left, rest) ← operation item looseness tokens
      chain (operation item looseness) looseness rest.length left rest

def enclosed (below : Reader Tree) : Reader Tree := fun tokens => do
  let (first, rest) ← below tokens
  let (others, rest) ← more below ';' rest.length rest
  let (_, rest) ← expect (.symbol ')') rest
  some (Tree.ofElements first others, rest)

def operand (below : Reader Tree) : Reader Tree
  | .number digits :: rest => number false digits rest
  | .symbol '-' :: .number digits :: rest => number true digits rest
  | .symbol '(' :: rest => enclosed below rest
  | .keyword "if" :: rest => ifThenElse (fun _ => below) rest
  | _ => none

/-- Reads an expression. Every level of nesting uses a token. -/
def grouped : Nat → Reader Tree
  | 0, _ => none
  | fuel + 1, tokens => operation (operand (grouped fuel)) 3 tokens

end Reader

def readExpression (text : String) : Option Tree :=
  match Reader.grouped (lex text.toList).length (lex text.toList) with
  | some (tree, []) => some tree
  | _ => none

/-- An operator and its right operand, which are still to be given their left operand. -/
abbrev Pending := Option (Operator × Tree)

def Pending.applied (left : Tree) : Pending → Tree
  | none => left
  | some (operator, right) => .node (.binary Location.dummy operator left right)

/-- The layer in front of a pending operation, which a conditional hands on to its last branch. -/
def Layer.regroup : Layer (Pending → Tree) → Pending → Tree
  | .int _ value, pending => pending.applied (.node (.int Location.dummy value))
  | .binary _ operator left right, pending => pending.applied (left (some (operator, right none)))
  | .sequence _ (first :: others), pending =>
      pending.applied (.ofElements (first none) (others.map (fun element => element none)))
  | .ifThenElse _ condition thenBranch elseBranch, pending =>
      .node (.ifThenElse Location.dummy (condition none) (thenBranch none) (elseBranch pending))
  | layer, pending => pending.applied (.node (layer.map (fun child => child none)).surface)

def Tree.regroup (tree : Tree) : Pending → Tree :=
  tree.fold Layer.regroup

theorem Tree.regroup_node (layer : Layer Tree) :
    (Tree.node layer).regroup = (layer.map Tree.regroup).regroup :=
  Tree.fold_node _ layer

/-- The tree as its text is read. -/
def Tree.regrouped (tree : Tree) : Tree := tree.regroup none

theorem Tree.regroup_binary (location : Location) (operator : Operator) (left right : Tree)
    (pending : Pending) :
    (Tree.node (.binary location operator left right)).regroup pending =
      pending.applied (left.regroup (some (operator, right.regrouped))) := by
  rw [regroup_node]
  rfl

theorem Tree.regroup_sequence (location : Location) (first : Tree) (others : List Tree)
    (pending : Pending) :
    (Tree.node (.sequence location (first :: others))).regroup pending =
      pending.applied (.ofElements first.regrouped (others.map Tree.regrouped)) := by
  rw [regroup_node]
  simp only [Layer.map, List.map_cons, Layer.regroup, List.map_map]
  rfl

theorem Tree.regroup_ifThenElse (location : Location) (condition thenBranch elseBranch : Tree)
    (pending : Pending) :
    (Tree.node (.ifThenElse location condition thenBranch elseBranch)).regroup pending =
      .node (.ifThenElse Location.dummy condition.regrouped thenBranch.regrouped
        (elseBranch.regroup pending)) := by
  rw [regroup_node]
  rfl

/-! ### Arithmetic trees -/

section

variable {Child Other : Type}

/-- An integer, an operation, a sequence with elements or a conditional. -/
def Layer.isArithmetic : Layer Child → Bool
  | .int _ _ | .binary _ _ _ _ | .sequence _ (_ :: _) | .ifThenElse _ _ _ _ => true
  | _ => false

theorem Layer.isArithmetic_map (change : Child → Other) (layer : Layer Child) :
    (layer.map change).isArithmetic = layer.isArithmetic := by
  cases layer with
  | sequence location elements => cases elements <;> rfl
  | _ => rfl

theorem Layer.isWellNamed_of_isArithmetic {layer : Layer Child} (arithmetic : layer.isArithmetic) :
    layer.isWellNamed := by
  cases layer with
  | int _ _ | binary _ _ _ _ | sequence _ _ | ifThenElse _ _ _ _ => rfl
  | _ => cases arithmetic

theorem Layer.violation?_of_isArithmetic {layer : Layer Child} (arithmetic : layer.isArithmetic) :
    layer.violation? = none := by
  cases layer with
  | sequence location elements =>
      cases elements with
      | nil => cases arithmetic
      | cons first others => rfl
  | int _ _ | binary _ _ _ _ | ifThenElse _ _ _ _ => rfl
  | _ => cases arithmetic

theorem Layer.isReadable_of_isArithmetic {layer : Layer Child} (arithmetic : layer.isArithmetic) :
    layer.isReadable false := by
  cases layer with
  | int _ _ | binary _ _ _ _ | sequence _ _ | ifThenElse _ _ _ _ => rfl
  | _ => cases arithmetic

end

inductive Arithmetic : Tree → Prop
  | int (location : Location) (value : Int32) : Arithmetic (.node (.int location value))
  | binary (location : Location) (operator : Operator) {left right : Tree}
      (onLeft : Arithmetic left) (onRight : Arithmetic right) :
      Arithmetic (.node (.binary location operator left right))
  | sequence (location : Location) (first : Tree) (others : List Tree)
      (elements : ∀ element ∈ first :: others, Arithmetic element) :
      Arithmetic (.node (.sequence location (first :: others)))
  | ifThenElse (location : Location) {condition thenBranch elseBranch : Tree}
      (onCondition : Arithmetic condition) (onThen : Arithmetic thenBranch)
      (onElse : Arithmetic elseBranch) :
      Arithmetic (.node (.ifThenElse location condition thenBranch elseBranch))

theorem arithmetic_of_throughout {tree : Tree}
    (arithmetic : tree.Throughout (fun layer => layer.isArithmetic)) : Arithmetic tree := by
  induction arithmetic with
  | node layer here below ih =>
      cases layer with
      | int location value => exact .int location value
      | binary location operator left right =>
          exact .binary location operator (ih left List.mem_cons_self)
            (ih right (.tail _ List.mem_cons_self))
      | sequence location elements =>
          cases elements with
          | nil => cases here
          | cons first others => exact .sequence location first others ih
      | ifThenElse location condition thenBranch elseBranch =>
          exact .ifThenElse location (ih condition List.mem_cons_self)
            (ih thenBranch (.tail _ List.mem_cons_self))
            (ih elseBranch (.tail _ (.tail _ List.mem_cons_self)))
      | _ => cases here

theorem Arithmetic.legible {tree : Tree} (arithmetic : Arithmetic tree) :
    Legible .expression tree := by
  induction arithmetic with
  | int location value => exact .int location value
  | binary location operator _ _ left right => exact .binary location operator left right
  | sequence location first others _ elements => exact .sequence location first others elements
  | ifThenElse location _ _ _ condition thenBranch elseBranch =>
      exact .ifThenElse location condition thenBranch elseBranch

namespace Reader

section

variable {item : Reader Tree} {left right : Tree} {tokens behind rest : List Token}
  {found : Operator}

theorem chain_of_ends (looseness fuel : Nat) (ends : operator rest = none) :
    chain item looseness fuel left rest = some (left, rest) := by
  cases fuel with
  | zero => rfl
  | succ fuel => simp only [chain, ends]

/-- An item before an operator that is too loose is read alone. -/
theorem operation_of_loose (reads : item tokens = some (left, rest)) {looseness : Nat}
    (loose : ∀ next more, operator rest = some (next, more) → looseness ≤ next.looseness) :
    operation item looseness tokens = some (left, rest) := by
  induction looseness with
  | zero => exact reads
  | succ looseness ih =>
      have alone := ih (fun next more isNext => Nat.le_of_succ_le (loose next more isNext))
      rw [operation, alone]
      change chain (operation item looseness) looseness rest.length left rest = _
      cases fuel : rest.length with
      | zero => rfl
      | succ fuel =>
          cases isNext : operator rest with
          | none => simp only [chain, isNext]
          | some next =>
              have different : next.1.looseness ≠ looseness :=
                Nat.ne_of_gt (loose next.1 next.2 isNext)
              simp only [chain, isNext, if_neg different]

/-- Two items with a tight operator between them are read as one operation. -/
theorem operation_of_tight (reads : item tokens = some (left, behind))
    (isOperator : operator behind = some (found, rest)) {finish : List Token}
    (readsRight : item rest = some (right, finish)) (ends : operator finish = none)
    {looseness : Nat} (tight : found.looseness < looseness) :
    operation item looseness tokens =
      some (.node (.binary Location.dummy found left right), finish) := by
  induction looseness with
  | zero => cases tight
  | succ looseness ih =>
      rcases Nat.lt_succ_iff_lt_or_eq.mp tight with tighter | isHere
      · rw [operation, ih tighter]
        exact chain_of_ends looseness finish.length ends
      · have readLeft : operation item looseness tokens = some (left, behind) := by
          refine operation_of_loose reads ?_
          intro next more isNext
          rw [isOperator] at isNext
          cases isNext
          exact Nat.le_of_eq isHere.symm
        have readRight : operation item looseness rest = some (right, finish) := by
          refine operation_of_loose readsRight ?_
          intro next more isNext
          rw [ends] at isNext
          cases isNext
        rw [operation, readLeft]
        change chain (operation item looseness) looseness behind.length left behind = _
        cases behind with
        | nil => cases isOperator
        | cons token behind =>
            simp only [List.length_cons, chain, isOperator, if_pos isHere, readRight,
              Option.bind_eq_bind, Option.bind_some]
            exact chain_of_ends looseness behind.length ends

end
end Reader

/-- Behind an expression the tokens go on with the pending operation, up to the rest. -/
inductive Continues : Pending → List Token → List Token → Prop
  | nothing (rest : List Token) : Continues none rest rest
  | operation {operator : Operator} {right : Tree} {tokens behind rest : List Token}
      (isOperator : Reader.operator tokens = some (operator, behind))
      (shorter : behind.length ≤ tokens.length)
      (reads : ∀ fuel, behind.length ≤ fuel + 1 →
        Reader.operand (Reader.grouped fuel) behind = some (right, rest)) :
      Continues (some (operator, right)) tokens rest

/-- The tokens of the tree are read as the regrouped tree. As an operand it ends where its tokens
end, or it takes what is pending with it. -/
def Tree.ReadsRegrouped (tree : Tree) : Prop :=
  ∀ pending tokens rest, Continues pending tokens rest → Reader.operator rest = none →
    ∀ fuel, (tree.tokens ++ tokens).length ≤ fuel + 1 →
      (Reader.operand (Reader.grouped fuel) (tree.tokens ++ tokens) =
          some (tree.regrouped, tokens) ∧
        tree.regroup pending = pending.applied tree.regrouped) ∨
      Reader.operand (Reader.grouped fuel) (tree.tokens ++ tokens) =
        some (tree.regroup pending, rest)

namespace Tree.ReadsRegrouped

variable {tree : Tree} {tokens rest : List Token}

theorem operand (reads : tree.ReadsRegrouped) (ends : Reader.operator rest = none) {fuel : Nat}
    (enough : (tree.tokens ++ rest).length ≤ fuel + 1) :
    Reader.operand (Reader.grouped fuel) (tree.tokens ++ rest) = some (tree.regrouped, rest) := by
  rcases reads none rest rest (.nothing rest) ends fuel enough with ⟨isOperand, _⟩ | isOperand
  · exact isOperand
  · exact isOperand

theorem grouped (reads : tree.ReadsRegrouped) {pending : Pending}
    (continues : Continues pending tokens rest) (ends : Reader.operator rest = none) {fuel : Nat}
    (enough : (tree.tokens ++ tokens).length ≤ fuel) :
    Reader.grouped fuel (tree.tokens ++ tokens) = some (tree.regroup pending, rest) := by
  have outcome := fun fuel enough => reads pending tokens rest continues ends fuel enough
  cases fuel with
  | zero =>
      have nothing : tree.tokens ++ tokens = [] :=
        List.length_eq_zero_iff.mp (Nat.le_zero.mp enough)
      rcases outcome 0 (Nat.le_succ_of_le enough) with ⟨isOperand, _⟩ | isOperand
      · rw [nothing] at isOperand
        cases isOperand
      · rw [nothing] at isOperand
        cases isOperand
  | succ fuel =>
      have alone {left : Tree} (isOperand : Reader.operand (Reader.grouped fuel)
          (tree.tokens ++ tokens) = some (left, rest)) :
          Reader.grouped (fuel + 1) (tree.tokens ++ tokens) = some (left, rest) := by
        refine Reader.operation_of_loose isOperand ?_
        intro next more isNext
        rw [ends] at isNext
        cases isNext
      rcases outcome fuel enough with ⟨isOperand, isApplied⟩ | isOperand
      · rw [isApplied]
        cases continues with
        | nothing => exact alone isOperand
        | operation isOperator shorter readsRight =>
            refine Reader.operation_of_tight isOperand isOperator (readsRight fuel ?_) ends ?_
            · rw [List.length_append] at enough
              omega
            · rename_i found _ _
              cases found <;> decide
      · exact alone isOperand

end Tree.ReadsRegrouped

/-! ### Reading trees -/

section

variable {left right condition thenBranch elseBranch : Tree}

private theorem operator_operand (operator : Operator) (arithmetic : Arithmetic right)
    (rest : List Token) :
    Reader.operator (operator.tokens ++ (right.tokens ++ rest)) =
      some (operator, right.tokens ++ rest) := by
  obtain ⟨token, more, starts, _, notEquals, _⟩ := arithmetic.legible.begins
  apply read_operator
  rw [starts]
  exact fun same => notEquals (Option.some.inj same)

private theorem regroups_int (location : Location) (value : Int32) :
    (Tree.node (.int location value)).ReadsRegrouped := by
  intro pending tokens rest continues ends fuel enough
  have numeral : (Tree.node (.int location value)).tokens = lex (toString value.toInt).toList := by
    rw [Tree.tokens_node]
    exact List.append_nil _
  have spelled := lex_number value.toInt breaks_nil
  rw [List.append_nil] at spelled
  have back : Int32.ofInt value.toInt = value := Int32.ofInt_toInt value
  refine .inl ⟨?_, rfl⟩
  rw [numeral, spelled]
  cases isValue : value.toInt with
  | ofNat magnitude =>
      rw [isValue] at back
      have read := read_number false magnitude tokens
      rw [← back]
      exact read
  | negSucc magnitude =>
      rw [isValue] at back
      have read := read_number true (magnitude + 1) tokens
      rw [← back]
      exact read

private theorem regroups_binary (location : Location) (operator : Operator)
    (arithmetic : Arithmetic right) (readsLeft : left.ReadsRegrouped)
    (readsRight : right.ReadsRegrouped) :
    (Tree.node (.binary location operator left right)).ReadsRegrouped := by
  intro pending tokens rest continues ends fuel enough
  refine .inl ⟨?_, by simp only [Tree.regrouped, Tree.regroup_binary]; rfl⟩
  rw [tokens_binary] at enough ⊢
  simp only [List.cons_append, List.append_assoc, List.nil_append, List.length_cons,
    List.length_append] at enough ⊢
  have goesOn : Continues (some (operator, right.regrouped))
      (operator.tokens ++ (right.tokens ++ .symbol ')' :: tokens)) (.symbol ')' :: tokens) := by
    refine .operation (operator_operand operator arithmetic _) (by simp) ?_
    intro fuel enough
    exact readsRight.operand rfl enough
  have read : Reader.grouped fuel _ = _ := readsLeft.grouped goesOn rfl
    (by simp only [List.length_append, List.length_cons]; omega)
  change Reader.enclosed (Reader.grouped fuel) _ = _
  simp only [Reader.enclosed, read, Option.bind_eq_bind, Option.bind_some]
  exact congrArg (fun shown => some (shown, tokens))
    (Tree.regroup_binary location operator left right none).symm

private theorem operator_tokensAfter (others : List Tree) (rest : List Token) :
    Reader.operator (Tree.tokensAfter ';' others ++ .symbol ')' :: rest) = none := by
  cases others <;> rfl

private theorem regroups_more {others : List Tree}
    (reads : ∀ element ∈ others, element.ReadsRegrouped) {count : Nat}
    (room : others.length ≤ count) {fuel : Nat} (rest : List Token)
    (enough : (Tree.tokensAfter ';' others ++ .symbol ')' :: rest).length ≤ fuel) :
    Reader.more (Reader.grouped fuel) ';' count
        (Tree.tokensAfter ';' others ++ .symbol ')' :: rest) =
      some (others.map Tree.regrouped, .symbol ')' :: rest) := by
  induction others generalizing count with
  | nil => cases count <;> rfl
  | cons first others ih =>
      obtain ⟨count, rfl⟩ : ∃ less, count = less + 1 := ⟨count - 1, by simp at room; omega⟩
      have shape : Tree.tokensAfter ';' (first :: others) ++ .symbol ')' :: rest =
          .symbol ';' ::
            (first.tokens ++ (Tree.tokensAfter ';' others ++ .symbol ')' :: rest)) := by
        simp [Tree.tokensAfter]
      rw [shape, List.length_cons] at enough
      have readFirst : Reader.grouped fuel _ = some (first.regrouped, _) :=
        (reads first List.mem_cons_self).grouped (.nothing _) (operator_tokensAfter others rest)
          (Nat.le_of_succ_le enough)
      rw [List.length_append] at enough
      have readOthers := ih (fun element member => reads element (.tail _ member))
        (Nat.le_of_succ_le_succ room) (by omega)
      rw [shape, Reader.more, List.head?_cons, if_pos rfl]
      simp only [List.tail_cons, readFirst, readOthers, Option.bind_eq_bind, Option.bind_some,
        List.map_cons]

private theorem regroups_sequence (location : Location) (first : Tree) (others : List Tree)
    (reads : ∀ element ∈ first :: others, element.ReadsRegrouped) :
    (Tree.node (.sequence location (first :: others))).ReadsRegrouped := by
  intro pending tokens rest continues ends fuel enough
  refine .inl ⟨?_, by simp only [Tree.regrouped, Tree.regroup_sequence]; rfl⟩
  rw [tokens_sequence] at enough ⊢
  simp only [List.cons_append, List.append_assoc, List.nil_append, List.length_cons,
    List.length_append] at enough ⊢
  have readFirst : Reader.grouped fuel _ = some (first.regrouped, _) :=
    (reads first List.mem_cons_self).grouped (.nothing _) (operator_tokensAfter others tokens)
      (by simp only [List.length_append, List.length_cons]; omega)
  have room : others.length ≤ (Tree.tokensAfter ';' others ++ .symbol ')' :: tokens).length := by
    have bound := (@Tree.length_le_tokensAfter ';' others).2
    rw [List.length_append]
    omega
  have readOthers : Reader.more (Reader.grouped fuel) ';' _ _ = _ :=
    regroups_more (fun element member => reads element (.tail first member)) room tokens
      (by simp only [List.length_append, List.length_cons]; omega)
  change Reader.enclosed (Reader.grouped fuel) _ = _
  simp only [Reader.enclosed, readFirst, readOthers, expect_here, Option.bind_eq_bind,
    Option.bind_some]
  exact congrArg (fun shown => some (shown, tokens))
    (Tree.regroup_sequence location first others none).symm

private theorem regroups_ifThenElse (location : Location)
    (readsCondition : condition.ReadsRegrouped) (readsThen : thenBranch.ReadsRegrouped)
    (readsElse : elseBranch.ReadsRegrouped) :
    (Tree.node (.ifThenElse location condition thenBranch elseBranch)).ReadsRegrouped := by
  -- What is pending goes into the last branch.
  intro pending tokens rest continues ends fuel enough
  refine .inr ?_
  rw [tokens_ifThenElse] at enough ⊢
  simp only [List.cons_append, List.append_assoc, List.length_cons, List.length_append]
    at enough ⊢
  have first : Reader.grouped fuel _ = some (condition.regrouped, .keyword "then" :: _) :=
    readsCondition.grouped (.nothing (.keyword "then" ::
      (thenBranch.tokens ++ .keyword "else" :: (elseBranch.tokens ++ tokens)))) rfl
      (by simp only [List.length_append, List.length_cons]; omega)
  have second : Reader.grouped fuel _ = some (thenBranch.regrouped, .keyword "else" :: _) :=
    readsThen.grouped (.nothing (.keyword "else" :: (elseBranch.tokens ++ tokens))) rfl
      (by simp only [List.length_append, List.length_cons]; omega)
  have third : Reader.grouped fuel _ = _ := readsElse.grouped continues ends
    (by simp only [List.length_append]; omega)
  change Reader.ifThenElse (fun _ => Reader.grouped fuel) _ = _
  simp only [Reader.ifThenElse, first, second, third, expect_here, Option.bind_eq_bind,
    Option.bind_some, Tree.regroup_ifThenElse]

end

theorem Arithmetic.readsRegrouped {tree : Tree} (arithmetic : Arithmetic tree) :
    tree.ReadsRegrouped := by
  induction arithmetic with
  | int location value => exact regroups_int location value
  | binary location operator _ onRight left right =>
      exact regroups_binary location operator onRight left right
  | sequence location first others _ elements =>
      exact regroups_sequence location first others elements
  | ifThenElse location _ _ _ condition thenBranch elseBranch =>
      exact regroups_ifThenElse location condition thenBranch elseBranch

theorem Arena.arithmetic_unfold {arena : Arena} {root : NodeId} (acyclic : arena.Acyclic root)
    (arithmetic : arena.Throughout (fun layer => layer.isArithmetic) root) :
    Arithmetic (arena.unfold root) := by
  refine arithmetic_of_throughout (throughout_unfold ?_ acyclic arithmetic)
  intro layer change holds
  rw [Layer.isArithmetic_map]
  exact holds

/-- The text of an arithmetic tree shows the tree, regrouped. -/
theorem readExpression_of_render {arena : Arena} {root : NodeId} {indentSize : UInt64}
    {text : String} (acyclic : arena.Acyclic root)
    (arithmetic : arena.Throughout (fun layer => layer.isArithmetic) root)
    (rendered : arena.render ⟨indentSize, false⟩ root = .ok text) :
    readExpression text = some (arena.unfold root).regrouped := by
  have wellNamed := Arena.wellNamed_unfold acyclic
    (fun node reached => Layer.isWellNamed_of_isArithmetic (arithmetic node reached))
  obtain ⟨complete, rfl⟩ := spell_of_render rfl rendered
  have tokens := @Tree.lex_passage indentSize _ wellNamed complete 0 [] breaks_nil
  have reads := (Arena.arithmetic_unfold acyclic arithmetic).readsRegrouped
  have read := reads.grouped (.nothing []) rfl (Nat.le_refl _)
  rw [List.append_nil] at tokens read
  rw [lex_nil, List.append_nil] at tokens
  rw [readExpression, String.toList_ofList, tokens, read]
  rfl

end TigerTree
