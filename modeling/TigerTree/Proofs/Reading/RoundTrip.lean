import TigerTree.Proofs.Reading.Legible

/-! Reading the tokens of a legible tree gives back its surface. The proof is by induction on the
tree, for every rest that does not go on where the tree could have gone on. -/

set_option autoImplicit false

namespace TigerTree

private theorem ofDigitChars_toString (number : Nat) :
    Nat.ofDigitChars 10 (toString number).toList 0 = number := by
  change Nat.ofDigitChars 10 number.repr.toList 0 = number
  rw [Nat.toList_repr]
  exact Nat.ofDigitChars_toDigits (by decide) (by decide)

theorem read_number (isNegative : Bool) (magnitude : Nat) (rest : List Token) :
    Reader.number isNegative (toString magnitude) rest =
      some (.node (.int Location.dummy
        (Int32.ofInt (if isNegative then -magnitude else magnitude))), rest) := by
  have digits : (toString magnitude).toList.all (·.isDigit) := by
    rw [List.all_eq_true]
    exact fun char member => isDigit_of_mem_numeral member
  simp only [Reader.number, ofDigitChars_toString, if_pos digits]

/-- The first token of a node is none that closes a list or goes on with an operator. -/
def Token.Begins (token : Token) : Prop :=
  token ≠ .symbol ')' ∧ token ≠ .symbol '=' ∧ token ≠ .keyword "in"

theorem Legible.begins {sort : NodeSort} {tree : Tree} (legible : Legible sort tree) :
    ∃ token more, tree.tokens = token :: more ∧ token.Begins := by
  cases legible with
  | int location value =>
      rw [Tree.tokens_node]
      simp only [Layer.sketch, List.flatMap_cons, List.flatMap_nil, Item.tokens, List.append_nil]
      have spelled := lex_number value.toInt breaks_nil
      rw [List.append_nil] at spelled
      rw [spelled]
      cases value.toInt with
      | ofNat magnitude => exact ⟨_, _, rfl, by simp [Token.Begins]⟩
      | negSucc magnitude => exact ⟨_, _, rfl, by simp [Token.Begins]⟩
  | parameter named isName typed =>
      rw [Tree.tokens_node]
      simp only [Layer.sketch, named, List.flatMap_cons, Item.tokens]
      exact ⟨_, _, rfl, by simp [Token.Begins]⟩
  | string location contents => exact ⟨_, _, Tree.tokens_node _, by simp [Token.Begins]⟩
  | binary location operator _ _ =>
      exact ⟨.symbol '(', _, Tree.tokens_node _, by simp [Token.Begins]⟩
  | sequence location first rest _ =>
      exact ⟨.symbol '(', _, Tree.tokens_node _, by simp [Token.Begins]⟩
  | letIn location decls first rest _ _ =>
      exact ⟨.keyword "let", _, Tree.tokens_node _, by simp [Token.Begins]⟩
  | identifier location isName site depth =>
      exact ⟨_, _, Tree.tokens_node _, by simp [Token.Begins]⟩
  | ifThenElse location _ _ _ =>
      exact ⟨.keyword "if", _, Tree.tokens_node _, by simp [Token.Begins]⟩
  | call location isName site arguments _ =>
      exact ⟨_, _, Tree.tokens_node _, by simp [Token.Begins]⟩
  | whileLoop location _ _ =>
      exact ⟨.keyword "while", _, Tree.tokens_node _, by simp [Token.Begins]⟩
  | forLoop location _ _ _ _ _ =>
      exact ⟨.keyword "for", _, Tree.tokens_node _, by simp [Token.Begins]⟩
  | breakLoop location target =>
      exact ⟨.keyword "break", _, Tree.tokens_node _, by simp [Token.Begins]⟩
  | assign location identifierLocation isName site depth _ =>
      exact ⟨_, _, Tree.tokens_node _, by simp [Token.Begins]⟩
  | varDecl _ _ _ _ => exact ⟨.keyword "var", _, Tree.tokens_node _, by simp [Token.Begins]⟩
  | funDecl _ _ _ _ _ _ _ =>
      exact ⟨.keyword "function", _, Tree.tokens_node _, by simp [Token.Begins]⟩

/-- Neither a name nor a parameter goes on into the tokens. -/
def Follows (rest : List Token) : Prop :=
  rest.head? ≠ some (.symbol '(') ∧ rest.head? ≠ some (.symbol ':')

theorem follows_cons {token : Token} {rest : List Token} (notOpen : token ≠ .symbol '(')
    (notColon : token ≠ .symbol ':') : Follows (token :: rest) :=
  ⟨fun same => notOpen (Option.some.inj same), fun same => notColon (Option.some.inj same)⟩

theorem follows_symbol {char : Char} (notOpen : char ≠ '(') (notColon : char ≠ ':')
    (rest : List Token) : Follows (.symbol char :: rest) :=
  follows_cons (fun same => notOpen (Token.symbol.inj same))
    (fun same => notColon (Token.symbol.inj same))

theorem follows_keyword (word : String) (rest : List Token) : Follows (.keyword word :: rest) :=
  follows_cons (fun same => by cases same) (fun same => by cases same)

/-- No expression goes on into a declaration. -/
theorem Legible.follows {tree : Tree} (legible : Legible .declaration tree) (rest : List Token) :
    Follows (tree.tokens ++ rest) := by
  cases legible with
  | varDecl _ _ _ _ =>
      rw [Tree.tokens_node]
      exact follows_keyword "var" _
  | parameter named isName typed =>
      rw [Tree.tokens_node]
      simp only [Layer.sketch, named, List.flatMap_cons, Item.tokens]
      exact follows_cons (by simp) (by simp)
  | funDecl _ _ _ _ _ _ _ =>
      rw [Tree.tokens_node]
      exact follows_keyword "function" _

/-! ### Reading lists -/

/-- The reader finds the surface of the tree in front of whatever may follow it. -/
def Reads (reader : Reader Tree) (tree : Tree) : Prop :=
  ∀ rest, Follows rest → reader (tree.tokens ++ rest) = some (tree.surface, rest)

section

variable {reader : Reader Tree} {trees : List Tree}

theorem follows_tokensAfter {separator : Char} (notOpen : separator ≠ '(')
    (notColon : separator ≠ ':') {rest : List Token} (follows : Follows rest) :
    Follows (Tree.tokensAfter separator trees ++ rest) := by
  cases trees with
  | nil => exact follows
  | cons first others =>
      exact follows_symbol notOpen notColon _

theorem read_more {separator : Char} (notOpen : separator ≠ '(') (notColon : separator ≠ ':')
    (reads : ∀ tree ∈ trees, Reads reader tree) {fuel : Nat} (enough : trees.length ≤ fuel)
    {rest : List Token} (follows : Follows rest) (stops : rest.head? ≠ some (.symbol separator)) :
    Reader.more reader separator fuel (Tree.tokensAfter separator trees ++ rest) =
      some (trees.map Tree.surface, rest) := by
  induction trees generalizing fuel with
  | nil =>
      cases fuel with
      | zero => rfl
      | succ fuel => exact if_neg stops
  | cons first others ih =>
      obtain ⟨fuel, rfl⟩ : ∃ less, fuel = less + 1 := ⟨fuel - 1, by simp at enough; omega⟩
      have readFirst := reads first List.mem_cons_self
        (Tree.tokensAfter separator others ++ rest)
        (follows_tokensAfter notOpen notColon follows)
      have readOthers := ih (fun tree member => reads tree (.tail _ member))
        (by simpa using enough)
      have shape : Tree.tokensAfter separator (first :: others) ++ rest =
          .symbol separator :: (first.tokens ++ (Tree.tokensAfter separator others ++ rest)) := by
        simp [Tree.tokensAfter]
      rw [shape, Reader.more, List.head?_cons, if_pos rfl]
      simp only [List.tail_cons, readFirst, readOthers, Option.bind_eq_bind, Option.bind_some,
        List.map_cons]

theorem read_listed (reads : ∀ tree ∈ trees, Reads reader tree)
    (begins : ∀ tree ∈ trees, ∃ token more, tree.tokens = token :: more ∧ token.Begins)
    {fuel : Nat} (enough : trees.length ≤ fuel) (rest : List Token) :
    Reader.listed reader fuel (Tree.tokensListed trees ++ .symbol ')' :: rest) =
      some (trees.map Tree.surface, rest) := by
  cases trees with
  | nil => rfl
  | cons first others =>
      have follows : Follows (.symbol ')' :: rest) := follows_symbol (by decide) (by decide) rest
      have readFirst := reads first List.mem_cons_self
        (Tree.tokensAfter ',' others ++ .symbol ')' :: rest)
        (follows_tokensAfter (by decide) (by decide) follows)
      have readOthers := read_more (by decide) (by decide)
        (fun tree member => reads tree (.tail first member)) (Nat.le_of_succ_le enough) follows
        (by simp : (Token.symbol ')' :: rest).head? ≠ some (.symbol ','))
      obtain ⟨token, more, starts, notClose, _⟩ := begins first List.mem_cons_self
      have notEmpty : (first.tokens ++ (Tree.tokensAfter ',' others ++ .symbol ')' :: rest)).head? ≠
          some (.symbol ')') := by
        rw [starts]
        exact fun same => notClose (Option.some.inj same)
      rw [Tree.tokensListed, List.append_assoc, Reader.listed, if_neg notEmpty]
      simp only [readFirst, readOthers, Reader.expect, if_true, Option.bind_eq_bind,
        Option.bind_some, List.map_cons]

theorem read_declarations (reads : ∀ tree ∈ trees, Reads reader tree)
    (begins : ∀ tree ∈ trees, ∃ token more, tree.tokens = token :: more ∧ token.Begins)
    (apart : ∀ tree ∈ trees, ∀ rest, Follows (tree.tokens ++ rest))
    {fuel : Nat} (enough : trees.length < fuel) (rest : List Token) :
    Reader.declarations reader fuel (trees.flatMap Tree.tokens ++ .keyword "in" :: rest) =
      some (trees.map Tree.surface, rest) := by
  induction trees generalizing fuel with
  | nil =>
      obtain ⟨fuel, rfl⟩ : ∃ less, fuel = less + 1 := ⟨fuel - 1, by simp at enough; omega⟩
      rfl
  | cons first others ih =>
      obtain ⟨fuel, rfl⟩ : ∃ less, fuel = less + 1 := ⟨fuel - 1, by simp at enough; omega⟩
      have followsOthers : Follows (others.flatMap Tree.tokens ++ .keyword "in" :: rest) := by
        cases others with
        | nil => exact follows_keyword "in" rest
        | cons second others =>
            rw [List.flatMap_cons, List.append_assoc]
            exact apart second (by simp) _
      have readFirst := reads first List.mem_cons_self _ followsOthers
      have readOthers := ih (fun tree member => reads tree (.tail first member))
        (fun tree member => begins tree (.tail first member))
        (fun tree member => apart tree (.tail first member)) (Nat.lt_of_succ_lt_succ enough)
      obtain ⟨token, more, starts, _, _, notIn⟩ := begins first List.mem_cons_self
      have goesOn : (first.tokens ++
          (others.flatMap Tree.tokens ++ .keyword "in" :: rest)).head? ≠ some (.keyword "in") := by
        rw [starts]
        exact fun same => notIn (Option.some.inj same)
      rw [List.flatMap_cons, List.append_assoc, Reader.declarations, if_neg goesOn]
      simp only [readFirst, readOthers, Option.bind_eq_bind, Option.bind_some, List.map_cons]

end

theorem Tree.length_le_tokensAfter {separator : Char} {trees : List Tree} :
    (∀ tree ∈ trees, tree.tokens.length ≤ (tokensAfter separator trees).length) ∧
      trees.length ≤ (tokensAfter separator trees).length := by
  induction trees with
  | nil => exact ⟨fun _ member => (List.not_mem_nil member).elim, Nat.le_refl _⟩
  | cons first others ih =>
      have split : (tokensAfter separator (first :: others)).length =
          1 + first.tokens.length + (tokensAfter separator others).length := by
        simp [tokensAfter]
        omega
      refine ⟨?_, by rw [split, List.length_cons]; omega⟩
      intro tree member
      rw [split]
      rcases List.mem_cons.mp member with rfl | later
      · omega
      · have inOthers := ih.1 tree later
        omega

theorem Tree.length_le_tokensListed (trees : List Tree) :
    (∀ tree ∈ trees, tree.tokens.length ≤ (tokensListed trees).length) ∧
      trees.length ≤ (tokensListed trees).length + 1 := by
  cases trees with
  | nil => exact ⟨fun _ member => (List.not_mem_nil member).elim, Nat.zero_le _⟩
  | cons first others =>
      have bound := @length_le_tokensAfter ',' others
      rw [tokensListed, List.length_append, List.length_cons]
      refine ⟨?_, by omega⟩
      intro tree member
      rcases List.mem_cons.mp member with rfl | later
      · omega
      · have inOthers := bound.1 tree later
        omega

theorem Tree.length_le_tokens_of_legible {sort : NodeSort} {trees : List Tree}
    (legible : ∀ tree ∈ trees, Legible sort tree) :
    (∀ tree ∈ trees, tree.tokens.length ≤ (trees.flatMap tokens).length) ∧
      trees.length ≤ (trees.flatMap tokens).length := by
  induction trees with
  | nil => exact ⟨fun _ member => (List.not_mem_nil member).elim, Nat.le_refl _⟩
  | cons first others ih =>
      have inOthers := ih (fun tree member => legible tree (.tail _ member))
      obtain ⟨token, more, starts, _⟩ := (legible first List.mem_cons_self).begins
      rw [List.flatMap_cons, List.length_append, List.length_cons]
      refine ⟨?_, ?_⟩
      · intro tree member
        rcases List.mem_cons.mp member with rfl | later
        · omega
        · have := inOthers.1 tree later
          omega
      · rw [starts, List.length_cons]
        omega

theorem Operator.tokens_eq (operator : Operator) :
    operator.tokens = operator.symbol.toList.map .symbol := by
  cases operator <;> rfl

private theorem follows_operator (operator : Operator) (rest : List Token) :
    Follows (operator.tokens ++ rest) := by
  cases operator
  all_goals exact ⟨by simp [Operator.tokens_eq, Operator.symbol],
    by simp [Operator.tokens_eq, Operator.symbol]⟩

/-- Of `<` and `<=` the reader takes the longer one; so no operand may start with `=`. -/
theorem read_operator (operator : Operator) {rest : List Token}
    (notEquals : rest.head? ≠ some (.symbol '=')) :
    Reader.operator (operator.tokens ++ rest) = some (operator, rest) := by
  cases rest with
  | nil => cases operator <;> rfl
  | cons token rest =>
      have different : token ≠ .symbol '=' := fun same => notEquals (congrArg some same)
      cases operator
      case lt =>
          change Reader.operator (.symbol '<' :: token :: rest) = _
          unfold Reader.operator
          split <;> simp_all
      case gt =>
          change Reader.operator (.symbol '>' :: token :: rest) = _
          unfold Reader.operator
          split <;> simp_all
      all_goals rfl

/-! ### Reading a node -/

section

variable {below : NodeSort → Reader Tree} {fuel : Nat}

theorem expect_here (token : Token) (rest : List Token) :
    Reader.expect token (token :: rest) = some ((), rest) :=
  if_pos rfl

variable {left right condition thenBranch elseBranch body low high value : Tree}

private theorem reads_int (location : Location) (value : Int32) :
    Reads (Reader.expression below fuel) (.node (.int location value)) := by
  intro rest follows
  have numeral : (Tree.node (.int location value)).tokens = lex (toString value.toInt).toList := by
    rw [Tree.tokens_node]
    exact List.append_nil _
  have spelled := lex_number value.toInt breaks_nil
  rw [List.append_nil] at spelled
  rw [numeral, spelled, Tree.surface_node]
  have back : Int32.ofInt value.toInt = value := Int32.ofInt_toInt value
  cases isValue : value.toInt with
  | ofNat magnitude =>
      rw [isValue] at back
      simp only [lex_nil, List.cons_append, List.nil_append, Reader.expression_number, read_number]
      rw [← back]
      rfl
  | negSucc magnitude =>
      rw [isValue] at back
      simp only [lex_nil, List.cons_append, List.nil_append, Reader.expression_minus, read_number]
      rw [← back]
      rfl

private theorem reads_binary (location : Location) (operator : Operator)
    (readLeft : Reads (below .expression) left) (readRight : Reads (below .expression) right)
    (begins : ∃ token more, right.tokens = token :: more ∧ token.Begins) :
    Reads (Reader.expression below fuel) (.node (.binary location operator left right)) := by
  intro rest follows
  have first := readLeft (operator.tokens ++ (right.tokens ++ .symbol ')' :: rest))
    (follows_operator operator _)
  have second := readRight (.symbol ')' :: rest) (follows_symbol (by decide) (by decide) rest)
  have between : Reader.operator (operator.tokens ++ (right.tokens ++ .symbol ')' :: rest)) =
      some (operator, right.tokens ++ .symbol ')' :: rest) := by
    obtain ⟨token, more, starts, _, notEquals, _⟩ := begins
    refine read_operator operator ?_
    rw [starts]
    exact fun same => notEquals (Option.some.inj same)
  rw [tokens_binary, Tree.surface_node]
  simp only [List.cons_append, List.append_assoc, List.nil_append, Reader.expression_open,
    Reader.parenthesized, first, between, second, expect_here, Option.bind_eq_bind,
    Option.bind_some]
  rfl

private theorem reads_sequence (location : Location) (first : Tree) (others : List Tree)
    (reads : ∀ element ∈ first :: others, Reads (below .expression) element)
    (enough : others.length ≤ fuel) :
    Reads (Reader.expression below fuel) (.node (.sequence location (first :: others))) := by
  intro rest follows
  have closes : Follows (.symbol ')' :: rest) := follows_symbol (by decide) (by decide) rest
  have readFirst := reads first List.mem_cons_self
    (Tree.tokensAfter ';' others ++ .symbol ')' :: rest)
    (follows_tokensAfter (by decide) (by decide) closes)
  have readOthers := read_more (by decide) (by decide)
    (fun tree member => reads tree (.tail first member)) enough closes
    (by simp : (Token.symbol ')' :: rest).head? ≠ some (.symbol ';'))
  have noOperator : Reader.operator (Tree.tokensAfter ';' others ++ .symbol ')' :: rest) =
      none := by
    cases others <;> rfl
  rw [tokens_sequence, Tree.surface_node]
  simp only [List.cons_append, List.append_assoc, List.nil_append, Reader.expression_open,
    Reader.parenthesized, readFirst, noOperator, readOthers, expect_here, Option.bind_eq_bind,
    Option.bind_some]
  rfl

private theorem reads_letIn (location : Location) (decls : List Tree) (first : Tree)
    (others : List Tree) (legible : ∀ decl ∈ decls, Legible .declaration decl)
    (readDecls : ∀ decl ∈ decls, Reads (below .declaration) decl)
    (reads : ∀ element ∈ first :: others, Reads (below .expression) element)
    (enoughDecls : decls.length < fuel) (enough : others.length ≤ fuel) :
    Reads (Reader.expression below fuel) (.node (.letIn location decls (first :: others))) := by
  intro rest follows
  have closes : Follows (.keyword "end" :: rest) := follows_keyword "end" rest
  have readAllDecls := read_declarations readDecls (fun decl member => (legible decl member).begins)
    (fun decl member => (legible decl member).follows) enoughDecls
    (first.tokens ++ (Tree.tokensAfter ';' others ++ .keyword "end" :: rest))
  have readFirst := reads first List.mem_cons_self
    (Tree.tokensAfter ';' others ++ .keyword "end" :: rest)
    (follows_tokensAfter (by decide) (by decide) closes)
  have readOthers := read_more (by decide) (by decide)
    (fun tree member => reads tree (.tail first member)) enough closes
    (by simp : (Token.keyword "end" :: rest).head? ≠ some (.symbol ';'))
  rw [tokens_letIn, Tree.surface_node]
  simp only [List.cons_append, List.append_assoc, List.nil_append, Reader.expression_let,
    Reader.letIn, readAllDecls, readFirst, readOthers, expect_here, Option.bind_eq_bind,
    Option.bind_some]
  rfl

private theorem reads_identifier (location : Location) (name : String)
    (site : Option (Except Fault Site)) (depth : UInt32) :
    Reads (Reader.expression below fuel) (.node (.identifier location (.ok name) site depth)) := by
  intro rest follows
  have named : (Tree.node (.identifier location (.ok name) site depth)).tokens = [.name name] :=
    Tree.tokens_node _
  rw [named, Tree.surface_node]
  simp only [List.cons_append, List.nil_append, Reader.expression_name]
  unfold Reader.named
  split
  · exact absurd rfl follows.1
  · exact absurd rfl follows.2
  · rfl

private theorem reads_ifThenElse (location : Location)
    (readCondition : Reads (below .expression) condition)
    (readThen : Reads (below .expression) thenBranch)
    (readElse : Reads (below .expression) elseBranch) :
    Reads (Reader.expression below fuel)
      (.node (.ifThenElse location condition thenBranch elseBranch)) := by
  intro rest follows
  have first := readCondition
    (.keyword "then" :: (thenBranch.tokens ++ .keyword "else" :: (elseBranch.tokens ++ rest)))
    (follows_keyword "then" _)
  have second := readThen (.keyword "else" :: (elseBranch.tokens ++ rest))
    (follows_keyword "else" _)
  have third := readElse rest follows
  rw [tokens_ifThenElse, Tree.surface_node]
  simp only [List.cons_append, List.append_assoc, Reader.expression_if, Reader.ifThenElse, first,
    second, third, expect_here, Option.bind_eq_bind, Option.bind_some]
  rfl

private theorem reads_call (location : Location) (name : String)
    (site : Option (Except Fault Site)) (arguments : List Tree)
    (legible : ∀ argument ∈ arguments, Legible .expression argument)
    (reads : ∀ argument ∈ arguments, Reads (below .expression) argument)
    (enough : arguments.length ≤ fuel) :
    Reads (Reader.expression below fuel) (.node (.call location (.ok name) site arguments)) := by
  intro rest follows
  have listed := read_listed reads (fun argument member => (legible argument member).begins)
    enough rest
  rw [tokens_call, Tree.surface_node]
  simp only [List.cons_append, List.append_assoc, List.nil_append, Reader.expression_name,
    Reader.named_open, listed, Option.bind_eq_bind, Option.bind_some]
  rfl

private theorem reads_whileLoop (location : Location)
    (readCondition : Reads (below .expression) condition)
    (readBody : Reads (below .expression) body) :
    Reads (Reader.expression below fuel) (.node (.whileLoop location condition body)) := by
  intro rest follows
  have first := readCondition (.keyword "do" :: (body.tokens ++ rest)) (follows_keyword "do" _)
  have second := readBody rest follows
  rw [tokens_whileLoop, Tree.surface_node]
  simp only [List.cons_append, List.append_assoc, Reader.expression_while, Reader.whileLoop, first,
    second, expect_here, Option.bind_eq_bind, Option.bind_some]
  rfl

variable {heading : Heading} {name : String}

private theorem reads_forLoop (location : Location) (named : heading.name = .ok name)
    (readLow : Reads (below .expression) low) (readHigh : Reads (below .expression) high)
    (readBody : Reads (below .expression) body) :
    Reads (Reader.expression below fuel)
      (.node (.forLoop location (.bound heading low) high body)) := by
  intro rest follows
  have first := readLow
    (.keyword "to" :: (high.tokens ++ .keyword "do" :: (body.tokens ++ rest)))
    (follows_keyword "to" _)
  have second := readHigh (.keyword "do" :: (body.tokens ++ rest)) (follows_keyword "do" _)
  have third := readBody rest follows
  rw [tokens_forLoop location named, Tree.surface_node]
  simp only [List.cons_append, List.append_assoc, Reader.expression_for, Reader.forLoop, first,
    second, third, expect_here, Option.bind_eq_bind, Option.bind_some]
  rw [← named]
  rfl

private theorem reads_assign (location identifierLocation : Location) (name : String)
    (site : Option (Except Fault Site)) (depth : UInt32)
    (readValue : Reads (below .expression) value) :
    Reads (Reader.expression below fuel) (.node (.assign location
      (.node (.identifier identifierLocation (.ok name) site depth)) value)) := by
  intro rest follows
  have assigned := readValue rest follows
  rw [tokens_assign, Tree.surface_node]
  simp only [List.cons_append, Reader.expression_name, Reader.named_assign, assigned,
    Option.bind_eq_bind, Option.bind_some]
  rfl

private theorem read_writtenType {typeName : Option (Except Fault String)}
    (written : ∀ spelling ∈ typeName, spelling.isOk) {rest : List Token}
    (stops : ∀ other more, rest ≠ .symbol ':' :: .name other :: more) :
    Reader.writtenType (Token.ofType typeName ++ rest) = (typeName, rest) := by
  cases typeName with
  | some spelling =>
      cases spelling with
      | ok spelling => rfl
      | error fault => cases written (.error fault) rfl
  | none =>
      change Reader.writtenType rest = _
      unfold Reader.writtenType
      split
      · exact absurd rfl (stops _ _)
      · rfl

private theorem isOk_of_typed (typed : heading.IsTyped) :
    ∀ spelling ∈ heading.typeName, spelling.isOk := by
  intro spelling isType
  obtain ⟨word, rfl, _⟩ := typed spelling isType
  rfl

private theorem isOk_of_printed (typed : heading.IsTyped) :
    ∀ spelling ∈ heading.printedType, spelling.isOk := by
  intro spelling isType
  unfold Heading.printedType at isType
  split at isType
  · rename_i word isWord
    exact isOk_of_typed typed spelling (isWord.trans isType)
  · obtain ⟨word, _, rfl⟩ := Option.map_eq_some_iff.mp isType
    rfl

private theorem reads_varDecl (named : heading.name = .ok name) (typed : heading.IsTyped)
    (readValue : Reads (below .expression) value) :
    Reads (Reader.declaration below fuel) (.node (.varDecl heading value)) := by
  intro rest follows
  have assigned := readValue rest follows
  have written := read_writtenType (isOk_of_printed typed)
    (by simp : ∀ other more, .symbol ':' :: .symbol '=' :: (value.tokens ++ rest) ≠
      .symbol ':' :: .name other :: more)
  rw [tokens_varDecl named typed, Tree.surface_node]
  simp only [List.cons_append, List.append_assoc, Reader.declaration_var, Reader.varDecl, written,
    assigned, expect_here, Option.bind_eq_bind, Option.bind_some]
  rw [← named]
  rfl

private theorem reads_parameter (named : heading.name = .ok name) (typed : heading.IsTyped) :
    Reads (Reader.declaration below fuel) (.node (.parameter heading)) := by
  intro rest follows
  have written : Reader.writtenType (Token.ofType heading.printedType ++ rest) = _ :=
    read_writtenType (isOk_of_printed typed) (fun other more same => follows.2 (by rw [same]; rfl))
  rw [tokens_parameter named typed, Tree.surface_node]
  simp only [List.cons_append, Reader.declaration_name, Reader.parameter, written]
  rw [← named]
  rfl

private theorem reads_funDecl (named : heading.name = .ok name) (typed : heading.IsTyped)
    (loweredName : Option LoweredName) (parameters : List Tree)
    (legible : ∀ parameter ∈ parameters, Legible .declaration parameter)
    (reads : ∀ parameter ∈ parameters, Reads (below .declaration) parameter)
    (enough : parameters.length ≤ fuel) (readBody : Reads (below .expression) body) :
    Reads (Reader.declaration below fuel)
      (.node (.funDecl heading loweredName (.ok parameters) body)) := by
  intro rest follows
  have listed := read_listed reads (fun parameter member => (legible parameter member).begins)
    enough (Token.ofType heading.typeName ++ .symbol '=' :: (body.tokens ++ rest))
  have written := read_writtenType (isOk_of_typed typed)
    (by simp : ∀ other more, .symbol '=' :: (body.tokens ++ rest) ≠
      .symbol ':' :: .name other :: more)
  have bodyRead := readBody rest follows
  rw [tokens_funDecl named typed, Tree.surface_node]
  simp only [List.cons_append, List.append_assoc, Reader.declaration_function, Reader.funDecl,
    listed, written, bodyRead, expect_here, Option.bind_eq_bind, Option.bind_some]
  rw [← named]
  rfl

end

private theorem exists_succ {fuel length : Nat} (enough : length + 1 ≤ fuel) :
    ∃ less, fuel = less + 1 ∧ length ≤ less :=
  ⟨fuel - 1, by omega, by omega⟩

/-- The reader finds the surface of a legible tree in its tokens; every level of the tree has used
a token when the next one is read. -/
theorem Legible.read {sort : NodeSort} {tree : Tree} (legible : Legible sort tree) {fuel : Nat}
    (enough : tree.tokens.length ≤ fuel) : Reads (Reader.node fuel sort) tree := by
  induction legible generalizing fuel with
  | int location value =>
      obtain ⟨token, more, starts, _⟩ := (Legible.int location value).begins
      rw [starts, List.length_cons] at enough
      obtain ⟨fuel, rfl, _⟩ := exists_succ enough
      exact reads_int location value
  | string location contents =>
      rw [Tree.tokens_node] at enough
      obtain ⟨fuel, rfl, _⟩ := exists_succ enough
      intro rest follows
      rw [Tree.tokens_node, Tree.surface_node]
      rfl
  | binary location operator _ rightLegible readLeft readRight =>
      rw [tokens_binary, List.length_cons] at enough
      obtain ⟨fuel, rfl, enough⟩ := exists_succ enough
      simp only [List.length_append] at enough
      exact reads_binary location operator (readLeft (by omega)) (readRight (by omega))
        rightLegible.begins
  | sequence location first others _ read =>
      rw [tokens_sequence, List.length_cons] at enough
      obtain ⟨fuel, rfl, enough⟩ := exists_succ enough
      simp only [List.length_append] at enough
      have bound := @Tree.length_le_tokensAfter ';' others
      refine reads_sequence location first others ?_ (by omega)
      intro element member
      refine read element member ?_
      rcases List.mem_cons.mp member with rfl | later
      · omega
      · have := bound.1 element later
        omega
  | letIn location decls first others declsLegible _ readDecls read =>
      rw [tokens_letIn, List.length_cons] at enough
      obtain ⟨fuel, rfl, enough⟩ := exists_succ enough
      simp only [List.length_append, List.length_cons] at enough
      have bound := @Tree.length_le_tokensAfter ';' others
      have boundDecls := Tree.length_le_tokens_of_legible declsLegible
      refine reads_letIn location decls first others declsLegible ?_ ?_ (by omega) (by omega)
      · intro decl member
        have := boundDecls.1 decl member
        exact readDecls decl member (by omega)
      · intro element member
        refine read element member ?_
        rcases List.mem_cons.mp member with rfl | later
        · omega
        · have := bound.1 element later
          omega
  | identifier location _ site depth =>
      rw [Tree.tokens_node] at enough
      obtain ⟨fuel, rfl, _⟩ := exists_succ enough
      exact reads_identifier location _ site depth
  | ifThenElse location _ _ _ readCondition readThen readElse =>
      rw [tokens_ifThenElse, List.length_cons] at enough
      obtain ⟨fuel, rfl, enough⟩ := exists_succ enough
      simp only [List.length_append, List.length_cons] at enough
      exact reads_ifThenElse location (readCondition (by omega)) (readThen (by omega))
        (readElse (by omega))
  | call location _ site arguments legible read =>
      rw [tokens_call, List.length_cons] at enough
      obtain ⟨fuel, rfl, enough⟩ := exists_succ enough
      simp only [List.length_append, List.length_cons] at enough
      have bound := Tree.length_le_tokensListed arguments
      refine reads_call location _ site arguments legible ?_ (by omega)
      intro argument member
      have := bound.1 argument member
      exact read argument member (by omega)
  | whileLoop location _ _ readCondition readBody =>
      rw [tokens_whileLoop, List.length_cons] at enough
      obtain ⟨fuel, rfl, enough⟩ := exists_succ enough
      simp only [List.length_append, List.length_cons] at enough
      exact reads_whileLoop location (readCondition (by omega)) (readBody (by omega))
  | forLoop location named _ _ _ _ readLow readHigh readBody =>
      rw [tokens_forLoop location named, List.length_cons] at enough
      obtain ⟨fuel, rfl, enough⟩ := exists_succ enough
      simp only [List.length_append, List.length_cons] at enough
      exact reads_forLoop location named (readLow (by omega)) (readHigh (by omega))
        (readBody (by omega))
  | breakLoop location target =>
      rw [Tree.tokens_node] at enough
      obtain ⟨fuel, rfl, _⟩ := exists_succ enough
      intro rest follows
      rw [Tree.tokens_node, Tree.surface_node]
      rfl
  | assign location identifierLocation _ site depth _ readValue =>
      rw [tokens_assign, List.length_cons] at enough
      obtain ⟨fuel, rfl, enough⟩ := exists_succ enough
      simp only [List.length_cons] at enough
      exact reads_assign location identifierLocation _ site depth (readValue (by omega))
  | varDecl named _ typed _ readValue =>
      rw [tokens_varDecl named typed, List.length_cons] at enough
      obtain ⟨fuel, rfl, enough⟩ := exists_succ enough
      simp only [List.length_append, List.length_cons] at enough
      exact reads_varDecl named typed (readValue (by omega))
  | parameter named _ typed =>
      rw [tokens_parameter named typed, List.length_cons] at enough
      obtain ⟨fuel, rfl, _⟩ := exists_succ enough
      exact reads_parameter named typed
  | funDecl named _ typed loweredName parameters legible _ read readBody =>
      rw [tokens_funDecl named typed, List.length_cons] at enough
      obtain ⟨fuel, rfl, enough⟩ := exists_succ enough
      simp only [List.length_append, List.length_cons] at enough
      have bound := Tree.length_le_tokensListed parameters
      refine reads_funDecl named typed loweredName parameters legible ?_ (by omega)
        (readBody (by omega))
      intro parameter member
      have := bound.1 parameter member
      exact read parameter member (by omega)

end TigerTree
