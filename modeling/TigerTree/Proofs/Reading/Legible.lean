import TigerTree.Proofs.Reading.Surface

/-! Legible trees: every child is of the sort that its place asks for, names are identifiers, and
what is written is complete. Reading the tokens of a legible tree gives back its surface, whatever
stands behind them. -/

set_option autoImplicit false

namespace TigerTree

variable {Child : Type}

def Item.tokens (ofChild : Child → List Token) : Item Child → List Token
  | .text words => lex words.toList
  | .name (.ok spelling) => [.name spelling]
  | .literal (.ok contents) => [.literal contents]
  | .child _ inner => ofChild inner
  | _ => []

def Tree.tokens (tree : Tree) : List Token :=
  tree.fold (fun layer => layer.sketch.flatMap (Item.tokens id))

theorem Tree.tokens_node (layer : Layer Tree) :
    (Tree.node layer).tokens = layer.sketch.flatMap (Item.tokens Tree.tokens) := by
  change Tree.fold _ _ = _
  rw [Tree.fold_node, Layer.sketch_map, List.flatMap_map]
  refine List.flatMap_congr ?_
  intro item _
  cases item with
  | name spelling => cases spelling <;> rfl
  | literal contents => cases contents <;> rfl
  | _ => rfl

def Tree.tokensAfter (separator : Char) (trees : List Tree) : List Token :=
  trees.flatMap (fun tree => .symbol separator :: tree.tokens)

def Tree.tokensListed : List Tree → List Token
  | [] => []
  | first :: rest => first.tokens ++ Tree.tokensAfter ',' rest

theorem tokens_lines (first : Tree) (rest : List Tree) :
    (Item.lines (first :: rest)).flatMap (Item.tokens Tree.tokens) =
      first.tokens ++ Tree.tokensAfter ';' rest := by
  have semicolon : lex [';'] = [.symbol ';'] := by rfl
  simp [Item.lines, Item.joined, Item.tokens, Tree.tokensAfter, List.flatMap_assoc, semicolon]

theorem tokens_listed (trees : List Tree) :
    (Item.joined [.text ", "] 0 trees).flatMap (Item.tokens Tree.tokens) =
      Tree.tokensListed trees := by
  have comma : lex [',', ' '] = [.symbol ','] := by rfl
  cases trees with
  | nil => rfl
  | cons first rest =>
      simp [Item.joined, Item.tokens, Tree.tokensListed, Tree.tokensAfter, List.flatMap_assoc,
        comma]

theorem tokens_blocks (trees : List Tree) :
    (trees.flatMap Item.block).flatMap (Item.tokens Tree.tokens) = trees.flatMap Tree.tokens := by
  simp [Item.block, Item.tokens, List.flatMap_assoc]

theorem lexed_symbols :
    lex "(".toList = [.symbol '('] ∧ lex ")".toList = [.symbol ')'] ∧
      lex ": ".toList = [.symbol ':'] ∧ lex " := ".toList = [.symbol ':', .symbol '='] ∧
      lex " =".toList = [.symbol '='] :=
  ⟨rfl, rfl, rfl, rfl, rfl⟩

theorem lexed_keywords :
    lex "let".toList = [.keyword "let"] ∧ lex "in".toList = [.keyword "in"] ∧
      lex "end".toList = [.keyword "end"] ∧ lex "if".toList = [.keyword "if"] ∧
      lex "then".toList = [.keyword "then"] ∧ lex "else".toList = [.keyword "else"] ∧
      lex "while ".toList = [.keyword "while"] ∧ lex " do".toList = [.keyword "do"] ∧
      lex "for ".toList = [.keyword "for"] ∧ lex " to ".toList = [.keyword "to"] ∧
      lex "break".toList = [.keyword "break"] ∧ lex "var ".toList = [.keyword "var"] ∧
      lex "function ".toList = [.keyword "function"] :=
  ⟨rfl, rfl, rfl, rfl, rfl, rfl, rfl, rfl, rfl, rfl, rfl, rfl, rfl⟩

def Operator.tokens (operator : Operator) : List Token :=
  lex (" " ++ operator.symbol ++ " ").toList

def Heading.IsTyped (heading : Heading) : Prop :=
  ∀ typeName ∈ heading.typeName, ∃ spelling, typeName = .ok spelling ∧ isIdentifier spelling

section

variable {left right condition thenBranch elseBranch body low high value : Tree}

theorem tokens_binary (location : Location) (operator : Operator) :
    (Tree.node (.binary location operator left right)).tokens =
      .symbol '(' :: (left.tokens ++ (operator.tokens ++ (right.tokens ++ [.symbol ')']))) := by
  rw [Tree.tokens_node]
  simp only [Layer.sketch, List.flatMap_cons, List.flatMap_nil, Item.tokens, lexed_symbols,
    Operator.tokens, List.cons_append, List.nil_append]

theorem tokens_sequence (location : Location) (first : Tree) (others : List Tree) :
    (Tree.node (.sequence location (first :: others))).tokens =
      .symbol '(' :: (first.tokens ++ (Tree.tokensAfter ';' others ++ [.symbol ')'])) := by
  rw [Tree.tokens_node]
  simp only [Layer.sketch, List.flatMap_cons, List.flatMap_append, tokens_lines, List.flatMap_nil,
    Item.tokens, lexed_symbols, List.cons_append, List.nil_append, List.append_assoc]

theorem tokens_letIn (location : Location) (decls : List Tree) (first : Tree)
    (others : List Tree) :
    (Tree.node (.letIn location decls (first :: others))).tokens =
      .keyword "let" :: (decls.flatMap Tree.tokens ++ .keyword "in" ::
        (first.tokens ++ (Tree.tokensAfter ';' others ++ [.keyword "end"]))) := by
  rw [Tree.tokens_node]
  simp only [Layer.sketch, List.flatMap_cons, List.flatMap_append, tokens_lines, tokens_blocks,
    List.flatMap_nil, Item.tokens, lexed_keywords, List.cons_append, List.nil_append,
    List.append_assoc]

theorem tokens_ifThenElse (location : Location) :
    (Tree.node (.ifThenElse location condition thenBranch elseBranch)).tokens =
      .keyword "if" :: (condition.tokens ++ .keyword "then" ::
        (thenBranch.tokens ++ .keyword "else" :: elseBranch.tokens)) := by
  rw [Tree.tokens_node]
  simp only [Layer.sketch, Item.block, List.flatMap_cons, List.flatMap_nil, Item.tokens,
    lexed_keywords, List.cons_append, List.nil_append, List.append_nil]

theorem tokens_call (location : Location) (name : String)
    (site : Option (Except Fault Site)) (arguments : List Tree) :
    (Tree.node (.call location (.ok name) site arguments)).tokens =
      .name name :: .symbol '(' :: (Tree.tokensListed arguments ++ [.symbol ')']) := by
  rw [Tree.tokens_node]
  simp only [Layer.sketch, List.flatMap_cons, List.flatMap_append, tokens_listed, List.flatMap_nil,
    Item.tokens, lexed_symbols, List.cons_append, List.nil_append]

theorem tokens_whileLoop (location : Location) :
    (Tree.node (.whileLoop location condition body)).tokens =
      .keyword "while" :: (condition.tokens ++ .keyword "do" :: body.tokens) := by
  rw [Tree.tokens_node]
  simp only [Layer.sketch, Item.block, List.flatMap_cons, List.flatMap_nil, Item.tokens,
    lexed_keywords, List.cons_append, List.nil_append, List.append_nil]

theorem tokens_forLoop (location : Location) {heading : Heading} {name : String}
    (named : heading.name = .ok name) :
    (Tree.node (.forLoop location (.bound heading low) high body)).tokens =
      .keyword "for" :: .name name :: .symbol ':' :: .symbol '=' :: (low.tokens ++
        .keyword "to" :: (high.tokens ++ .keyword "do" :: body.tokens)) := by
  rw [Tree.tokens_node]
  simp only [Layer.sketch, named, Item.block, List.flatMap_cons, List.flatMap_nil, Item.tokens,
    lexed_keywords, lexed_symbols, List.cons_append, List.nil_append, List.append_nil]

theorem tokens_assign (location identifierLocation : Location) (name : String)
    (site : Option (Except Fault Site)) (depth : UInt32) :
    (Tree.node (.assign location
        (.node (.identifier identifierLocation (.ok name) site depth)) value)).tokens =
      .name name :: .symbol ':' :: .symbol '=' :: value.tokens := by
  rw [Tree.tokens_node]
  simp only [Layer.sketch, Tree.tokens_node, List.flatMap_cons, List.flatMap_nil, Item.tokens,
    lexed_symbols, List.cons_append, List.nil_append, List.append_nil]

def Token.ofType : Option (Except Fault String) → List Token
  | some (.ok typeName) => [.symbol ':', .name typeName]
  | _ => []

theorem tokens_variableType {heading : Heading} (typed : heading.IsTyped) :
    (Item.variableType heading).flatMap (Item.tokens Tree.tokens) =
      Token.ofType heading.printedType := by
  unfold Item.variableType Heading.printedType
  cases isType : heading.typeName with
  | some typeName =>
      obtain ⟨spelling, rfl, _⟩ := typed typeName isType
      rfl
  | none => cases heading.type <;> rfl

theorem tokens_resultType {heading : Heading} (typed : heading.IsTyped) :
    (Item.resultType heading).flatMap (Item.tokens Tree.tokens) =
      Token.ofType heading.typeName := by
  unfold Item.resultType
  cases isType : heading.typeName with
  | some typeName =>
      obtain ⟨spelling, rfl, _⟩ := typed typeName isType
      rfl
  | none => rfl

variable {heading : Heading} {name : String}

theorem tokens_varDecl (named : heading.name = .ok name) (typed : heading.IsTyped) :
    (Tree.node (.varDecl heading value)).tokens =
      .keyword "var" :: .name name :: (Token.ofType heading.printedType ++
        .symbol ':' :: .symbol '=' :: value.tokens) := by
  rw [Tree.tokens_node]
  simp only [Layer.sketch, named, List.flatMap_cons, List.flatMap_append, tokens_variableType typed,
    List.flatMap_nil, Item.tokens, lexed_keywords, lexed_symbols, List.cons_append,
    List.nil_append, List.append_nil]

theorem tokens_parameter (named : heading.name = .ok name) (typed : heading.IsTyped) :
    (Tree.node (.parameter heading)).tokens =
      .name name :: Token.ofType heading.printedType := by
  rw [Tree.tokens_node]
  simp only [Layer.sketch, named, List.flatMap_cons, tokens_variableType typed, Item.tokens,
    List.cons_append, List.nil_append]

theorem tokens_funDecl (named : heading.name = .ok name) (typed : heading.IsTyped)
    (loweredName : Option LoweredName) (parameters : List Tree) :
    (Tree.node (.funDecl heading loweredName (.ok parameters) body)).tokens =
      .keyword "function" :: .name name :: .symbol '(' :: (Tree.tokensListed parameters ++
        .symbol ')' :: (Token.ofType heading.typeName ++ .symbol '=' :: body.tokens)) := by
  rw [Tree.tokens_node]
  simp only [Layer.sketch, named, Item.block, List.flatMap_cons, List.flatMap_append, tokens_listed,
    tokens_resultType typed, List.flatMap_nil, Item.tokens, lexed_keywords, lexed_symbols,
    List.cons_append, List.nil_append, List.append_nil]

end

inductive Legible : NodeSort → Tree → Prop
  | int (location : Location) (value : Int32) : Legible .expression (.node (.int location value))
  | string (location : Location) (contents : String) :
      Legible .expression (.node (.string location (.ok contents)))
  | binary (location : Location) (operator : Operator) {left right : Tree}
      (leftLegible : Legible .expression left) (rightLegible : Legible .expression right) :
      Legible .expression (.node (.binary location operator left right))
  | sequence (location : Location) (first : Tree) (rest : List Tree)
      (legible : ∀ element ∈ first :: rest, Legible .expression element) :
      Legible .expression (.node (.sequence location (first :: rest)))
  | letIn (location : Location) (decls : List Tree) (first : Tree) (rest : List Tree)
      (declsLegible : ∀ decl ∈ decls, Legible .declaration decl)
      (bodyLegible : ∀ element ∈ first :: rest, Legible .expression element) :
      Legible .expression (.node (.letIn location decls (first :: rest)))
  | identifier (location : Location) {name : String} (isName : isIdentifier name)
      (site : Option (Except Fault Site)) (depth : UInt32) :
      Legible .expression (.node (.identifier location (.ok name) site depth))
  | ifThenElse (location : Location) {condition thenBranch elseBranch : Tree}
      (conditionLegible : Legible .expression condition)
      (thenLegible : Legible .expression thenBranch)
      (elseLegible : Legible .expression elseBranch) :
      Legible .expression (.node (.ifThenElse location condition thenBranch elseBranch))
  | call (location : Location) {function : String} (isName : isIdentifier function)
      (site : Option (Except Fault Site)) (arguments : List Tree)
      (legible : ∀ argument ∈ arguments, Legible .expression argument) :
      Legible .expression (.node (.call location (.ok function) site arguments))
  | whileLoop (location : Location) {condition body : Tree}
      (conditionLegible : Legible .expression condition)
      (bodyLegible : Legible .expression body) :
      Legible .expression (.node (.whileLoop location condition body))
  | forLoop (location : Location) {heading : Heading} {name : String}
      (named : heading.name = .ok name) (isName : isIdentifier name) {low high body : Tree}
      (lowLegible : Legible .expression low) (highLegible : Legible .expression high)
      (bodyLegible : Legible .expression body) :
      Legible .expression (.node (.forLoop location (.bound heading low) high body))
  | breakLoop (location : Location) (target : Option (Except Fault Location)) :
      Legible .expression (.node (.breakLoop location target))
  | assign (location identifierLocation : Location) {name : String} (isName : isIdentifier name)
      (site : Option (Except Fault Site)) (depth : UInt32) {value : Tree}
      (valueLegible : Legible .expression value) :
      Legible .expression (.node (.assign location
        (.node (.identifier identifierLocation (.ok name) site depth)) value))
  | varDecl {heading : Heading} {name : String} (named : heading.name = .ok name)
      (isName : isIdentifier name) (typed : heading.IsTyped) {initializer : Tree}
      (legible : Legible .expression initializer) :
      Legible .declaration (.node (.varDecl heading initializer))
  | parameter {heading : Heading} {name : String} (named : heading.name = .ok name)
      (isName : isIdentifier name) (typed : heading.IsTyped) :
      Legible .declaration (.node (.parameter heading))
  | funDecl {heading : Heading} {name : String} (named : heading.name = .ok name)
      (isName : isIdentifier name) (typed : heading.IsTyped) (loweredName : Option LoweredName)
      (parameters : List Tree)
      (parametersLegible : ∀ parameter ∈ parameters, Legible .declaration parameter)
      {body : Tree} (bodyLegible : Legible .expression body) :
      Legible .declaration (.node (.funDecl heading loweredName (.ok parameters) body))

end TigerTree
