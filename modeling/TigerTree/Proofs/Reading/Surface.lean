import TigerTree.Proofs.Reading.Tokens
import TigerTree.Proofs.Unfolding.Tree

/-! The surface of a tree: what its text says of it. A reader of tokens finds it again. The reader
looks at most two tokens ahead, and takes for fuel the number of tokens that it may use. -/

set_option autoImplicit false

namespace TigerTree

variable {Child : Type}

/-- The type of a variable as it is printed: the written one, else the one that checking found. -/
def Heading.printedType (heading : Heading) : Option (Except Fault String) :=
  match heading.typeName with
  | some typeName => some typeName
  | none => heading.type.surfaceName?.map .ok

def Heading.plain (name : Except Fault String) (typeName : Option (Except Fault String)) :
    Heading :=
  ⟨name, Location.dummy, 0, typeName, .undefined, false⟩

/-- The layer without locations, depths, links, capture marks and lowered names; of types only
what is printed, and of a loop variable only the name and the initializer. -/
def Layer.surface : Layer Child → Layer Child
  | .broken fault => .broken fault
  | .int _ value => .int Location.dummy value
  | .string _ contents => .string Location.dummy contents
  | .binary _ operator left right => .binary Location.dummy operator left right
  | .sequence _ elements => .sequence Location.dummy elements
  | .letIn _ decls body => .letIn Location.dummy decls body
  | .identifier _ name _ _ => .identifier Location.dummy name none 0
  | .ifThenElse _ condition thenBranch elseBranch =>
      .ifThenElse Location.dummy condition thenBranch elseBranch
  | .call _ function _ arguments => .call Location.dummy function none arguments
  | .whileLoop _ condition body => .whileLoop Location.dummy condition body
  | .forLoop _ (.bound heading low) high body =>
      .forLoop Location.dummy (.bound (.plain heading.name none) low) high body
  | .forLoop _ start high body => .forLoop Location.dummy start high body
  | .breakLoop _ _ => .breakLoop Location.dummy none
  | .assign _ target value => .assign Location.dummy target value
  | .varDecl heading initializer =>
      .varDecl (.plain heading.name heading.printedType) initializer
  | .parameter heading => .parameter (.plain heading.name heading.printedType)
  | .funDecl heading _ parameters body =>
      .funDecl (.plain heading.name heading.typeName) none parameters body

def Tree.surface (tree : Tree) : Tree :=
  tree.fold (fun layer => .node layer.surface)

theorem Tree.surface_node (layer : Layer Tree) :
    (Tree.node layer).surface = .node (layer.map Tree.surface).surface :=
  Tree.fold_node _ layer

abbrev Reader (Result : Type) := List Token → Option (Result × List Token)

inductive NodeSort where
  | expression
  | declaration
  deriving DecidableEq

namespace Reader

def expect (token : Token) : Reader Unit
  | first :: rest => if first = token then some ((), rest) else none
  | [] => none

def operator : Reader Operator
  | .symbol '<' :: .symbol '=' :: rest => some (.le, rest)
  | .symbol '>' :: .symbol '=' :: rest => some (.ge, rest)
  | .symbol '+' :: rest => some (.add, rest)
  | .symbol '-' :: rest => some (.sub, rest)
  | .symbol '*' :: rest => some (.mul, rest)
  | .symbol '/' :: rest => some (.div, rest)
  | .symbol '=' :: rest => some (.eq, rest)
  | .symbol '<' :: rest => some (.lt, rest)
  | .symbol '>' :: rest => some (.gt, rest)
  | _ => none

def number (isNegative : Bool) (digits : String) (rest : List Token) :
    Option (Tree × List Token) :=
  let magnitude : Int := Nat.ofDigitChars 10 digits.toList 0
  let value := if isNegative then -magnitude else magnitude
  if digits.toList.all (·.isDigit) then
    some (.node (.int Location.dummy (Int32.ofInt value)), rest)
  else none

def writtenType : List Token → Option (Except Fault String) × List Token
  | .symbol ':' :: .name typeName :: rest => (some (.ok typeName), rest)
  | tokens => (none, tokens)

def more (item : Reader Tree) (separator : Char) : Nat → Reader (List Tree)
  | 0, tokens => some ([], tokens)
  | fuel + 1, tokens =>
      if tokens.head? = some (.symbol separator) then do
        let (first, rest) ← item tokens.tail
        let (others, rest) ← more item separator fuel rest
        some (first :: others, rest)
      else some ([], tokens)

def listed (item : Reader Tree) (fuel : Nat) : Reader (List Tree) := fun tokens =>
  if tokens.head? = some (.symbol ')') then some ([], tokens.tail)
  else do
    let (first, rest) ← item tokens
    let (others, rest) ← more item ',' fuel rest
    let (_, rest) ← expect (.symbol ')') rest
    some (first :: others, rest)

def declarations (item : Reader Tree) : Nat → Reader (List Tree)
  | 0, _ => none
  | fuel + 1, tokens =>
      if tokens.head? = some (.keyword "in") then some ([], tokens.tail)
      else do
        let (first, rest) ← item tokens
        let (others, rest) ← declarations item fuel rest
        some (first :: others, rest)

section

variable (below : NodeSort → Reader Tree) (fuel : Nat)

/-- What may follow an opening parenthesis: an operation or a sequence. -/
def parenthesized : Reader Tree := fun tokens => do
  let (first, rest) ← below .expression tokens
  match operator rest with
  | some (operator, rest) => do
      let (right, rest) ← below .expression rest
      let (_, rest) ← expect (.symbol ')') rest
      some (.node (.binary Location.dummy operator first right), rest)
  | none => do
      let (others, rest) ← more (below .expression) ';' fuel rest
      let (_, rest) ← expect (.symbol ')') rest
      some (.node (.sequence Location.dummy (first :: others)), rest)

def named (name : String) : Reader Tree
  | .symbol '(' :: rest => do
      let (arguments, rest) ← listed (below .expression) fuel rest
      some (.node (.call Location.dummy (.ok name) none arguments), rest)
  | .symbol ':' :: .symbol '=' :: rest => do
      let (value, rest) ← below .expression rest
      some (.node (.assign Location.dummy
        (.node (.identifier Location.dummy (.ok name) none 0)) value), rest)
  | rest => some (.node (.identifier Location.dummy (.ok name) none 0), rest)

def letIn : Reader Tree := fun tokens => do
  let (decls, rest) ← declarations (below .declaration) fuel tokens
  let (first, rest) ← below .expression rest
  let (others, rest) ← more (below .expression) ';' fuel rest
  let (_, rest) ← expect (.keyword "end") rest
  some (.node (.letIn Location.dummy decls (first :: others)), rest)

def ifThenElse : Reader Tree := fun tokens => do
  let (condition, rest) ← below .expression tokens
  let (_, rest) ← expect (.keyword "then") rest
  let (thenBranch, rest) ← below .expression rest
  let (_, rest) ← expect (.keyword "else") rest
  let (elseBranch, rest) ← below .expression rest
  some (.node (.ifThenElse Location.dummy condition thenBranch elseBranch), rest)

def whileLoop : Reader Tree := fun tokens => do
  let (condition, rest) ← below .expression tokens
  let (_, rest) ← expect (.keyword "do") rest
  let (body, rest) ← below .expression rest
  some (.node (.whileLoop Location.dummy condition body), rest)

def forLoop (name : String) : Reader Tree := fun tokens => do
  let (_, rest) ← expect (.symbol ':') tokens
  let (_, rest) ← expect (.symbol '=') rest
  let (low, rest) ← below .expression rest
  let (_, rest) ← expect (.keyword "to") rest
  let (high, rest) ← below .expression rest
  let (_, rest) ← expect (.keyword "do") rest
  let (body, rest) ← below .expression rest
  some (.node (.forLoop Location.dummy (.bound (.plain (.ok name) none) low) high body), rest)

def expression : Reader Tree
  | .literal contents :: rest => some (.node (.string Location.dummy (.ok contents)), rest)
  | .number digits :: rest => number false digits rest
  | .symbol '-' :: .number digits :: rest => number true digits rest
  | .symbol '(' :: rest => parenthesized below fuel rest
  | .name name :: rest => named below fuel name rest
  | .keyword "let" :: rest => letIn below fuel rest
  | .keyword "if" :: rest => ifThenElse below rest
  | .keyword "while" :: rest => whileLoop below rest
  | .keyword "for" :: .name name :: rest => forLoop below name rest
  | .keyword "break" :: rest => some (.node (.breakLoop Location.dummy none), rest)
  | _ => none

def varDecl (name : String) : Reader Tree := fun tokens => do
  let (typeName, rest) := writtenType tokens
  let (_, rest) ← expect (.symbol ':') rest
  let (_, rest) ← expect (.symbol '=') rest
  let (initializer, rest) ← below .expression rest
  some (.node (.varDecl (.plain (.ok name) typeName) initializer), rest)

def funDecl (name : String) : Reader Tree := fun tokens => do
  let (_, rest) ← expect (.symbol '(') tokens
  let (parameters, rest) ← listed (below .declaration) fuel rest
  let (typeName, rest) := writtenType rest
  let (_, rest) ← expect (.symbol '=') rest
  let (body, rest) ← below .expression rest
  some (.node (.funDecl (.plain (.ok name) typeName) none (.ok parameters) body), rest)

def parameter (name : String) : Reader Tree := fun tokens =>
  let (typeName, rest) := writtenType tokens
  some (.node (.parameter (.plain (.ok name) typeName)), rest)

def declaration : Reader Tree
  | .keyword "var" :: .name name :: rest => varDecl below name rest
  | .keyword "function" :: .name name :: rest => funDecl below fuel name rest
  | .name name :: rest => parameter name rest
  | _ => none

theorem named_open (name : String) (rest : List Token) :
    named below fuel name (.symbol '(' :: rest) =
      (do
        let (arguments, rest) ← listed (below .expression) fuel rest
        some (.node (.call Location.dummy (.ok name) none arguments), rest)) := rfl

theorem named_assign (name : String) (rest : List Token) :
    named below fuel name (.symbol ':' :: .symbol '=' :: rest) =
      (do
        let (value, rest) ← below .expression rest
        some (.node (.assign Location.dummy
          (.node (.identifier Location.dummy (.ok name) none 0)) value), rest)) := rfl

theorem expression_open (rest : List Token) :
    expression below fuel (.symbol '(' :: rest) = parenthesized below fuel rest := rfl

theorem expression_name (name : String) (rest : List Token) :
    expression below fuel (.name name :: rest) = named below fuel name rest := rfl

theorem expression_number (digits : String) (rest : List Token) :
    expression below fuel (.number digits :: rest) = number false digits rest := rfl

theorem expression_minus (digits : String) (rest : List Token) :
    expression below fuel (.symbol '-' :: .number digits :: rest) = number true digits rest := rfl

theorem expression_let (rest : List Token) :
    expression below fuel (.keyword "let" :: rest) = letIn below fuel rest := rfl

theorem expression_if (rest : List Token) :
    expression below fuel (.keyword "if" :: rest) = ifThenElse below rest := rfl

theorem expression_while (rest : List Token) :
    expression below fuel (.keyword "while" :: rest) = whileLoop below rest := rfl

theorem expression_for (name : String) (rest : List Token) :
    expression below fuel (.keyword "for" :: .name name :: rest) = forLoop below name rest := rfl

theorem declaration_var (name : String) (rest : List Token) :
    declaration below fuel (.keyword "var" :: .name name :: rest) = varDecl below name rest := rfl

theorem declaration_function (name : String) (rest : List Token) :
    declaration below fuel (.keyword "function" :: .name name :: rest) =
      funDecl below fuel name rest := rfl

theorem declaration_name (name : String) (rest : List Token) :
    declaration below fuel (.name name :: rest) = parameter name rest := rfl

end

/-- Reads a node of the given sort. Every level of nesting uses a token. -/
def node : Nat → NodeSort → Reader Tree
  | 0, _, _ => none
  | fuel + 1, .expression, tokens => expression (node fuel) fuel tokens
  | fuel + 1, .declaration, tokens => declaration (node fuel) fuel tokens

end Reader
end TigerTree
