import TigerTree.Evaluation.Basic
import TigerTree.Proofs.Building.Growth
import TigerTree.Proofs.Interchange.Fidelity
import TigerTree.Rendering.Basic

/-! What a restored tree does. An index of names is a finite map and may be listed in any order,
so two listings of one arena are compared by the answers of their indices: they evaluate, render
and intern alike. -/

set_option autoImplicit false

namespace TigerTree

structure NameTable.Alike (left right : NameTable) : Prop where
  texts : left.texts = right.texts
  find? : ∀ text, left.find? text = right.find? text

structure Arena.Alike (left right : Arena) : Prop where
  exprs : left.exprs = right.exprs
  exprLists : left.exprLists = right.exprLists
  decls : left.decls = right.decls
  declLists : left.declLists = right.declLists
  names : left.names.Alike right.names

namespace NameTable

def answers (table : NameTable) : List String → List (Except Full Name)
  | [] => []
  | text :: rest =>
      match intern text table with
      | .ok name next => .ok name :: next.answers rest
      | .error full next => .error full :: next.answers rest

variable {left right : NameTable}

theorem Alike.size_eq (alike : left.Alike right) : left.size = right.size :=
  congrArg Array.size alike.texts

theorem Alike.push (alike : left.Alike right) (added : String) :
    (left.push added).Alike (right.push added) where
  texts := congrArg (fun texts => texts.push added) alike.texts
  find? text := by rw [find?_push, find?_push, alike.size_eq, alike.find?]

/-- Interning a text has the same answer in both tables and leaves them alike. -/
theorem Alike.intern (alike : left.Alike right) (text : String) :
    (∃ name leftNext rightNext, NameTable.intern text left = .ok name leftNext ∧
      NameTable.intern text right = .ok name rightNext ∧ leftNext.Alike rightNext) ∨
    (∃ full, NameTable.intern text left = .error full left ∧
      NameTable.intern text right = .error full right) := by
  have sameSize := alike.size_eq
  have sameAnswer := alike.find? text
  cases known : right.find? text with
  | some name =>
      rw [known] at sameAnswer
      refine .inl ⟨name, left, right, ?_, ?_, alike⟩
      · simp only [NameTable.intern, sameAnswer]
      · simp only [NameTable.intern, known]
  | none =>
      rw [known] at sameAnswer
      by_cases room : right.size < wordLimit
      · refine .inl ⟨⟨right.size.toUInt32⟩, left.push text, right.push text, ?_, ?_, alike.push text⟩
        · simp only [NameTable.intern, sameAnswer, sameSize, if_pos room]
        · simp only [NameTable.intern, known, if_pos room]
      · refine .inr ⟨⟨right.size⟩, ?_, ?_⟩
        · simp only [NameTable.intern, sameAnswer, sameSize, if_neg room]
        · simp only [NameTable.intern, known, if_neg room]

theorem Alike.answers (alike : left.Alike right) (texts : List String) :
    left.answers texts = right.answers texts := by
  induction texts generalizing left right with
  | nil => rfl
  | cons text rest ih =>
      rcases alike.intern text with ⟨name, leftNext, rightNext, onLeft, onRight, next⟩ |
        ⟨full, onLeft, onRight⟩
      · simp only [NameTable.answers, onLeft, onRight, ih next]
      · simp only [NameTable.answers, onLeft, onRight, ih alike]

end NameTable

namespace Arena

variable {left right : Arena}

private theorem evaluateWithin_alike (alike : left.Alike right) (length : Nat) :
    left.evaluateWithin length = right.evaluateWithin length := by
  obtain ⟨leftExprs, leftExprLists, leftDecls, leftDeclLists, leftNames⟩ := left
  obtain ⟨rfl, rfl, rfl, rfl, _⟩ := alike
  induction length with
  | zero => rfl
  | succ length ih =>
      funext id
      rw [evaluateWithin, evaluateWithin, ih]
      rfl

theorem Alike.evaluate (alike : left.Alike right) (node : NodeId) :
    left.evaluate node = right.evaluate node := by
  have within := evaluateWithin_alike alike left.pathBound
  obtain ⟨leftExprs, leftExprLists, leftDecls, leftDeclLists, leftNames⟩ := left
  obtain ⟨rfl, rfl, rfl, rfl, _⟩ := alike
  cases node with
  | expr id => exact congrFun within id
  | decl id => rfl

private theorem draftWithin_alike (alike : left.Alike right) (verbose : Bool) (length : Nat) :
    left.draftWithin verbose length = right.draftWithin verbose length := by
  obtain ⟨leftExprs, leftExprLists, leftDecls, leftDeclLists, leftIndex, leftTexts⟩ := left
  obtain ⟨rfl, rfl, rfl, rfl, rfl, _⟩ := alike
  induction length with
  | zero => rfl
  | succ length ih =>
      funext node
      cases node with
      | expr id =>
          rw [draftWithin, draftWithin, ih]
          rfl
      | decl id =>
          rw [draftWithin, draftWithin, ih]
          rfl

theorem Alike.render (alike : left.Alike right) (style : Style) (node : NodeId) :
    left.render style node = right.render style node := by
  have sameBound : left.pathBound = right.pathBound := by
    rw [pathBound, pathBound, alike.exprs, alike.decls]
  rw [Arena.render, Arena.render, renderOn, renderOn, draftWithin_alike alike, sameBound]

/-- An arena reads back from its value, whatever its tables hold; listing the index of names in
another order changes neither what its nodes evaluate and render to nor what interning answers.
And an arena that was read from any value is written as that value, without the fields nothing
asks for and with null for those that are missing. -/
theorem ofValue?_toValue (arena : Arena) :
    Arena.ofValue? arena.toValue = some arena ∧
    (∀ restored : Arena, restored.Alike arena →
      (∀ node, restored.evaluate node = arena.evaluate node) ∧
      (∀ style node, restored.render style node = arena.render style node) ∧
      ∀ texts, restored.names.answers texts = arena.names.answers texts) ∧
    ∀ value, Arena.ofValue? value = some arena → arena.toValue = schema.complete value := by
  constructor
  · exact exchanged.read_write arena
  constructor
  · intro restored alike
    exact ⟨alike.evaluate, alike.render, alike.names.answers⟩
  · intro value found
    exact exchanged.write_of_read found

end Arena

def loneBreak : Arena where
  exprs := #[⟨.breakLoop none, ⟨1, 2⟩⟩]
  exprLists := #[]
  decls := #[]
  declLists := #[]
  names := ⟨[("", ⟨0⟩), ("a", ⟨1⟩)], #["", "a"]⟩

def relistedBreak : Arena :=
  { loneBreak with names := ⟨[("a", ⟨1⟩), ("", ⟨0⟩)], #["", "a"]⟩ }

/-- A value of `loneBreak` with a field of its own and without the loop, which is null anyway. -/
def sparseBreak : Value :=
  .object
    [("exprs", .list [.object
        [("kind", .ofVariant "Break" (.object [])), ("note", .bool true),
          ("loc", .object [("column", .number 2), ("line", .number 1)])]]),
      ("expr_lists", .list []), ("decls", .list []), ("decl_lists", .list []),
      ("interner", .object
        [("map", .object [("", .number 0), ("a", .number 1)]),
          ("strings", .list [.string "", .string "a"])])]

theorem ofValue?_sparseBreak :
    relistedBreak.Alike loneBreak ∧
      relistedBreak.names.answers ["a", "b"] = loneBreak.names.answers ["a", "b"] ∧
      Arena.ofValue? sparseBreak = some loneBreak ∧
      loneBreak.toValue = Arena.schema.complete sparseBreak := by
  have alike : relistedBreak.Alike loneBreak := by
    refine ⟨rfl, rfl, rfl, rfl, rfl, ?_⟩
    intro text
    change List.lookup text [("a", (⟨1⟩ : Name)), ("", ⟨0⟩)] =
      List.lookup text [("", (⟨0⟩ : Name)), ("a", ⟨1⟩)]
    by_cases isA : text = "a"
    · rw [isA]
      rfl
    · by_cases isEmpty : text = ""
      · rw [isEmpty]
        rfl
      · simp [List.lookup_cons, beq_false_of_ne isA, beq_false_of_ne isEmpty]
  have found : Arena.ofValue? sparseBreak = some loneBreak := by decide +kernel
  have restored := Arena.ofValue?_toValue loneBreak
  exact ⟨alike, (restored.2.1 relistedBreak alike).2.2 ["a", "b"], found,
    restored.2.2 sparseBreak found⟩

end TigerTree
