import TigerTree.Proofs.Rendering.Layout
import TigerTree.Proofs.Rendering.Vocabulary

/-! When rendering fails. A sequence without elements, a `let` without a body and a `for` loop
without a start have no text. Where every lookup succeeds, rendering reports the first of these
in document order, and if there is none it succeeds. -/

set_option autoImplicit false

namespace TigerTree

variable {Child Other : Type}

/-- What is wrong with the node itself, whatever its children are. -/
def Layer.violation? : Layer Child → Option (Violation × Location)
  | .sequence location [] => some (.emptySequence, location)
  | .letIn location _ [] => some (.emptyLetBody, location)
  | .forLoop location .missing _ _ => some (.missingLoopBound, location)
  | _ => none

theorem Layer.violation?_map (change : Child → Other) (layer : Layer Child) :
    (layer.map change).violation? = layer.violation? := by
  cases layer with
  | sequence location elements => cases elements <;> rfl
  | letIn location decls body => cases body <;> rfl
  | forLoop location start high body => cases start <;> rfl
  | _ => rfl

/-- The first violation below a node, the node itself included. -/
def Arena.firstViolation? (arena : Arena) (root : NodeId) : Option (Violation × Location) :=
  (arena.preorder root).findSome? (fun node => (arena.layer node).violation?)

/-- How a rendering ends that meets the violation. -/
def Stop.ofViolation (found : Violation × Location) : Stop RenderError :=
  .diagnosed (.violated found.1 found.2)

theorem findSome?_cons_eq_or {Item Result : Type} (find : Item → Option Result)
    (item : Item) (rest : List Item) :
    (item :: rest).findSome? find = (find item).or (rest.findSome? find) := by
  rw [List.findSome?_cons]
  cases find item <;> rfl

namespace Passage

def reason? (passage : Passage) : Option (Stop RenderError) :=
  passage.stop.map Prod.fst

@[simp]
theorem reason?_empty : empty.reason? = none := by
  simp [reason?, empty]

@[simp]
theorem reason?_write (piece : Piece) : (write piece).reason? = none := by
  simp [reason?, write]

@[simp]
theorem reason?_text (words : String) : (text words).reason? = none := by
  simp [reason?, text, write]

@[simp]
theorem reason?_line : line.reason? = none := by
  simp [reason?, line, write]

@[simp]
theorem reason?_halt (stop : Stop RenderError) : (halt stop).reason? = some stop := by
  simp [reason?, halt]

@[simp]
theorem reason?_append (first second : Passage) :
    (first ++ second).reason? = first.reason?.or second.reason? := by
  cases stops : first.stop with
  | none => simp [append_of_complete stops, reason?, stops]
  | some stopped => simp [append_of_stopped stops, reason?, stops]

@[simp]
theorem reason?_raise (levels : Nat) (passage : Passage) :
    (raise levels passage).reason? = passage.reason? := by
  simp [raise, reason?, Function.comp_def]

theorem reason?_look {Result : Type} {lookup : Except Fault Result}
    {written : Result → Passage} (found : lookup.isOk)
    (completes : ∀ result, (written result).reason? = none) :
    (look lookup written).reason? = none := by
  cases lookup with
  | ok result => exact completes result
  | error fault => cases found

@[simp]
theorem findSome?_cons (passage : Passage) (rest : List Passage) :
    (passage :: rest).findSome? reason? = passage.reason?.or (rest.findSome? reason?) :=
  findSome?_cons_eq_or reason? passage rest

/-- Children written in order stop where the first of them does. -/
@[simp]
theorem reason?_eachAfter {lead : Passage} (completes : lead.reason? = none)
    (passages : List Passage) :
    (eachAfter lead passages).reason? = passages.findSome? reason? := by
  induction passages with
  | nil => rfl
  | cons passage rest ih =>
      rw [eachAfter, reason?_append, reason?_append, completes, ih, findSome?_cons, Option.none_or]

@[simp]
theorem reason?_joined {separator : Passage} (completes : separator.reason? = none)
    (passages : List Passage) :
    (joined separator passages).reason? = passages.findSome? reason? := by
  cases passages with
  | nil => rfl
  | cons passage rest =>
      rw [joined, reason?_append, reason?_eachAfter completes, findSome?_cons]

@[simp]
theorem findSome?_map_raise (levels : Nat) (passages : List Passage) :
    (passages.map (raise levels)).findSome? reason? = passages.findSome? reason? := by
  simp [List.findSome?_map, Function.comp_def]

end Passage

section

variable {verbose : Bool}

private theorem reason?_name {spelling : Except Fault String} (found : spelling.isOk) :
    (Passage.look spelling Passage.text).reason? = none :=
  Passage.reason?_look found (fun _ => rfl)

private theorem reason?_note {layer : Layer Passage} (readable : layer.isReadable verbose) :
    (Item.passage verbose (.note layer.note)).reason? = none := by
  cases noted : layer.note with
  | none => rfl
  | some words =>
      cases verbose with
      | false => rfl
      | true => exact Passage.reason?_look (layer.isOk_of_note readable noted) (fun _ => rfl)

private theorem reason?_resultType (verbose : Bool) {heading : Heading}
    (typed : heading.typeName.all (·.isOk)) :
    (Passage.ofItems verbose (Item.resultType heading)).reason? = none := by
  unfold Item.resultType
  cases written : heading.typeName with
  | some typeName =>
      rw [written] at typed
      simp [reason?_name typed]
  | none => rfl

private theorem reason?_variableType (verbose : Bool) {heading : Heading}
    (typed : heading.typeName.all (·.isOk)) :
    (Passage.ofItems verbose (Item.variableType heading)).reason? = none := by
  unfold Item.variableType
  cases written : heading.typeName with
  | some typeName =>
      rw [written] at typed
      simp [reason?_name typed]
  | none => cases heading.type <;> rfl

/-- A node whose lookups succeed stops for its own violation, else where its first child does. -/
theorem Layer.reason?_passage {layer : Layer Passage} (readable : layer.isReadable verbose) :
    (layer.passage verbose).reason? =
      (layer.violation?.map Stop.ofViolation).or (layer.children.findSome? Passage.reason?) := by
  have intact := layer.isIntact_of_isReadable readable
  have noted := reason?_note readable
  have named {name : Except Fault String} (member : name ∈ layer.names) :
      (Passage.look name Passage.text).reason? = none := by
    rw [← layer.names_withoutLinks] at member
    exact reason?_name (layer.withoutLinks.isOk_of_mem_names intact member)
  cases layer with
  | broken fault => cases intact
  | int location value => rfl
  | string location contents =>
      have found := Passage.reason?_look intact (fun contents =>
        Passage.reason?_write (.literal contents))
      simp [Layer.passage, sketch, violation?, children, found]
  | sequence location elements =>
      cases elements with
      | nil => rfl
      | cons first rest => simp [Layer.passage, sketch, violation?, children]
  | letIn location decls body =>
      cases body with
      | nil => rfl
      | cons first rest => simp [Layer.passage, sketch, violation?, children]
  | identifier location name site depth =>
      have found := named List.mem_cons_self
      simp [Layer.passage, sketch, violation?, children, found, noted]
  | call location function site arguments =>
      have found := named List.mem_cons_self
      simp [Layer.passage, sketch, violation?, children, found, noted]
  | forLoop location start high body =>
      cases start with
      | lost fault => cases intact
      | missing => rfl
      | bound heading low =>
          have found := named List.mem_cons_self
          simp [Layer.passage, sketch, violation?, children, LoopStart.children, found, noted]
  | breakLoop location target => simp [Layer.passage, sketch, violation?, children, noted]
  | varDecl heading initializer =>
      have found := named List.mem_cons_self
      have typed := reason?_variableType verbose ((Bool.and_eq_true _ _).mp intact).2
      simp [Layer.passage, sketch, violation?, children, found, noted, typed]
  | parameter heading =>
      have found := named List.mem_cons_self
      have typed := reason?_variableType verbose ((Bool.and_eq_true _ _).mp intact).2
      simp [Layer.passage, sketch, violation?, children, found, noted, typed]
  | funDecl heading loweredName parameters body =>
      cases parameters with
      | error fault => simp [isIntact, withoutLinks, Except.isOk, Except.toBool] at intact
      | ok parameters =>
          have found := named List.mem_cons_self
          have headed : heading.isIntact := by
            simp only [isIntact, withoutLinks, Bool.and_eq_true] at intact
            exact intact.1.1
          have typed := reason?_resultType verbose ((Bool.and_eq_true _ _).mp headed).2
          simp [Layer.passage, sketch, violation?, children, listed, found, noted, typed]
  | _ => simp [Layer.passage, sketch, violation?, children]

end

/-! ### Why a rendering stops -/

theorem findSome?_flatMap {First Second Result : Type} (expand : First → List Second)
    (find : Second → Option Result) (items : List First) :
    (items.flatMap expand).findSome? find =
      items.findSome? (fun item => (expand item).findSome? find) := by
  induction items with
  | nil => rfl
  | cons item rest ih =>
      rw [List.flatMap_cons, List.findSome?_append, ih, findSome?_cons_eq_or]

private theorem findSome?_congr {Item Result : Type} {first second : Item → Option Result}
    {items : List Item} (agree : ∀ item ∈ items, first item = second item) :
    items.findSome? first = items.findSome? second := by
  induction items with
  | nil => rfl
  | cons item rest ih =>
      rw [List.findSome?_cons, List.findSome?_cons, agree item List.mem_cons_self,
        ih (fun later member => agree later (List.mem_cons_of_mem _ member))]

namespace Arena

variable {arena : Arena}

theorem reason?_unfoldWithin {verbose : Bool} {length : Nat} {root : NodeId}
    (within : arena.Within length root)
    (readable : arena.Throughout (fun layer => layer.isReadable verbose) root) :
    ((arena.unfoldWithin length root).passage verbose).reason? =
      ((arena.preorderWithin length root).findSome? (fun node =>
        (arena.layer node).violation?)).map Stop.ofViolation := by
  induction length generalizing root with
  | zero => exact within.elim
  | succ length ih =>
      have below : ∀ child ∈ (arena.layer root).children,
          ((arena.unfoldWithin length child).passage verbose).reason? =
            ((arena.preorderWithin length child).findSome? (fun node =>
              (arena.layer node).violation?)).map Stop.ofViolation := by
        intro child owned
        apply ih (within child owned)
        intro node reached
        exact readable node (.head owned reached)
      have here : ((arena.layer root).map (fun child =>
          (arena.unfoldWithin length child).passage verbose)).isReadable verbose := by
        rw [Layer.isReadable_map]
        exact readable root .refl
      rw [unfoldWithin, Tree.passage_node, Layer.map_map, Layer.reason?_passage here,
        Layer.violation?_map, Layer.children_map, List.findSome?_map, preorderWithin,
        List.findSome?_cons, findSome?_flatMap]
      cases (arena.layer root).violation? with
      | some found => rfl
      | none =>
          rw [Option.map_none, Option.none_or, List.map_findSome?]
          exact findSome?_congr below

/-- Rendering is decided by the first violation, unless a line is too wide. -/
theorem render_of_firstViolation {style : Style} {root : NodeId}
    (acyclic : arena.Acyclic root)
    (readable : arena.Throughout (fun layer => layer.isReadable style.verbose) root)
    (narrow : arena.render style root ≠ .error (.faulted .arithmeticOverflow)) :
    match arena.firstViolation? root with
    | none => ∃ text, arena.render style root = .ok text
    | some found => arena.render style root = .error (Stop.ofViolation found) := by
  have stops := reason?_unfoldWithin acyclic.within readable
  change ((arena.unfold root).passage style.verbose).reason? =
    (arena.firstViolation? root).map Stop.ofViolation at stops
  have fits : Fits style.indentSize 0 ((arena.unfold root).passage style.verbose).pieces := by
    by_contra wide
    exact narrow (render_of_not_fits rfl wide)
  have rendered := render_of_fits rfl fits
  cases first : arena.firstViolation? root with
  | none =>
      rw [first] at stops
      rw [Option.map_eq_none_iff.mp stops] at rendered
      exact ⟨_, rendered⟩
  | some found =>
      rw [first] at stops
      obtain ⟨⟨reason, depth⟩, isStop, same⟩ := Option.map_eq_some_iff.mp stops
      cases same
      rw [isStop] at rendered
      exact rendered

/-- Nothing but the width of a line keeps a node from being rendered below which lookups succeed
and nothing is violated. -/
theorem exists_render_of_sound {style : Style} {root : NodeId} (acyclic : arena.Acyclic root)
    (readable : arena.Throughout (fun layer => layer.isReadable style.verbose) root)
    (sound : arena.Throughout (fun layer => layer.violation? = none) root)
    (narrow : arena.render style root ≠ .error (.faulted .arithmeticOverflow)) :
    ∃ text, arena.render style root = .ok text := by
  have unobjected : arena.firstViolation? root = none := by
    rw [firstViolation?, List.findSome?_eq_none_iff]
    exact fun node member => sound node ((mem_preorder acyclic).mp member)
  have rendered := render_of_firstViolation acyclic readable narrow
  rw [unobjected] at rendered
  exact rendered

/-- Rendering fails exactly if a violation lies below the root, and then reports the first one in
document order. No link is followed for that, and the style has no part in it. -/
theorem render_fails_iff_violation {style : Style} {root : NodeId}
    (acyclic : arena.Acyclic root)
    (readable : arena.Throughout (fun layer => layer.isReadable style.verbose) root)
    (narrow : arena.render style root ≠ .error (.faulted .arithmeticOverflow)) :
    ((∃ stop, arena.render style root = .error stop) ↔
      ∃ node, arena.Reaches root node ∧ (arena.layer node).violation?.isSome) ∧
    (∀ stop, arena.render style root = .error stop →
      ∃ violation location, arena.firstViolation? root = some (violation, location) ∧
        stop = .diagnosed (.violated violation location)) ∧
    (∀ other : Style,
      arena.Throughout (fun layer => layer.isReadable other.verbose) root →
      arena.render other root ≠ .error (.faulted .arithmeticOverflow) →
      ∀ stop, arena.render other root = .error stop ↔ arena.render style root = .error stop) := by
  have here := render_of_firstViolation acyclic readable narrow
  have violated : (arena.firstViolation? root).isSome ↔
      ∃ node, arena.Reaches root node ∧ (arena.layer node).violation?.isSome := by
    rw [firstViolation?, List.findSome?_isSome_iff]
    simp only [mem_preorder acyclic]
  rw [← violated]
  cases first : arena.firstViolation? root with
  | none =>
      rw [first] at here
      obtain ⟨text, rendered⟩ := here
      refine ⟨?_, ?_, ?_⟩
      · simp [rendered]
      · intro stop failed
        rw [rendered] at failed
        cases failed
      · intro other readableToo narrowToo stop
        have there := render_of_firstViolation acyclic readableToo narrowToo
        rw [first] at there
        obtain ⟨otherText, renderedToo⟩ := there
        simp [rendered, renderedToo]
  | some found =>
      rw [first] at here
      refine ⟨?_, ?_, ?_⟩
      · simp [here]
      · intro stop failed
        rw [here] at failed
        cases failed
        exact ⟨found.1, found.2, rfl, rfl⟩
      · intro other readableToo narrowToo stop
        have there := render_of_firstViolation acyclic readableToo narrowToo
        rw [first] at there
        rw [here, there]

end Arena

/-- A break that leads to a loop without a start, a `let` without a body and a sequence without
elements. The break is met first, but its loop is no part of the tree. -/
def objectionable : Arena :=
  { Arena.initial with
    exprs := #[
      ⟨.int 1, ⟨1, 1⟩⟩,
      ⟨.sequence ⟨0, 0⟩, ⟨2, 1⟩⟩,
      ⟨.letIn ⟨0, 0⟩ ⟨0, 0⟩, ⟨3, 1⟩⟩,
      ⟨.breakLoop (some ⟨5⟩), ⟨4, 1⟩⟩,
      ⟨.ifThenElse ⟨3⟩ ⟨2⟩ ⟨1⟩, ⟨5, 1⟩⟩,
      ⟨.forLoop ⟨0⟩ ⟨0⟩ ⟨0⟩, ⟨6, 1⟩⟩]
    decls := #[⟨⟨0⟩, ⟨7, 1⟩, 0, none, .undefined, false, .value none⟩] }

theorem render_objectionable :
    objectionable.Acyclic (.expr ⟨4⟩) ∧
      objectionable.firstViolation? (.expr ⟨4⟩) = some (.emptyLetBody, ⟨3, 1⟩) ∧
      objectionable.render Style.commented (.expr ⟨4⟩) =
        .error (.diagnosed (.violated .emptyLetBody ⟨3, 1⟩)) ∧
      objectionable.render Style.plain (.expr ⟨4⟩) =
        .error (.diagnosed (.violated .emptyLetBody ⟨3, 1⟩)) := by
  have within : objectionable.Within 9 (.expr ⟨4⟩) := by decide
  have plain : objectionable.render Style.plain (.expr ⟨4⟩) =
      .error (.diagnosed (.violated .emptyLetBody ⟨3, 1⟩)) := by decide +kernel
  have reported := Arena.render_fails_iff_violation within.acyclic
    (Arena.throughout_of_checkWithin
      (by decide : objectionable.checkWithin (fun layer => layer.isReadable false) 9 (.expr ⟨4⟩)))
    (by rw [plain]; intro wide; cases wide)
  refine ⟨within.acyclic, by decide +kernel, ?_, plain⟩
  apply (reported.2.2 Style.commented _ _ _).mpr plain
  · exact Arena.throughout_of_checkWithin
      (by decide : objectionable.checkWithin (fun layer => layer.isReadable true) 9 (.expr ⟨4⟩))
  · intro wide
    exact absurd wide (by decide +kernel)

end TigerTree
