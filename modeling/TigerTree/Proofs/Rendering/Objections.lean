import TigerTree.Proofs.Rendering.Violations

/-! Which node a rendering objects to. Even where some lookups below a root fail, a rendering that
no failed lookup ends is decided by the first violation in document order. -/

set_option autoImplicit false

namespace TigerTree

variable {Child : Type}

/-- No failed lookup is the reason. -/
def Unfaulted (reason : Option (Stop RenderError)) : Prop :=
  ∀ fault, reason ≠ some (.faulted fault)

theorem unfaulted_none : Unfaulted none := by
  intro fault same
  cases same

theorem unfaulted_or {first second : Option (Stop RenderError)}
    (unfaulted : Unfaulted (first.or second)) :
    Unfaulted first ∧ (first = none → Unfaulted second) := by
  cases first with
  | none => exact ⟨unfaulted_none, fun _ => unfaulted⟩
  | some reason =>
      constructor
      · exact unfaulted
      · intro absent
        cases absent

/-- Where no fault is met, it is enough to know the reasons that are no faults. -/
theorem findSome?_congr_of_unfaulted {Item : Type}
    {first second : Item → Option (Stop RenderError)} {items : List Item}
    (unfaulted : Unfaulted (items.findSome? first))
    (agree : ∀ item ∈ items, Unfaulted (first item) → first item = second item) :
    items.findSome? first = items.findSome? second := by
  induction items with
  | nil => rfl
  | cons item rest ih =>
      rw [findSome?_cons_eq_or] at unfaulted ⊢
      rw [findSome?_cons_eq_or]
      have unfaultedHere := (unfaulted_or unfaulted).1
      have here := agree item List.mem_cons_self unfaultedHere
      cases reason : first item with
      | none =>
          have later := ih ((unfaulted_or unfaulted).2 reason)
            (fun other member => agree other (List.mem_cons_of_mem _ member))
          rw [← here, reason, later]
      | some stop =>
          rw [← here, reason]
          rfl

namespace Item

/-- Why an item stops whose children stop for the given reasons, lookups aside. -/
def objection? : Item Passage → Option (Stop RenderError)
  | .child _ inner => inner.reason?
  | .stop reason => some reason
  | _ => none

private theorem reason?_lookup {Result : Type} {lookup : Except Fault Result}
    {written : Result → Passage} (completes : ∀ result, (written result).reason? = none)
    (unfaulted : Unfaulted (Passage.look lookup written).reason?) :
    (Passage.look lookup written).reason? = none := by
  cases lookup with
  | ok result => exact completes result
  | error fault =>
      rw [Passage.look_error, Passage.reason?_halt] at unfaulted
      exact absurd rfl (unfaulted fault)

theorem reason?_passage {verbose : Bool} {item : Item Passage}
    (unfaulted : Unfaulted (item.passage verbose).reason?) :
    (item.passage verbose).reason? = item.objection? := by
  cases item with
  | text words => rfl
  | line depth => rfl
  | name spelling => exact reason?_lookup (fun _ => rfl) unfaulted
  | literal contents => exact reason?_lookup (fun _ => rfl) unfaulted
  | note words =>
      cases words with
      | none => rfl
      | some words =>
          cases verbose with
          | false => rfl
          | true => exact reason?_lookup (fun _ => rfl) unfaulted
  | child depth inner => exact Passage.reason?_raise depth inner
  | stop reason => exact Passage.reason?_halt reason

theorem reason?_ofItems {verbose : Bool} {items : List (Item Passage)}
    (unfaulted : Unfaulted (Passage.ofItems verbose items).reason?) :
    (Passage.ofItems verbose items).reason? = items.findSome? objection? := by
  induction items with
  | nil => rfl
  | cons item rest ih =>
      rw [Passage.ofItems_cons, Passage.reason?_append] at unfaulted ⊢
      rw [findSome?_cons_eq_or]
      have here := reason?_passage (unfaulted_or unfaulted).1
      rw [← here]
      cases reason : (item.passage verbose).reason? with
      | none => rw [ih ((unfaulted_or unfaulted).2 reason)]
      | some stop => rfl

theorem findSome?_joined {separator : List (Item Passage)}
    (silent : separator.findSome? objection? = none) (depth : Nat) (children : List Passage) :
    (joined separator depth children).findSome? objection? =
      children.findSome? Passage.reason? := by
  cases children with
  | nil => rfl
  | cons first rest =>
      rw [joined, findSome?_cons_eq_or, findSome?_cons_eq_or]
      congr 1
      induction rest with
      | nil => rfl
      | cons next rest ih =>
          rw [List.flatMap_cons, List.findSome?_append, List.findSome?_append, silent,
            findSome?_cons_eq_or, ih]
          simp [objection?]

theorem findSome?_lines (children : List Passage) :
    (lines children).findSome? objection? = children.findSome? Passage.reason? := by
  have silent : ([.text ";", .line 1] : List (Item Passage)).findSome? objection? = none := rfl
  have inside := findSome?_joined silent 1 children
  exact inside

theorem findSome?_block (body : Passage) :
    (block body).findSome? objection? = body.reason? := by
  rw [block, findSome?_cons_eq_or, findSome?_cons_eq_or]
  simp [objection?]

theorem findSome?_blocks (children : List Passage) :
    (children.flatMap block).findSome? objection? = children.findSome? Passage.reason? := by
  induction children with
  | nil => rfl
  | cons child rest ih =>
      rw [List.flatMap_cons, List.findSome?_append, ih, findSome?_block, findSome?_cons_eq_or]

theorem findSome?_variableType (heading : Heading) :
    (variableType heading).findSome? objection? = none := by
  unfold variableType
  cases heading.typeName with
  | some typeName => rfl
  | none => cases heading.type <;> rfl

theorem findSome?_resultType (heading : Heading) :
    (resultType heading).findSome? objection? = none := by
  unfold resultType
  cases heading.typeName <;> rfl

end Item

/-- A node that no fault stops stops for its own violation, else where its first child does. -/
theorem Layer.reason?_of_unfaulted {verbose : Bool} {layer : Layer Passage}
    (unfaulted : Unfaulted (layer.passage verbose).reason?) :
    (layer.passage verbose).reason? =
      (layer.violation?.map Stop.ofViolation).or (layer.children.findSome? Passage.reason?) := by
  have shown : (layer.passage verbose).reason? = layer.sketch.findSome? Item.objection? :=
    Item.reason?_ofItems unfaulted
  rw [shown] at unfaulted ⊢
  cases layer with
  | broken fault => exact absurd rfl (unfaulted fault)
  | sequence location elements =>
      cases elements with
      | nil => rfl
      | cons first rest =>
          simp [sketch, findSome?_cons_eq_or, Item.objection?, Item.findSome?_lines, violation?,
            children]
  | letIn location decls body =>
      cases body with
      | nil => rfl
      | cons first rest =>
          simp [sketch, findSome?_cons_eq_or, Item.objection?, Item.findSome?_lines,
            Item.findSome?_blocks, violation?, children]
  | call location function site arguments =>
      simp [sketch, findSome?_cons_eq_or, Item.objection?, Item.findSome?_joined, violation?,
        children]
  | forLoop location start high body =>
      cases start with
      | lost fault => exact absurd rfl (unfaulted fault)
      | missing => rfl
      | bound heading low =>
          simp [sketch, findSome?_cons_eq_or, Item.objection?, Item.findSome?_block, violation?,
            children, LoopStart.children]
  | varDecl heading initializer =>
      simp [sketch, findSome?_cons_eq_or, Item.objection?, Item.findSome?_variableType,
        violation?, children]
  | parameter heading =>
      simp [sketch, findSome?_cons_eq_or, Item.objection?, Item.findSome?_variableType,
        violation?, children]
  | funDecl heading loweredName parameters body =>
      cases parameters with
      | error fault => exact absurd rfl (unfaulted fault)
      | ok parameters =>
          simp [sketch, findSome?_cons_eq_or, Item.objection?, Item.findSome?_joined,
            Item.findSome?_block, Item.findSome?_resultType, violation?, children, listed]
  | _ =>
      simp [sketch, findSome?_cons_eq_or, Item.objection?, Item.findSome?_block, violation?,
        children]

namespace Arena

variable {arena : Arena}

/-- Unless a fault ends it, drafting stops for the first violation in document order. -/
theorem reason?_of_unfaulted {verbose : Bool} {length : Nat} {root : NodeId}
    (unfaulted : Unfaulted ((arena.unfoldWithin length root).passage verbose).reason?) :
    ((arena.unfoldWithin length root).passage verbose).reason? =
      ((arena.preorderWithin length root).findSome? (fun node =>
        (arena.layer node).violation?)).map Stop.ofViolation := by
  induction length generalizing root with
  | zero => exact absurd rfl (unfaulted .cyclicTree)
  | succ length ih =>
      rw [unfoldWithin, Tree.passage_node, Layer.map_map] at unfaulted ⊢
      have here := Layer.reason?_of_unfaulted unfaulted
      rw [here] at unfaulted ⊢
      rw [Layer.violation?_map, Layer.children_map, List.findSome?_map] at unfaulted ⊢
      rw [preorderWithin, findSome?_cons_eq_or, findSome?_flatMap]
      cases objected : (arena.layer root).violation? with
      | some found => rfl
      | none =>
          rw [objected] at unfaulted
          have below := findSome?_congr_of_unfaulted unfaulted (fun child _ => ih)
          rw [Option.map_none, Option.none_or, Option.none_or, List.map_findSome?]
          exact below

def firstOffender? (arena : Arena) (root : NodeId) : Option NodeId :=
  (arena.preorder root).find? (fun node => (arena.layer node).violation?.isSome)

private theorem findSome?_eq_bind_find? {Item Result : Type} (find : Item → Option Result)
    (items : List Item) :
    items.findSome? find = (items.find? (fun item => (find item).isSome)).bind find := by
  induction items with
  | nil => rfl
  | cons item rest ih =>
      rw [findSome?_cons_eq_or, List.find?_cons, ih]
      cases found : find item with
      | none => simp
      | some result => simp [found]

theorem firstViolation?_eq_bind (root : NodeId) :
    arena.firstViolation? root =
      (arena.firstOffender? root).bind (fun node => (arena.layer node).violation?) :=
  findSome?_eq_bind_find? _ _

/-- A rendering that stops, but not for a fault, reports the first offender. -/
theorem exists_firstOffender {verbose : Bool} {root : NodeId} {error : RenderError}
    (objects : ((arena.unfold root).passage verbose).reason? = some (.diagnosed error)) :
    ∃ node found, arena.firstOffender? root = some node ∧
      (arena.layer node).violation? = some found ∧
      (.diagnosed error : Stop RenderError) = Stop.ofViolation found := by
  have unfaulted : Unfaulted ((arena.unfold root).passage verbose).reason? := by
    intro fault same
    rw [objects] at same
    cases same
  have reported : some (.diagnosed error) = (arena.firstViolation? root).map Stop.ofViolation := by
    rw [← objects]
    exact reason?_of_unfaulted unfaulted
  rw [firstViolation?_eq_bind] at reported
  cases offender : arena.firstOffender? root with
  | none =>
      rw [offender] at reported
      cases reported
  | some node =>
      rw [offender, Option.bind_some] at reported
      cases objected : (arena.layer node).violation? with
      | none =>
          rw [objected] at reported
          cases reported
      | some found =>
          rw [objected, Option.map_some] at reported
          exact ⟨node, found, rfl, objected, Option.some.inj reported⟩

end Arena

end TigerTree
