import TigerTree.Proofs.Unfolding.Ownership

/-! Layers whose lookups succeed, and the names that stand in a layer. -/

set_option autoImplicit false

namespace TigerTree

variable {Child Other : Type}

def Heading.isIntact (heading : Heading) : Bool :=
  heading.name.isOk && heading.typeName.all (·.isOk)

/-- Every text, list and link of the layer is there. Of a loop variable only the name is asked. -/
def Layer.isIntact : Layer Child → Bool
  | .broken _ => false
  | .string _ contents => contents.isOk
  | .identifier _ name site _ => name.isOk && site.all (·.isOk)
  | .call _ function site _ => function.isOk && site.all (·.isOk)
  | .forLoop _ (.lost _) _ _ => false
  | .forLoop _ (.bound heading _) _ _ => heading.name.isOk
  | .breakLoop _ target => target.all (·.isOk)
  | .varDecl heading _ | .parameter heading => heading.isIntact
  | .funDecl heading loweredName parameters _ =>
      heading.isIntact && loweredName.all (·.text.isOk) && parameters.isOk
  | _ => true

theorem Layer.isIntact_map (change : Child → Other) (layer : Layer Child) :
    (layer.map change).isIntact = layer.isIntact := by
  cases layer with
  | forLoop location start high body => cases start <;> rfl
  | funDecl heading loweredName parameters body => cases parameters <;> rfl
  | _ => rfl

/-- The layer without what only comments tell: links and lowered names. -/
def Layer.withoutLinks : Layer Child → Layer Child
  | .identifier location name _ depth => .identifier location name none depth
  | .call location function _ arguments => .call location function none arguments
  | .breakLoop location _ => .breakLoop location none
  | .funDecl heading _ parameters body => .funDecl heading none parameters body
  | layer => layer

theorem Layer.withoutLinks_map (change : Child → Other) (layer : Layer Child) :
    (layer.map change).withoutLinks = layer.withoutLinks.map change := by
  cases layer <;> rfl

theorem Layer.isIntact_withoutLinks {layer : Layer Child} (intact : layer.isIntact) :
    layer.withoutLinks.isIntact := by
  cases layer with
  | funDecl heading loweredName parameters body =>
      simp only [isIntact, withoutLinks, Bool.and_eq_true] at intact ⊢
      exact ⟨⟨intact.1.1, rfl⟩, intact.2⟩
  | _ => simp_all [isIntact, withoutLinks]

/-- Everything is there that a rendering looks up; without comments no link is looked at. -/
def Layer.isReadable (verbose : Bool) (layer : Layer Child) : Bool :=
  if verbose then layer.isIntact else layer.withoutLinks.isIntact

theorem Layer.isReadable_map (verbose : Bool) (change : Child → Other) (layer : Layer Child) :
    (layer.map change).isReadable verbose = layer.isReadable verbose := by
  simp only [isReadable, withoutLinks_map, isIntact_map]

theorem Layer.isIntact_of_isReadable {verbose : Bool} {layer : Layer Child}
    (readable : layer.isReadable verbose) : layer.withoutLinks.isIntact := by
  cases verbose with
  | false => exact readable
  | true => exact isIntact_withoutLinks readable

/-! ### Identifiers -/

/-- Letters beyond ASCII are let in. -/
def isLetter (char : Char) : Bool := char.isAlpha || 127 < char.toNat

def isWordChar (char : Char) : Bool := isLetter char || char.isDigit || char == '_'

def keywords : List String :=
  ["let", "in", "end", "if", "then", "else", "var", "function", "while", "do", "for", "to",
    "break"]

/-- A letter, then letters, digits and underscores, and not a keyword. -/
def isIdentifier (text : String) : Bool :=
  match text.toList with
  | [] => false
  | first :: rest => isLetter first && rest.all isWordChar && text ∉ keywords

theorem isWordChar_of_mem {text : String} (identifier : isIdentifier text) {char : Char}
    (member : char ∈ text.toList) : isWordChar char := by
  unfold isIdentifier at identifier
  split at identifier
  · cases identifier
  · rename_i first rest spelled
    rw [spelled] at member
    simp only [Bool.and_eq_true, List.all_eq_true] at identifier
    rcases List.mem_cons.mp member with rfl | inRest
    · simp [isWordChar, identifier.1.1]
    · exact identifier.1.2 char inRest

def Layer.names : Layer Child → List (Except Fault String)
  | .identifier _ name _ _ => [name]
  | .call _ function _ _ => [function]
  | .forLoop _ (.bound heading _) _ _ => [heading.name]
  | .varDecl heading _ | .parameter heading | .funDecl heading _ _ _ =>
      heading.name :: heading.typeName.toList
  | _ => []

def Layer.isWellNamed (layer : Layer Child) : Bool :=
  layer.names.all (fun name => name.toOption.any isIdentifier)

theorem Layer.names_map (change : Child → Other) (layer : Layer Child) :
    (layer.map change).names = layer.names := by
  cases layer with
  | forLoop location start high body => cases start <;> rfl
  | _ => rfl

theorem Layer.isWellNamed_map (change : Child → Other) (layer : Layer Child) :
    (layer.map change).isWellNamed = layer.isWellNamed := by
  simp only [isWellNamed, names_map]

theorem Layer.names_withoutLinks (layer : Layer Child) :
    layer.withoutLinks.names = layer.names := by
  cases layer <;> rfl

theorem Layer.isOk_of_mem_names {layer : Layer Child} (intact : layer.isIntact)
    {name : Except Fault String} (member : name ∈ layer.names) : name.isOk := by
  cases layer with
  | forLoop location start high body =>
      cases start <;> simp_all [isIntact, names]
  | varDecl heading _ | parameter heading | funDecl heading _ _ _ =>
      simp [isIntact, Heading.isIntact, names, Option.all_eq_true] at intact member
      rcases member with rfl | isType
      · simp_all
      · simp_all
  | _ => simp_all [isIntact, names]

theorem Layer.isIdentifier_of_mem_names {layer : Layer Child} (wellNamed : layer.isWellNamed)
    {spelling : String} (member : .ok spelling ∈ layer.names) : isIdentifier spelling :=
  List.all_eq_true.mp wellNamed _ member

theorem Layer.exists_identifier {layer : Layer Child} (wellNamed : layer.isWellNamed)
    {name : Except Fault String} (member : name ∈ layer.names) :
    ∃ spelling, name = .ok spelling ∧ isIdentifier spelling := by
  have named := List.all_eq_true.mp wellNamed name member
  cases name with
  | ok spelling => exact ⟨spelling, rfl, named⟩
  | error fault => cases named

namespace Arena

variable {arena : Arena} {root : NodeId}

theorem intact_unfold (acyclic : arena.Acyclic root)
    (intact : arena.Throughout (fun layer => layer.isIntact) root) :
    (arena.unfold root).Throughout (fun layer => layer.isIntact) := by
  refine throughout_unfold ?_ acyclic intact
  intro layer change holds
  rw [Layer.isIntact_map]
  exact holds

theorem wellNamed_unfold (acyclic : arena.Acyclic root)
    (wellNamed : arena.Throughout (fun layer => layer.isWellNamed) root) :
    (arena.unfold root).Throughout (fun layer => layer.isWellNamed) := by
  refine throughout_unfold ?_ acyclic wellNamed
  intro layer change holds
  rw [Layer.isWellNamed_map]
  exact holds

end Arena
end TigerTree
