import Mathlib.Data.List.Perm.Subperm
import Mathlib.Logic.Equiv.Defs
import TigerTree.Proofs.Names.History

/-! How much a table holds. Texts that are interned one after another all find room exactly if they
and the texts of the table are few enough, each counted once. In what order they come shows only
in the numbers of their names. -/

set_option autoImplicit false

namespace TigerTree
namespace NameTable

theorem Interned.bijective {table : NameTable} (interned : table.Interned) :
    table.Bijective := by
  induction interned with
  | initial => exact bijective_initial
  | intern before text run ih =>
      rcases intern_cases run with ⟨_, rfl⟩ | ⟨unknown, room, _, rfl⟩
      · exact ih
      · exact ih.push room unknown

variable {table : NameTable} {text : String}

theorem Bijective.isSome_find? (bijective : table.Bijective) (text : String) :
    (table.find? text).isSome ↔ text ∈ table.texts.toList := by
  rw [bijective.mem_texts, Option.isSome_iff_exists]
  exact exists_congr (bijective.faithful text)

/-- The text is known, or there is room for it. -/
def HasRoom (table : NameTable) (text : String) : Prop :=
  (table.find? text).isSome ∨ table.size < wordLimit

/-- The table with the text, if there is room for it. -/
def adding (table : NameTable) (text : String) : NameTable :=
  match intern text table with
  | .ok _ next => next
  | .error _ next => next

theorem intern_of_room (room : table.HasRoom text) :
    ∃ name, intern text table = .ok name (table.adding text) := by
  unfold adding
  cases known : table.find? text with
  | some name => exact ⟨name, by rw [intern_known known]⟩
  | none =>
      rw [HasRoom, known] at room
      have space := room.resolve_left Bool.false_ne_true
      exact ⟨⟨table.size.toUInt32⟩, by simp only [intern, known, if_pos space]⟩

theorem intern_of_full (full : ¬ table.HasRoom text) :
    ∃ overflow, intern text table = .error overflow table := by
  obtain ⟨unknown, noRoom⟩ := not_or.mp full
  rw [Option.not_isSome_iff_eq_none] at unknown
  exact ⟨⟨table.size⟩, by simp only [intern, unknown, if_neg noRoom]⟩

theorem adding_of_known (known : (table.find? text).isSome) : table.adding text = table := by
  obtain ⟨name, found⟩ := Option.isSome_iff_exists.mp known
  rw [adding, intern_known found]

theorem adding_of_unknown (unknown : table.find? text = none) (room : table.size < wordLimit) :
    table.adding text = table.push text := by
  simp only [adding, intern, unknown, if_pos room]

theorem adding_of_full (full : ¬ table.HasRoom text) : table.adding text = table := by
  obtain ⟨overflow, refused⟩ := intern_of_full full
  rw [adding, refused]

theorem Interned.adding (interned : table.Interned) (text : String) :
    (table.adding text).Interned := by
  unfold NameTable.adding
  cases run : NameTable.intern text table with
  | ok name next => exact interned.intern text run
  | error full next =>
      rw [eq_of_refused run]
      exact interned

theorem Bijective.adding (bijective : table.Bijective) (text : String) :
    (table.adding text).Bijective := by
  by_cases known : (table.find? text).isSome
  · rw [adding_of_known known]
    exact bijective
  · by_cases room : table.size < wordLimit
    · rw [Option.not_isSome_iff_eq_none] at known
      rw [adding_of_unknown known room]
      exact bijective.push room known
    · rw [adding_of_full (not_or.mpr ⟨known, room⟩)]
      exact bijective

theorem Bijective.mem_adding (bijective : table.Bijective) (room : table.HasRoom text)
    (other : String) :
    other ∈ (table.adding text).texts.toList ↔ other ∈ table.texts.toList ∨ other = text := by
  by_cases known : (table.find? text).isSome
  · rw [adding_of_known known]
    constructor
    · exact .inl
    · rintro (member | rfl)
      · exact member
      · exact (bijective.isSome_find? other).mp known
  · have space := room.resolve_left known
    rw [Option.not_isSome_iff_eq_none] at known
    rw [adding_of_unknown known space]
    change other ∈ (table.texts.push text).toList ↔ _
    rw [Array.toList_push, List.mem_append, List.mem_singleton]

def addingAll (table : NameTable) (texts : List String) : NameTable :=
  texts.foldl adding table

/-- Each of the texts is known or finds room when it is its turn. -/
def Fits (table : NameTable) : List String → Prop
  | [] => True
  | text :: rest => table.HasRoom text ∧ (table.adding text).Fits rest

theorem fits_append (table : NameTable) (first second : List String) :
    table.Fits (first ++ second) ↔ table.Fits first ∧ (table.addingAll first).Fits second := by
  induction first generalizing table with
  | nil => exact (and_iff_right trivial).symm
  | cons text rest ih =>
      change table.HasRoom text ∧ (table.adding text).Fits (rest ++ second) ↔
        (table.HasRoom text ∧ (table.adding text).Fits rest) ∧ _
      rw [ih, and_assoc]
      rfl

theorem Interned.addingAll (interned : table.Interned) (texts : List String) :
    (table.addingAll texts).Interned := by
  induction texts generalizing table with
  | nil => exact interned
  | cons text rest ih => exact ih (interned.adding text)

theorem Bijective.addingAll (bijective : table.Bijective) (texts : List String) :
    (table.addingAll texts).Bijective := by
  induction texts generalizing table with
  | nil => exact bijective
  | cons text rest ih => exact ih (bijective.adding text)

theorem Bijective.mem_addingAll (bijective : table.Bijective) {texts : List String}
    (fits : table.Fits texts) (other : String) :
    other ∈ (table.addingAll texts).texts.toList ↔
      other ∈ table.texts.toList ∨ other ∈ texts := by
  induction texts generalizing table with
  | nil => simp [NameTable.addingAll]
  | cons text rest ih =>
      obtain ⟨room, fitsRest⟩ := fits
      have later := ih (bijective.adding text) fitsRest
      rw [bijective.mem_adding room, or_assoc] at later
      rw [List.mem_cons]
      exact later

/-- No more texts fit than are in the table in the end. -/
theorem Bijective.fits_of_subset (bijective : table.Bijective) {texts whole : List String}
    (bounded : whole.length ≤ wordLimit) (held : table.texts.toList ⊆ whole)
    (added : texts ⊆ whole) : table.Fits texts := by
  induction texts generalizing table with
  | nil => trivial
  | cons text rest ih =>
      have room : table.HasRoom text := by
        by_cases known : (table.find? text).isSome
        · exact .inl known
        · have absent : text ∉ table.texts.toList := fun member =>
            known ((bijective.isSome_find? text).mpr member)
          have distinct : (text :: table.texts.toList).Nodup :=
            List.nodup_cons.mpr ⟨absent, bijective.distinct⟩
          have inside : text :: table.texts.toList ⊆ whole :=
            List.cons_subset.mpr ⟨added List.mem_cons_self, held⟩
          have fewer := (List.Nodup.subperm distinct inside).length_le
          rw [List.length_cons, Array.length_toList] at fewer
          exact .inr (Nat.lt_of_lt_of_le fewer bounded)
      refine ⟨room, ih (bijective.adding text) ?_ (fun other member => added (.tail _ member))⟩
      intro other member
      rcases (bijective.mem_adding room other).mp member with before | rfl
      · exact held before
      · exact added List.mem_cons_self

theorem isSome_adding (known : (table.find? text).isSome) (other : String) :
    ((table.adding other).find? text).isSome := by
  by_cases knownOther : (table.find? other).isSome
  · rw [adding_of_known knownOther]
    exact known
  · by_cases room : table.size < wordLimit
    · rw [adding_of_unknown (Option.not_isSome_iff_eq_none.mp knownOther) room, find?_push]
      split
      · rfl
      · exact known
    · rw [adding_of_full (not_or.mpr ⟨knownOther, room⟩)]
      exact known

theorem isSome_addingAll (known : (table.find? text).isSome) (texts : List String) :
    ((table.addingAll texts).find? text).isSome := by
  induction texts generalizing table with
  | nil => exact known
  | cons other rest ih => exact ih (isSome_adding known other)

/-- A table that lacks room for one text is full, and stays as it is. -/
theorem addingAll_of_full (full : ¬ table.HasRoom text) (texts : List String) :
    table.addingAll texts = table := by
  induction texts with
  | nil => rfl
  | cons other rest ih =>
      have same : table.adding other = table := by
        by_cases known : (table.find? other).isSome
        · exact adding_of_known known
        · exact adding_of_full (not_or.mpr ⟨known, (not_or.mp full).2⟩)
      rw [addingAll, List.foldl_cons, same]
      exact ih

/-- There was room for a text if it is known in the end. -/
theorem hasRoom_of_addingAll {texts : List String}
    (known : ((table.addingAll texts).find? text).isSome) : table.HasRoom text := by
  by_contra full
  rw [addingAll_of_full full texts] at known
  exact full (.inl known)

/-- A text that is interned first is known in the end exactly if there was room for it. -/
theorem isSome_find?_adding (table : NameTable) (text : String) (later : List String) :
    (((table.adding text).addingAll later).find? text).isSome ↔ table.HasRoom text := by
  constructor
  · exact @hasRoom_of_addingAll table text (text :: later)
  · intro room
    apply isSome_addingAll
    by_cases known : (table.find? text).isSome
    · rw [adding_of_known known]
      exact known
    · rw [adding_of_unknown (Option.not_isSome_iff_eq_none.mp known) (room.resolve_left known),
        find?_push, if_pos rfl]
      rfl

/-- A text that found no room finds none in the end. -/
theorem full_of_unknown {texts : List String} (member : text ∈ texts)
    (unknown : ¬ ((table.addingAll texts).find? text).isSome) :
    ¬ (table.addingAll texts).HasRoom text := by
  induction texts generalizing table with
  | nil => cases member
  | cons other rest ih =>
      rcases List.mem_cons.mp member with rfl | inRest
      · have full : ¬ table.HasRoom text :=
          fun room => unknown ((isSome_find?_adding table text rest).mpr room)
        rw [addingAll_of_full full]
        exact full
      · exact ih inRest unknown

/-- Texts fit in every order if they do in one. -/
theorem Bijective.fits_perm (bijective : table.Bijective) {texts other : List String}
    (reordered : other.Perm texts) (fits : table.Fits texts) : table.Fits other := by
  have members := bijective.mem_addingAll fits
  refine bijective.fits_of_subset (bijective.addingAll texts).bounded ?_ ?_
  · intro text member
    exact (members text).mpr (.inl member)
  · intro text member
    exact (members text).mpr (.inr (reordered.mem_iff.mp member))

/-! ### Renumbering -/

variable {left right : NameTable}

/-- The name that the other table gives to the text of a name. -/
def renumber (left right : NameTable) (name : Name) : Name :=
  match left.text name with
  | .ok text => (right.find? text).getD name
  | .error _ => name

def SameTexts (left right : NameTable) : Prop :=
  ∀ text, text ∈ left.texts.toList ↔ text ∈ right.texts.toList

theorem Bijective.text_renumber (leftNames : left.Bijective) (rightNames : right.Bijective)
    (same : left.SameTexts right) (name : Name) :
    right.text (left.renumber right name) = left.text name := by
  unfold renumber
  cases reads : left.text name with
  | ok text =>
      have known := (same text).mp ((leftNames.mem_texts text).mpr ⟨name, reads⟩)
      obtain ⟨other, found⟩ :=
        Option.isSome_iff_exists.mp ((rightNames.isSome_find? text).mpr known)
      simp only [found, Option.getD_some]
      exact (rightNames.faithful text other).mp found
  | error fault =>
      have sameSize : left.texts.size = right.texts.size := by
        have perm := (List.perm_ext_iff_of_nodup leftNames.distinct rightNames.distinct).mpr same
        exact perm.length_eq
      unfold text at reads ⊢
      cases inLeft : left.texts[name.index.toNat]? with
      | some text =>
          rw [inLeft] at reads
          cases reads
      | none =>
          rw [inLeft] at reads
          rw [Array.getElem?_eq_none_iff, sameSize, ← Array.getElem?_eq_none_iff] at inLeft
          rw [inLeft]
          exact reads

theorem Bijective.renumber_of_text (rightNames : right.Bijective) {name other : Name}
    (reads : left.text name = .ok text) (readsOther : right.text other = .ok text) :
    left.renumber right name = other := by
  unfold renumber
  simp only [reads, (rightNames.faithful text other).mpr readsOther, Option.getD_some]

theorem Bijective.renumber_self (bijective : table.Bijective) (name : Name) :
    table.renumber table name = name := by
  cases reads : table.text name with
  | ok text => exact bijective.renumber_of_text reads reads
  | error fault => simp only [renumber, reads]

theorem Bijective.renumber_renumber (leftNames : left.Bijective) (rightNames : right.Bijective)
    (same : left.SameTexts right) (name : Name) :
    right.renumber left (left.renumber right name) = name := by
  have reads := leftNames.text_renumber rightNames same name
  cases isText : left.text name with
  | ok text => exact leftNames.renumber_of_text (reads.trans isText) isText
  | error fault =>
      have unmoved : left.renumber right name = name := by
        unfold renumber
        simp only [isText]
      rw [unmoved] at reads ⊢
      unfold renumber
      simp only [reads, isText]

/-- Tables with the same texts differ in their numbers only. -/
def Bijective.renumbering (leftNames : left.Bijective) (rightNames : right.Bijective)
    (same : left.SameTexts right) : Name ≃ Name where
  toFun := left.renumber right
  invFun := right.renumber left
  left_inv := leftNames.renumber_renumber rightNames same
  right_inv := rightNames.renumber_renumber leftNames (fun text => (same text).symm)

end NameTable
end TigerTree
