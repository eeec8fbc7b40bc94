import TigerTree.Proofs.Building.Growth

/-! Tables that interning has grown from the initial one. Their index and their texts tell the
same, so two names of such a table read alike only if they are one name. -/

set_option autoImplicit false

namespace TigerTree
namespace NameTable

inductive Interned : NameTable → Prop
  | initial : Interned .initial
  | intern {table next : NameTable} (before : Interned table) (text : String) {name : Name}
      (run : NameTable.intern text table = .ok name next) : Interned next

/-- The index sends a text to a name exactly when the table holds the text under that name. -/
def Faithful (table : NameTable) : Prop :=
  ∀ text name, table.find? text = some name ↔ table.text name = .ok text

/-- The new text stands under the next name, and no other name reads differently. -/
theorem text_push {table : NameTable} (room : table.size < wordLimit) (added : String)
    (name : Name) :
    (table.push added).text name =
      if name = ⟨table.size.toUInt32⟩ then .ok added else table.text name := by
  have exact : table.size.toUInt32.toNat = table.size := UInt32.toNat_ofNat_of_lt room
  by_cases next : name = ⟨table.size.toUInt32⟩
  · rw [if_pos next, next]
    apply text_eq_ok.mpr
    change (table.texts.push added)[table.size.toUInt32.toNat]? = some added
    rw [exact]
    exact Array.getElem?_push_size
  · rw [if_neg next]
    have elsewhere : name.index.toNat ≠ table.texts.size := by
      intro same
      apply next
      obtain ⟨index⟩ := name
      have sameIndex : index.toNat = table.size.toUInt32.toNat := same.trans exact.symm
      rw [UInt32.toNat_inj.mp sameIndex]
    have unmoved : (table.push added).texts[name.index.toNat]? =
        table.texts[name.index.toNat]? := by
      change (table.texts.push added)[name.index.toNat]? = _
      rw [Array.getElem?_push, if_neg elsewhere]
    rw [NameTable.text, NameTable.text, unmoved]

theorem Faithful.push {table : NameTable} (faithful : table.Faithful) {added : String}
    (room : table.size < wordLimit) (unknown : table.find? added = none) :
    (table.push added).Faithful := by
  have exact : table.size.toUInt32.toNat = table.size := UInt32.toNat_ofNat_of_lt room
  intro text name
  rw [find?_push, text_push room]
  by_cases isAdded : text = added
  · subst isAdded
    rw [if_pos rfl]
    by_cases next : name = ⟨table.size.toUInt32⟩
    · rw [if_pos next, next]
      simp
    · rw [if_neg next]
      constructor
      · intro same
        exact absurd (Option.some.inj same).symm next
      · intro known
        rw [(faithful text name).mpr known] at unknown
        cases unknown
  · rw [if_neg isAdded]
    by_cases next : name = ⟨table.size.toUInt32⟩
    · rw [if_pos next]
      constructor
      · intro found
        have held := text_eq_ok.mp ((faithful text name).mp found)
        obtain ⟨inside, _⟩ := Array.getElem?_eq_some_iff.mp held
        rw [next, exact] at inside
        exact absurd inside (Nat.lt_irrefl _)
      · intro same
        exact absurd (Except.ok.inj same).symm isAdded
    · rw [if_neg next]
      exact faithful text name

theorem faithful_initial : initial.Faithful := by
  intro text name
  constructor
  · exact indexed_initial text name
  · intro held
    obtain ⟨inside, isText⟩ := Array.getElem?_eq_some_iff.mp (text_eq_ok.mp held)
    have first : name.index.toNat = 0 := Nat.lt_one_iff.mp inside
    obtain ⟨index⟩ := name
    have isEmpty : index = 0 := UInt32.toNat_inj.mp first
    subst isEmpty
    have isBlank : "" = text := isText
    subst isBlank
    rfl

/-- Interning keeps index and texts in step. -/
theorem Faithful.intern {table next : NameTable} (faithful : table.Faithful) {text : String}
    {name : Name} (run : NameTable.intern text table = .ok name next) : next.Faithful := by
  unfold NameTable.intern at run
  cases known : table.find? text with
  | some found =>
      rw [known] at run
      cases run
      exact faithful
  | none =>
      rw [known] at run
      by_cases room : table.size < wordLimit
      · rw [if_pos room] at run
        cases run
        exact faithful.push room known
      · rw [if_neg room] at run
        cases run

theorem Interned.faithful {table : NameTable} (interned : table.Interned) : table.Faithful := by
  induction interned with
  | initial => exact faithful_initial
  | intern before text run ih => exact ih.intern run

/-- Names that read alike are one name. -/
theorem Faithful.name_eq {table : NameTable} (faithful : table.Faithful) {first second : Name}
    {text : String} (readsFirst : table.text first = .ok text)
    (readsSecond : table.text second = .ok text) : first = second := by
  have found := (faithful text first).mpr readsFirst
  rw [(faithful text second).mpr readsSecond] at found
  exact (Option.some.inj found).symm

end NameTable
end TigerTree
