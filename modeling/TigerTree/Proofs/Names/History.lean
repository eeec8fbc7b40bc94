import Mathlib.Data.List.Dedup
import TigerTree.Proofs.Interchange.Fidelity
import TigerTree.Proofs.Names.Interning

/-! Tables in use. Whatever is interned, sought and looked up, and however often a table is written
and read back in between, its texts and their names stay in one-to-one correspondence, and a name
that was given once reads as its text for good. -/

set_option autoImplicit false

namespace TigerTree
namespace NameTable

inductive Event where
  | interned (text : String) (name : Name)
  | refused (text : String) (full : Full)
  | sought (text : String) (answer : Option Name)
  | looked (name : Name) (answer : Except Fault String)
  /-- The table was written, and replaced by what was read of that. -/
  | reloaded

/-- One use of a table, with the table afterwards. An index is written with its entries in any
order. -/
inductive Use : NameTable → Event → NameTable → Prop
  | intern {table next : NameTable} {text : String} {name : Name}
      (run : NameTable.intern text table = .ok name next) : Use table (.interned text name) next
  | refuse {table next : NameTable} {text : String} {full : Full}
      (run : NameTable.intern text table = .error full next) : Use table (.refused text full) next
  | seek (table : NameTable) (text : String) : Use table (.sought text (table.find? text)) table
  | look (table : NameTable) (name : Name) : Use table (.looked name (table.text name)) table
  | reload {table next : NameTable} {entries : List (String × Name)}
      (order : entries.Perm table.index)
      (read : NameTable.ofValue? { table with index := entries }.toValue = some next) :
      Use table .reloaded next

/-- The events that led from the initial table to a table, the first one first. -/
inductive History : List Event → NameTable → Prop
  | initial : History [] .initial
  | after {events : List Event} {event : Event} {table next : NameTable}
      (before : History events table) (use : Use table event next) :
      History (events ++ [event]) next

def Event.text? : Event → Option String
  | .interned text _ => some text
  | _ => none

def givenTexts (events : List Event) : List String := "" :: events.filterMap Event.text?

/-- The name was given to the text at some time. -/
def Issued (events : List Event) (text : String) (name : Name) : Prop :=
  text = "" ∧ name = .empty ∨ .interned text name ∈ events

/-! ### Entries and places -/

/-- The entries of the index are the places of the texts, and no text has two of them. -/
structure Bijective (table : NameTable) : Prop where
  mem_index : ∀ text name, (text, name) ∈ table.index ↔ table.text name = .ok text
  distinct : table.texts.toList.Nodup
  bounded : table.size ≤ wordLimit

namespace Bijective

variable {table : NameTable}

theorem name_eq (bijective : table.Bijective) {text : String} {first second : Name}
    (readsFirst : table.text first = .ok text) (readsSecond : table.text second = .ok text) :
    first = second := by
  obtain ⟨inFirst, isFirst⟩ := Array.getElem?_eq_some_iff.mp (text_eq_ok.mp readsFirst)
  obtain ⟨inSecond, isSecond⟩ := Array.getElem?_eq_some_iff.mp (text_eq_ok.mp readsSecond)
  have sameText : table.texts.toList[first.index.toNat] =
      table.texts.toList[second.index.toNat] := isFirst.trans isSecond.symm
  have samePlace := (List.Nodup.getElem_inj_iff bijective.distinct).mp sameText
  exact congrArg Name.mk (UInt32.toNat_inj.mp samePlace)

theorem mem_texts (bijective : table.Bijective) (text : String) :
    text ∈ table.texts.toList ↔ ∃ name, table.text name = .ok text := by
  constructor
  · intro member
    obtain ⟨place, inside, isText⟩ := List.mem_iff_getElem.mp member
    have small : place < wordLimit := Nat.lt_of_lt_of_le inside bijective.bounded
    have exact : place.toUInt32.toNat = place := UInt32.toNat_ofNat_of_lt small
    refine ⟨⟨place.toUInt32⟩, text_eq_ok.mpr ?_⟩
    change table.texts[place.toUInt32.toNat]? = some text
    rw [exact, ← isText]
    exact Array.getElem?_eq_getElem inside
  · rintro ⟨name, reads⟩
    obtain ⟨inside, isText⟩ := Array.getElem?_eq_some_iff.mp (text_eq_ok.mp reads)
    exact List.mem_iff_getElem.mpr ⟨name.index.toNat, inside, isText⟩

theorem faithful (bijective : table.Bijective) : table.Faithful := by
  have entry {text : String} {name : Name} (found : table.find? text = some name) :
      (text, name) ∈ table.index := by
    obtain ⟨earlier, later, split, _⟩ := List.lookup_eq_some_iff.mp found
    rw [split]
    exact List.mem_append_right _ List.mem_cons_self
  intro text name
  constructor
  · intro found
    exact (bijective.mem_index text name).mp (entry found)
  · intro reads
    have listed := (bijective.mem_index text name).mpr reads
    have known : (table.find? text).isSome :=
      List.lookup_isSome_iff.mpr ⟨(text, name), listed, beq_self_eq_true text⟩
    obtain ⟨other, found⟩ := Option.isSome_iff_exists.mp known
    have readsOther := (bijective.mem_index text other).mp (entry found)
    rw [found, bijective.name_eq readsOther reads]

theorem push (bijective : table.Bijective) (room : table.size < wordLimit) {added : String}
    (unknown : table.find? added = none) : (table.push added).Bijective where
  mem_index text name := by
    have exact : table.size.toUInt32.toNat = table.size := UInt32.toNat_ofNat_of_lt room
    have beyond : table.text ⟨table.size.toUInt32⟩ ≠ .ok text := by
      intro reads
      obtain ⟨inside, _⟩ := Array.getElem?_eq_some_iff.mp (text_eq_ok.mp reads)
      exact absurd (exact ▸ inside) (Nat.lt_irrefl _)
    change (text, name) ∈ (added, ⟨table.size.toUInt32⟩) :: table.index ↔ _
    rw [List.mem_cons, Prod.mk.injEq, bijective.mem_index, text_push room]
    by_cases next : name = ⟨table.size.toUInt32⟩
    · rw [if_pos next, next]
      constructor
      · rintro (⟨rfl, _⟩ | reads)
        · rfl
        · exact absurd reads beyond
      · intro same
        exact .inl ⟨(Except.ok.inj same).symm, rfl⟩
    · rw [if_neg next]
      constructor
      · rintro (⟨_, isNext⟩ | reads)
        · exact absurd isNext next
        · exact reads
      · exact .inr
  distinct := by
    have absent : added ∉ table.texts.toList := by
      intro member
      obtain ⟨name, reads⟩ := (bijective.mem_texts added).mp member
      rw [(bijective.faithful added name).mpr reads] at unknown
      cases unknown
    change (table.texts.push added).toList.Nodup
    rw [Array.toList_push, ← List.concat_eq_append]
    exact (List.nodup_concat _ _).mpr ⟨absent, bijective.distinct⟩
  bounded := by
    change (table.texts.push added).size ≤ wordLimit
    rw [Array.size_push]
    exact room

/-- In which order the index is listed does not matter. -/
theorem relisted (bijective : table.Bijective) {entries : List (String × Name)}
    (order : entries.Perm table.index) :
    ({ table with index := entries } : NameTable).Bijective where
  mem_index text name := order.mem_iff.trans (bijective.mem_index text name)
  distinct := bijective.distinct
  bounded := bijective.bounded

theorem find?_relisted (bijective : table.Bijective) {entries : List (String × Name)}
    (order : entries.Perm table.index) (text : String) :
    ({ table with index := entries } : NameTable).find? text = table.find? text := by
  apply Option.ext
  intro name
  exact ((bijective.relisted order).faithful text name).trans
    (bijective.faithful text name).symm

end Bijective

theorem bijective_initial : initial.Bijective where
  mem_index text name := by
    rw [← faithful_initial text name]
    change (text, name) ∈ [("", Name.empty)] ↔ List.lookup text [("", Name.empty)] = some name
    by_cases isEmpty : text = ""
    · rw [isEmpty, List.mem_singleton, Prod.mk.injEq]
      simp [eq_comm]
    · simp [List.lookup_cons, beq_false_of_ne isEmpty, isEmpty]
  distinct := List.nodup_singleton ""
  bounded := by decide

/-- Interning finds a text that is known, and adds one that is not. -/
theorem intern_cases {table next : NameTable} {text : String} {name : Name}
    (run : intern text table = .ok name next) :
    (table.find? text = some name ∧ next = table) ∨
    (table.find? text = none ∧ table.size < wordLimit ∧ name = ⟨table.size.toUInt32⟩ ∧
      next = table.push text) := by
  unfold intern at run
  cases known : table.find? text with
  | some found =>
      rw [known] at run
      cases run
      exact .inl ⟨rfl, rfl⟩
  | none =>
      rw [known] at run
      by_cases room : table.size < wordLimit
      · rw [if_pos room] at run
        cases run
        exact .inr ⟨rfl, room, rfl, rfl⟩
      · rw [if_neg room] at run
        cases run

theorem intern_known {table : NameTable} {text : String} {name : Name}
    (known : table.find? text = some name) : intern text table = .ok name table := by
  simp only [intern, known]

theorem eq_of_refused {table next : NameTable} {text : String} {full : Full}
    (run : intern text table = .error full next) : next = table := by
  unfold intern at run
  split at run
  · cases run
  · split at run
    · cases run
    · cases run
      rfl

/-- Reading back what was written gives the table as it was listed. -/
theorem eq_of_reloaded {table next : NameTable} {entries : List (String × Name)}
    (read : ofValue? ({ table with index := entries } : NameTable).toValue = some next) :
    next = { table with index := entries } := by
  rw [NameTable.exchanged.read_write] at read
  exact (Option.some.inj read).symm

/-- A use adds a text that was not known, or changes at most the order of the index. -/
theorem Use.cases {table next : NameTable} {event : Event} (use : Use table event next) :
    (∃ text, event = .interned text ⟨table.size.toUInt32⟩ ∧ table.find? text = none ∧
      table.size < wordLimit ∧ next = table.push text) ∨
    (∃ entries, entries.Perm table.index ∧ next = { table with index := entries } ∧
      (event ≠ .reloaded → entries = table.index) ∧
      ∀ text name, event = .interned text name → table.find? text = some name) := by
  cases use with
  | intern run =>
      rcases intern_cases run with ⟨known, rfl⟩ | ⟨unknown, room, rfl, rfl⟩
      · refine .inr ⟨next.index, .refl _, rfl, fun _ => rfl, ?_⟩
        intro text name same
        cases same
        exact known
      · exact .inl ⟨_, rfl, unknown, room, rfl⟩
  | refuse run =>
      have unchanged := eq_of_refused run
      refine .inr ⟨table.index, .refl _, unchanged, fun _ => rfl, ?_⟩
      intro text name same
      cases same
  | seek text =>
      refine .inr ⟨table.index, .refl _, rfl, fun _ => rfl, ?_⟩
      intro other name same
      cases same
  | look name =>
      refine .inr ⟨table.index, .refl _, rfl, fun _ => rfl, ?_⟩
      intro text other same
      cases same
  | reload order read =>
      refine .inr ⟨_, order, eq_of_reloaded read, fun other => absurd rfl other, ?_⟩
      intro text name same
      cases same

/-! ### Whole histories -/

theorem issued_append {events : List Event} {event : Event} {text : String} {name : Name} :
    Issued (events ++ [event]) text name ↔
      Issued events text name ∨ event = .interned text name := by
  have same : .interned text name = event ↔ event = .interned text name := ⟨.symm, .symm⟩
  unfold Issued
  rw [List.mem_append, List.mem_singleton, or_assoc, same]

structure Recalls (table : NameTable) (events : List Event) : Prop where
  bijective : table.Bijective
  find?_iff : ∀ text name, table.find? text = some name ↔ Issued events text name

theorem recalls_initial : initial.Recalls [] where
  bijective := bijective_initial
  find?_iff text name := by
    change List.lookup text [("", Name.empty)] = some name ↔ _
    by_cases isEmpty : text = ""
    · simp [isEmpty, Issued, eq_comm]
    · simp [List.lookup_cons, beq_false_of_ne isEmpty, isEmpty, Issued]

theorem Recalls.after {table next : NameTable} {events : List Event} {event : Event}
    (recalls : table.Recalls events) (use : Use table event next) :
    next.Recalls (events ++ [event]) := by
  rcases use.cases with ⟨added, rfl, unknown, room, rfl⟩ | ⟨entries, order, rfl, _, known⟩
  · refine ⟨recalls.bijective.push room unknown, ?_⟩
    intro text name
    rw [find?_push, issued_append, ← recalls.find?_iff]
    by_cases isAdded : text = added
    · rw [if_pos isAdded, isAdded, unknown]
      simp
    · rw [if_neg isAdded]
      simp [Ne.symm isAdded]
  · refine ⟨recalls.bijective.relisted order, ?_⟩
    intro text name
    rw [recalls.bijective.find?_relisted order, issued_append, ← recalls.find?_iff]
    constructor
    · exact .inl
    · rintro (found | isEvent)
      · exact found
      · exact known text name isEvent

theorem History.recalls {events : List Event} {table : NameTable}
    (history : History events table) : table.Recalls events := by
  induction history with
  | initial => exact recalls_initial
  | after before use ih => exact ih.after use

theorem mem_givenTexts {events : List Event} {text : String} :
    text ∈ givenTexts events ↔ ∃ name, Issued events text name := by
  unfold givenTexts Issued
  rw [List.mem_cons, List.mem_filterMap]
  constructor
  · rintro (isEmpty | ⟨event, member, isText⟩)
    · exact ⟨.empty, .inl ⟨isEmpty, rfl⟩⟩
    · cases event with
      | interned given name =>
          cases isText
          exact ⟨name, .inr member⟩
      | refused _ _ => cases isText
      | sought _ _ => cases isText
      | looked _ _ => cases isText
      | reloaded => cases isText
  · rintro ⟨name, ⟨isEmpty, _⟩ | member⟩
    · exact .inl isEmpty
    · exact .inr ⟨.interned text name, member, rfl⟩

namespace Recalls

variable {table : NameTable} {events : List Event}

theorem text_iff (recalls : table.Recalls events) (text : String) (name : Name) :
    table.text name = .ok text ↔ Issued events text name :=
  (recalls.bijective.faithful text name).symm.trans (recalls.find?_iff text name)

/-- The texts are those that were given, each of them once. -/
theorem size_eq (recalls : table.Recalls events) :
    table.size = (givenTexts events).dedup.length := by
  have same : table.texts.toList.Perm (givenTexts events).dedup := by
    apply (List.perm_ext_iff_of_nodup recalls.bijective.distinct (List.nodup_dedup _)).mpr
    intro text
    rw [List.mem_dedup, mem_givenTexts, recalls.bijective.mem_texts]
    exact exists_congr fun name => recalls.text_iff text name
  exact same.length_eq

/-- Where there is room, or the text is known, interning gives a name that reads as the text. -/
theorem exists_intern (recalls : table.Recalls events) {text : String}
    (possible : (table.find? text).isSome ∨ table.size < wordLimit) :
    ∃ name next, intern text table = .ok name next ∧ next.text name = .ok text := by
  cases known : table.find? text with
  | some name =>
      exact ⟨name, table, intern_known known, (recalls.bijective.faithful text name).mp known⟩
  | none =>
      rw [known] at possible
      have room : table.size < wordLimit := possible.resolve_left Bool.false_ne_true
      refine ⟨⟨table.size.toUInt32⟩, table.push text, ?_, ?_⟩
      · simp only [intern, known, room, if_true]
      · rw [text_push room, if_pos rfl]

theorem name_eq_iff (recalls : table.Recalls events) {first second : String}
    {firstName secondName : Name} (given : .interned first firstName ∈ events)
    (givenToo : .interned second secondName ∈ events) :
    firstName = secondName ↔ first = second := by
  have reads := (recalls.text_iff first firstName).mpr (.inr given)
  have readsToo := (recalls.text_iff second secondName).mpr (.inr givenToo)
  constructor
  · rintro rfl
    exact Except.ok.inj (reads.symm.trans readsToo)
  · rintro rfl
    exact recalls.bijective.name_eq reads readsToo

end Recalls

/-- A text that is known, a search and a lookup leave the table as it is. -/
theorem Use.eq_of_known {table next : NameTable} {event : Event} (use : Use table event next)
    (kept : event ≠ .reloaded)
    (known : ∀ text name, event = .interned text name → (table.find? text).isSome) :
    next = table := by
  rcases use.cases with ⟨text, isEvent, unknown, _, _⟩ | ⟨entries, _, isNext, order, _⟩
  · have isKnown := known text _ isEvent
    rw [unknown] at isKnown
    cases isKnown
  · rw [isNext, order kept]

structure Accounts (table : NameTable) (events : List Event) : Prop where
  distinct : table.texts.toList.Nodup
  find?_iff_text : ∀ text name, table.find? text = some name ↔ table.text name = .ok text
  text_empty : table.text ⟨0⟩ = .ok ""
  interns : ∀ text, (table.find? text).isSome ∨ table.size < wordLimit →
    ∃ name next, intern text table = .ok name next ∧ next.text name = .ok text
  name_eq_iff : ∀ first second firstName secondName,
    .interned first firstName ∈ events → .interned second secondName ∈ events →
      (firstName = secondName ↔ first = second)
  find?_iff_issued : ∀ text name, table.find? text = some name ↔ Issued events text name
  keeps : ∀ text name, .interned text name ∈ events → table.text name = .ok text
  size_eq : table.size = (givenTexts events).dedup.length
  reloads : ∀ entries : List (String × Name), entries.Perm table.index →
    ofValue? ({ table with index := entries } : NameTable).toValue =
      some { table with index := entries }
  unchanged : ∀ event next, Use table event next → event ≠ .reloaded →
    (∀ text name, event = .interned text name → (table.find? text).isSome) → next = table

/-- Over every history the table and its index stay inverse to each other. -/
theorem History.accounts {events : List Event} {table : NameTable}
    (history : History events table) : table.Accounts events := by
  have recalls := history.recalls
  exact {
    distinct := recalls.bijective.distinct
    find?_iff_text := recalls.bijective.faithful
    text_empty := (recalls.text_iff "" .empty).mpr (.inl ⟨rfl, rfl⟩)
    interns := fun _ possible => recalls.exists_intern possible
    name_eq_iff := fun _ _ _ _ given givenToo => recalls.name_eq_iff given givenToo
    find?_iff_issued := recalls.find?_iff
    keeps := fun text name given => (recalls.text_iff text name).mpr (.inr given)
    size_eq := recalls.size_eq
    reloads := fun _ _ => NameTable.exchanged.read_write _
    unchanged := fun _ _ use kept known => use.eq_of_known kept known }

/-- Two texts, the second one interned after a reload that lists the index the other way round. -/
def reloadedTable : NameTable := ⟨[("y", ⟨2⟩), ("", ⟨0⟩), ("x", ⟨1⟩)], #["", "x", "y"]⟩

def reloadedEvents : List Event :=
  [.interned "x" ⟨1⟩, .reloaded, .interned "y" ⟨2⟩, .sought "x" (some ⟨1⟩),
    .looked ⟨1⟩ (.ok "x"), .interned "x" ⟨1⟩]

theorem accounts_reloadedTable :
    History reloadedEvents reloadedTable ∧ reloadedTable.Accounts reloadedEvents := by
  let grown : NameTable := ⟨[("x", ⟨1⟩), ("", ⟨0⟩)], #["", "x"]⟩
  let relisted : NameTable := ⟨[("", ⟨0⟩), ("x", ⟨1⟩)], #["", "x"]⟩
  have first : History [.interned "x" ⟨1⟩] grown := .after .initial (.intern rfl)
  have second : History [.interned "x" ⟨1⟩, .reloaded] relisted :=
    first.after (.reload (List.Perm.swap _ _ []) (NameTable.exchanged.read_write relisted))
  have third : History [.interned "x" ⟨1⟩, .reloaded, .interned "y" ⟨2⟩] reloadedTable :=
    second.after (.intern rfl)
  have history : History reloadedEvents reloadedTable :=
    ((third.after (.seek _ "x")).after (.look _ ⟨1⟩)).after (.intern rfl)
  exact ⟨history, History.accounts history⟩

end NameTable
end TigerTree
