import TigerTree.Proofs.Building.Naming

/-! Setters that are refused because their text finds no room. They change nothing, and which ones
they are can be told from the names in the end: a setter was answered exactly if its text is among
them. -/

set_option autoImplicit false

namespace TigerTree

/-- The text that the call interns, if any, is in the table. -/
def BuildCall.isNamedIn (call : BuildCall) (names : NameTable) : Bool :=
  call.symbol?.all (fun symbol => (names.find? symbol).isSome)

theorem BuildCall.isNamedIn_iff {call : BuildCall} {names : NameTable} :
    call.isNamedIn names ↔ ∀ symbol, call.symbol? = some symbol → (names.find? symbol).isSome := by
  unfold isNamedIn
  cases call.symbol? <;> simp

namespace Builder

variable {builder : Builder} {call : BuildCall} {calls other : List BuildCall}

def Refuses (builder : Builder) (call : BuildCall) : Prop :=
  ∃ symbol, call.symbol? = some symbol ∧ ¬ builder.arena.names.HasRoom symbol

theorem refuses_iff (setter : call.isSetter) : builder.Refuses call ↔ ¬ builder.accepts call := by
  rw [accepts_setter setter, Refuses]
  cases call.symbol? with
  | none => simp [NameTable.Fits]
  | some symbol => simp [NameTable.Fits]

theorem perform_of_refused (setter : call.isSetter) (refused : builder.Refuses call) :
    perform call builder = .error .capacityExceeded builder := by
  obtain ⟨symbol, isSymbol, full⟩ := refused
  rcases setter_cases setter builder with ⟨fits, _⟩ | ⟨_, _, _, refuses⟩
  · rw [isSymbol] at fits
    exact absurd fits.1 full
  · exact refuses

theorem after_of_refused (setter : call.isSetter) (refused : builder.Refuses call) :
    builder.after call = builder := by
  rw [after, stateAfter, perform_of_refused setter refused]

theorem answer_of_refused (setter : call.isSetter) (refused : builder.Refuses call) :
    resultOf (perform call) builder = .error .capacityExceeded := by
  rw [resultOf, perform_of_refused setter refused]

theorem names_cons (setters : ∀ next ∈ call :: calls, next.isSetter) :
    (builder.afterAll (call :: calls)).arena.names =
      (builder.arena.names.addingAll call.symbol?.toList).addingAll (symbols calls) := by
  rw [names_afterAll builder setters, symbols_cons, NameTable.addingAll, List.foldl_append]
  rfl

/-- The first setter is answered exactly if its text is among the names in the end. -/
theorem accepts_iff_isNamedIn (builder : Builder)
    (setters : ∀ next ∈ call :: calls, next.isSetter) :
    builder.accepts call ↔ call.isNamedIn (builder.afterAll (call :: calls)).arena.names := by
  rw [accepts_setter (setters call List.mem_cons_self), names_cons setters,
    BuildCall.isNamedIn_iff]
  cases call.symbol? with
  | none => exact iff_of_true trivial (fun _ impossible => by cases impossible)
  | some symbol =>
      refine (and_iff_left trivial).trans ?_
      refine (builder.arena.names.isSome_find?_adding symbol (symbols calls)).symm.trans ?_
      constructor
      · rintro known _ ⟨⟩
        exact known
      · exact fun named => named symbol rfl

/-- The setters that are answered are those whose texts are among the names in the end. -/
theorem accepted_eq_filter (builder : Builder) (setters : ∀ call ∈ calls, call.isSetter) :
    builder.accepted calls =
      calls.filter (fun call => call.isNamedIn (builder.afterAll calls).arena.names) := by
  induction calls generalizing builder with
  | nil => rfl
  | cons call rest ih =>
      have later := ih (builder.after call)
        (fun next isNext => setters next (List.mem_cons_of_mem call isNext))
      have first := accepts_iff_isNamedIn builder setters
      rw [accepted, List.filter_cons, later]
      by_cases isAccepted : builder.accepts call
      · rw [if_pos isAccepted, if_pos (first.mp isAccepted)]
        rfl
      · rw [if_neg isAccepted, if_neg (fun named => isAccepted (first.mpr named))]
        rfl

theorem mem_accepted (setters : ∀ call ∈ calls, call.isSetter) (member : call ∈ calls) :
    call ∈ builder.accepted calls ↔ call.isNamedIn (builder.afterAll calls).arena.names := by
  rw [accepted_eq_filter builder setters, List.mem_filter, and_iff_right member]

theorem isSetter_of_perm (setters : ∀ call ∈ calls, call.isSetter) (reordered : other.Perm calls) :
    ∀ call ∈ other, call.isSetter :=
  fun call member => setters call (reordered.mem_iff.mp member)

theorem isSetter_of_accepted (builder : Builder) (setters : ∀ call ∈ calls, call.isSetter) :
    ∀ call ∈ builder.accepted calls, call.isSetter := by
  intro call isAccepted
  rw [accepted_eq_filter builder setters] at isAccepted
  exact setters call (List.mem_of_mem_filter isAccepted)

/-- A setter that is answered in a run would be answered at its beginning. -/
theorem accepts_of_mem (setters : ∀ call ∈ calls, call.isSetter)
    (isAccepted : call ∈ builder.accepted calls) : builder.accepts call := by
  rw [accepted_eq_filter builder setters, List.mem_filter] at isAccepted
  obtain ⟨member, named⟩ := isAccepted
  rw [accepts_setter (setters call member)]
  rw [BuildCall.isNamedIn_iff, names_afterAll builder setters] at named
  cases isSymbol : call.symbol? with
  | none => trivial
  | some symbol => exact ⟨NameTable.hasRoom_of_addingAll (named symbol isSymbol), trivial⟩

/-- A setter that is refused in a run is refused in the end. -/
theorem refuses_of_not_named (setters : ∀ call ∈ calls, call.isSetter) (member : call ∈ calls)
    (unnamed : ¬ call.isNamedIn (builder.afterAll calls).arena.names) :
    (builder.afterAll calls).Refuses call := by
  rw [BuildCall.isNamedIn_iff] at unnamed
  push Not at unnamed
  obtain ⟨symbol, isSymbol, unknown⟩ := unnamed
  refine ⟨symbol, isSymbol, ?_⟩
  rw [names_afterAll builder setters] at unknown ⊢
  exact NameTable.full_of_unknown (mem_symbols.mpr ⟨call, member, isSymbol⟩) unknown

theorem afterAll_accepted (builder : Builder) (setters : ∀ call ∈ calls, call.isSetter) :
    builder.afterAll (builder.accepted calls) = builder.afterAll calls := by
  induction calls generalizing builder with
  | nil => rfl
  | cons call rest ih =>
      have later := ih (builder.after call)
        (fun next isNext => setters next (List.mem_cons_of_mem call isNext))
      rw [accepted]
      by_cases isAccepted : builder.accepts call
      · rw [if_pos isAccepted]
        exact later
      · have setter := setters call List.mem_cons_self
        have same := after_of_refused setter ((refuses_iff setter).mpr isAccepted)
        rw [if_neg isAccepted]
        rw [same] at later ⊢
        change _ = (builder.after call).afterAll rest
        rw [same]
        exact later

theorem accepted_accepted (builder : Builder) (setters : ∀ call ∈ calls, call.isSetter) :
    builder.accepted (builder.accepted calls) = builder.accepted calls := by
  rw [accepted_eq_filter builder (builder.isSetter_of_accepted setters),
    afterAll_accepted builder setters, accepted_eq_filter builder setters, List.filter_filter]
  simp only [Bool.and_self]

/-- Whether any setter is refused does not depend on their order. -/
theorem refusals_perm (bijective : builder.arena.names.Bijective)
    (setters : ∀ call ∈ calls, call.isSetter) (reordered : other.Perm calls)
    (all : builder.accepted calls = calls) : builder.accepted other = other := by
  have otherSets := isSetter_of_perm setters reordered
  exact (accepted_iff_fits otherSets).mpr
    (bijective.fits_perm (symbols_perm reordered) ((accepted_iff_fits setters).mp all))

theorem accepted_append (setters : ∀ call ∈ calls ++ other, call.isSetter)
    (all : builder.accepted (calls ++ other) = calls ++ other) :
    builder.accepted calls = calls ∧ (builder.afterAll calls).accepted other = other := by
  have sets := fun call member => setters call (List.mem_append_left other member)
  have otherSets := fun call member => setters call (List.mem_append_right calls member)
  rw [accepted_iff_fits setters, symbols_append, NameTable.fits_append] at all
  rw [accepted_iff_fits sets, accepted_iff_fits otherSets, names_afterAll builder sets]
  exact all

/-- Of two new texts the first takes the last place, so which of their setters is refused does
depend on their order. -/
theorem accepted_of_one_place {first second : DeclId} {symbol late : String}
    (isNew : ¬ (builder.arena.names.find? symbol).isSome)
    (isNewToo : ¬ (builder.arena.names.find? late).isSome) (different : late ≠ symbol)
    (onePlace : builder.arena.names.size + 1 = wordLimit) :
    builder.accepted [.setLoweredName first symbol, .setLoweredName second late] =
      [.setLoweredName first symbol] := by
  have room : builder.arena.names.size < wordLimit := by omega
  have grown : builder.arena.names.adding symbol = builder.arena.names.push symbol :=
    NameTable.adding_of_unknown (Option.not_isSome_iff_eq_none.mp isNew) room
  have unknown : ¬ ((builder.arena.names.push symbol).find? late).isSome := by
    rw [NameTable.find?_push, if_neg different]
    exact isNewToo
  have full : ¬ (builder.arena.names.push symbol).HasRoom late := by
    refine not_or.mpr ⟨unknown, ?_⟩
    simp only [NameTable.size, NameTable.push, Array.size_push] at onePlace ⊢
    omega
  have isAccepted : builder.accepts (.setLoweredName first symbol) :=
    (accepts_setter rfl).mpr ⟨.inr room, trivial⟩
  have isRefused : ¬ (builder.after (.setLoweredName first symbol)).accepts
      (.setLoweredName second late) := by
    rw [← refuses_iff rfl]
    refine ⟨late, rfl, ?_⟩
    rw [names_after rfl]
    change ¬ (builder.arena.names.adding symbol).HasRoom late
    rw [grown]
    exact full
  rw [accepted, if_pos isAccepted, accepted, if_neg isRefused, accepted]

/-- The setters of a run that are answered in another run, too. -/
def shared (builder : Builder) (calls other : List BuildCall) : List BuildCall :=
  (builder.accepted calls).filter (fun call =>
    call.isNamedIn (builder.afterAll other).arena.names)

def unshared (builder : Builder) (calls other : List BuildCall) : List BuildCall :=
  (builder.accepted calls).filter (fun call =>
    !call.isNamedIn (builder.afterAll other).arena.names)

theorem shared_append_unshared (builder : Builder) (calls other : List BuildCall) :
    (builder.shared calls other ++ builder.unshared calls other).Perm (builder.accepted calls) :=
  List.filter_append_perm _ _

theorem isSetter_of_shared (builder : Builder) (setters : ∀ call ∈ calls, call.isSetter) :
    ∀ call ∈ builder.shared calls other, call.isSetter :=
  fun call member => builder.isSetter_of_accepted setters call (List.mem_of_mem_filter member)

theorem accepted_parts (bijective : builder.arena.names.Bijective)
    (setters : ∀ call ∈ calls, call.isSetter) :
    builder.accepted (builder.shared calls other) = builder.shared calls other ∧
      (builder.afterAll (builder.shared calls other)).accepted (builder.unshared calls other) =
        builder.unshared calls other := by
  have parted := builder.shared_append_unshared calls other
  have acceptedSets := builder.isSetter_of_accepted setters
  exact accepted_append (isSetter_of_perm acceptedSets parted)
    (refusals_perm bijective acceptedSets parted (accepted_accepted builder setters))

theorem shared_perm (setters : ∀ call ∈ calls, call.isSetter)
    (otherSets : ∀ call ∈ other, call.isSetter) (reordered : other.Perm calls) :
    (builder.shared other calls).Perm (builder.shared calls other) := by
  unfold shared
  rw [accepted_eq_filter builder setters, accepted_eq_filter builder otherSets,
    List.filter_filter, List.filter_filter]
  simp only [Bool.and_comm]
  exact reordered.filter _

/-- Only a lowered name can find room in one order and none in another. -/
theorem eq_setLoweredName_of_unshared (member : call ∈ builder.unshared calls other) :
    ∃ id symbol, call = .setLoweredName id symbol := by
  have unnamed := (List.mem_filter.mp member).2
  unfold BuildCall.isNamedIn at unnamed
  cases call with
  | setLoweredName id symbol => exact ⟨id, symbol, rfl⟩
  | _ => cases unnamed

theorem not_accepted_of_unshared (otherSets : ∀ call ∈ other, call.isSetter)
    (member : call ∈ builder.unshared calls other) : call ∉ builder.accepted other := by
  have unnamed := (List.mem_filter.mp member).2
  rw [accepted_eq_filter builder otherSets, List.mem_filter]
  rintro ⟨_, named⟩
  rw [named] at unnamed
  cases unnamed

end Builder
end TigerTree
