import TigerTree.Proofs.Building.Amendments

/-! The names of a builder. Whatever is called, the table of names is one that interning has grown,
so its names and texts are in one-to-one correspondence. -/

set_option autoImplicit false

namespace TigerTree

section

variable {First Second : Type}

def BuildM.KeepsInterned (step : BuildM First) : Prop :=
  ∀ builder, builder.arena.names.Interned → (stateAfter step builder).arena.names.Interned

namespace BuildM.KeepsInterned

theorem of_names {step : BuildM First}
    (same : ∀ builder, (stateAfter step builder).arena.names = builder.arena.names) :
    step.KeepsInterned := by
  intro builder interned
  rw [same]
  exact interned

theorem bind {first : BuildM First} {second : First → BuildM Second}
    (keepsFirst : first.KeepsInterned) (keepsSecond : ∀ result, (second result).KeepsInterned) :
    (first >>= second).KeepsInterned := by
  intro builder interned
  have between := keepsFirst builder interned
  unfold stateAfter at between ⊢
  simp only [Bind.bind, EStateM.bind]
  cases run : first builder with
  | error fault new =>
      rw [run] at between
      exact between
  | ok result new =>
      rw [run] at between
      exact keepsSecond result new between

theorem map {step : BuildM First} (keeps : step.KeepsInterned) (change : First → Second) :
    (change <$> step).KeepsInterned := by
  intro builder interned
  rw [stateAfter_map]
  exact keeps builder interned

end BuildM.KeepsInterned
end

namespace Builder

open BuildM (KeepsInterned)

def symbols (calls : List BuildCall) : List String := calls.filterMap BuildCall.symbol?

theorem symbols_cons (call : BuildCall) (rest : List BuildCall) :
    symbols (call :: rest) = call.symbol?.toList ++ symbols rest := by
  rw [symbols, List.filterMap_cons]
  cases call.symbol? <;> rfl

theorem symbols_append (first second : List BuildCall) :
    symbols (first ++ second) = symbols first ++ symbols second :=
  List.filterMap_append

variable {builder : Builder} {calls other : List BuildCall}

theorem symbols_perm (reordered : other.Perm calls) : (symbols other).Perm (symbols calls) :=
  reordered.filterMap BuildCall.symbol?

theorem mem_symbols {symbol : String} :
    symbol ∈ symbols calls ↔ ∃ call ∈ calls, call.symbol? = some symbol :=
  List.mem_filterMap

theorem names_afterAll (builder : Builder) (setters : ∀ call ∈ calls, call.isSetter) :
    (builder.afterAll calls).arena.names = builder.arena.names.addingAll (symbols calls) := by
  induction calls generalizing builder with
  | nil => rfl
  | cons call rest ih =>
      have later := ih (builder.after call)
        (fun next isNext => setters next (List.mem_cons_of_mem call isNext))
      rw [names_after (setters call List.mem_cons_self)] at later
      rw [symbols_cons, NameTable.addingAll, List.foldl_append]
      exact later

theorem length_accepted_le (builder : Builder) (calls : List BuildCall) :
    (builder.accepted calls).length ≤ calls.length := by
  induction calls generalizing builder with
  | nil => exact Nat.le_refl 0
  | cons call rest ih =>
      have later := ih (builder.after call)
      rw [accepted]
      split
      · exact Nat.succ_le_succ later
      · exact Nat.le_succ_of_le later

theorem accepted_cons_eq_self (builder : Builder) (call : BuildCall) (rest : List BuildCall) :
    builder.accepted (call :: rest) = call :: rest ↔
      builder.accepts call ∧ (builder.after call).accepted rest = rest := by
  rw [accepted]
  by_cases isAccepted : builder.accepts call
  · simp [isAccepted]
  · rw [if_neg isAccepted]
    refine iff_of_false ?_ (fun both => isAccepted both.1)
    intro same
    have shorter := length_accepted_le (builder.after call) rest
    rw [same, List.length_cons] at shorter
    exact Nat.not_succ_le_self _ shorter

/-- Setters are all accepted exactly if their texts fit. -/
theorem accepted_iff_fits (setters : ∀ call ∈ calls, call.isSetter) :
    builder.accepted calls = calls ↔ builder.arena.names.Fits (symbols calls) := by
  induction calls generalizing builder with
  | nil => exact iff_of_true rfl trivial
  | cons call rest ih =>
      have setter := setters call List.mem_cons_self
      rw [accepted_cons_eq_self, accepts_setter setter,
        ih (fun next isNext => setters next (List.mem_cons_of_mem _ isNext)), names_after setter,
        symbols_cons, NameTable.fits_append]

end Builder
end TigerTree
