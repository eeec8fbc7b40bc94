import TigerTree.Builder

/-! How the tables grow. An addition keeps every answer that the tables have given and answers
for what it added; the steps of building are composed of additions. -/

set_option autoImplicit false

namespace TigerTree

/-- Every name that the index gives out is in the table. -/
def NameTable.Indexed (table : NameTable) : Prop :=
  ∀ text name, table.find? text = some name → table.text name = .ok text

/-- Every lookup that succeeds before succeeds afterwards, with the same answer. -/
structure Arena.Grows (old new : Arena) : Prop where
  expr : ∀ id expr, old.expr id = .ok expr → new.expr id = .ok expr
  exprList : ∀ range ids, old.exprList range = .ok ids → new.exprList range = .ok ids
  decl : ∀ id decl, old.decl id = .ok decl → new.decl id = .ok decl
  declList : ∀ range ids, old.declList range = .ok ids → new.declList range = .ok ids
  text : ∀ name text, old.text name = .ok text → new.text name = .ok text
  indexed : old.names.Indexed → new.names.Indexed

namespace Arena.Grows

theorem refl (arena : Arena) : arena.Grows arena :=
  ⟨fun _ _ => id, fun _ _ => id, fun _ _ => id, fun _ _ => id, fun _ _ => id, id⟩

theorem trans {first second third : Arena} (earlier : first.Grows second)
    (later : second.Grows third) : first.Grows third where
  expr id expr found := later.expr id expr (earlier.expr id expr found)
  exprList range ids found := later.exprList range ids (earlier.exprList range ids found)
  decl id decl found := later.decl id decl (earlier.decl id decl found)
  declList range ids found := later.declList range ids (earlier.declList range ids found)
  text name text found := later.text name text (earlier.text name text found)
  indexed was := later.indexed (earlier.indexed was)

end Arena.Grows

theorem bind_eq_ok {First Second : Type} {first : Except Fault First}
    {second : First → Except Fault Second} {result : Second}
    (run : first >>= second = .ok result) :
    ∃ between, first = .ok between ∧ second between = .ok result := by
  cases first with
  | error fault => cases run
  | ok between => exact ⟨between, rfl, run⟩

/-- A shape depends on the lists alone. -/
theorem Arena.shape_of_lists {old new : Arena}
    (exprList : ∀ range ids, old.exprList range = .ok ids → new.exprList range = .ok ids)
    (declList : ∀ range ids, old.declList range = .ok ids → new.declList range = .ok ids)
    {form : StoredForm} {shape : Shape} (resolved : old.shape form = .ok shape) :
    new.shape form = .ok shape := by
  cases form with
  | sequence elements =>
      obtain ⟨ids, listed, same⟩ := bind_eq_ok resolved
      rw [Arena.shape, exprList elements ids listed]
      exact same
  | letIn decls body =>
      obtain ⟨declIds, listedDecls, resolved⟩ := bind_eq_ok resolved
      obtain ⟨bodyIds, listedBody, same⟩ := bind_eq_ok resolved
      rw [Arena.shape, declList decls declIds listedDecls, exprList body bodyIds listedBody]
      exact same
  | call function arguments link =>
      obtain ⟨ids, listed, same⟩ := bind_eq_ok resolved
      rw [Arena.shape, exprList arguments ids listed]
      exact same
  | _ => exact resolved

private theorem getElem?_push_of_some {Entry : Type} {table : Array Entry} {index : Nat}
    {entry : Entry} (found : table[index]? = some entry) (added : Entry) :
    (table.push added)[index]? = some entry := by
  obtain ⟨inside, _⟩ := Array.getElem?_eq_some_iff.mp found
  rw [Array.getElem?_push_lt inside, ← found]
  exact (Array.getElem?_eq_getElem inside).symm

private theorem getElem?_push_size {Entry : Type} (table : Array Entry) (added : Entry)
    (room : table.size < wordLimit) :
    (table.push added)[table.size.toUInt32.toNat]? = some added := by
  have exact : table.size.toUInt32.toNat = table.size := UInt32.toNat_ofNat_of_lt room
  rw [exact, Array.getElem?_push_size]

theorem size_appendList {Entry : Type} (table : Array Entry) (added : List Entry) :
    (table.appendList added).size = table.size + added.length := by
  rw [← Array.length_toList, Array.appendList_eq_append, Array.toList_appendList,
    List.length_append, Array.length_toList]

def slice {Entry : Type} (table : Array Entry) (range : ListRange Entry) :
    Except Fault (List Entry) :=
  if range.stop ≤ table.size then .ok (table.extract range.start.toNat range.stop).toList
  else .error .rangeOutOfBounds

private theorem slice_appendList {Entry : Type} {table : Array Entry} {range : ListRange Entry}
    {listed : List Entry} (found : slice table range = .ok listed) (added : List Entry) :
    slice (table.appendList added) range = .ok listed := by
  unfold slice at found ⊢
  split at found
  · rename_i inside
    have ordered : range.start.toNat ≤ range.stop := Nat.le_add_right _ _
    have stillInside : range.stop ≤ (table.appendList added).size := by
      rw [size_appendList]
      omega
    rw [if_pos stillInside, ← found]
    simp only [Array.toList_extract, Array.toList_appendList, List.extract_eq_take_drop,
      Array.appendList_eq_append]
    rw [List.drop_append_of_le_length (by simp; omega),
      List.take_append_of_le_length (by simp; omega)]
  · cases found

private theorem slice_added {Entry : Type} {table : Array Entry} {added : List Entry}
    (room : table.size + added.length < wordLimit) :
    slice (table.appendList added) ⟨table.size.toUInt32, added.length.toUInt32⟩ = .ok added := by
  have exactStart : table.size.toUInt32.toNat = table.size :=
    UInt32.toNat_ofNat_of_lt (Nat.lt_of_le_of_lt (Nat.le_add_right _ _) room)
  have exactLength : added.length.toUInt32.toNat = added.length :=
    UInt32.toNat_ofNat_of_lt (Nat.lt_of_le_of_lt (Nat.le_add_left _ _) room)
  have inside : table.size + added.length ≤ (table.appendList added).size :=
    Nat.le_of_eq (size_appendList table added).symm
  simp only [slice, ListRange.stop, exactStart, exactLength, if_pos inside]
  simp

/-- All that adding a list can do: it is found in its range, or there is no room for all of it. In
either case the lists that were there stay. -/
theorem addList_cases {Id : Type} (ids : List Id) (lists : Array Id) :
    ∃ new, (∀ range listed, slice lists range = .ok listed → slice new range = .ok listed) ∧
      new.size ≤ lists.size + ids.length ∧
      ((∃ range, Arena.addList ids lists = .ok range new ∧ slice new range = .ok ids) ∨
        Arena.addList ids lists = .error .capacityExceeded new ∧
          wordLimit ≤ lists.size + ids.length) := by
  have keeps (range : ListRange Id) (listed : List Id) (found : slice lists range = .ok listed) :
      slice (lists.appendList ids) range = .ok listed := slice_appendList found ids
  have size := Nat.le_of_eq (size_appendList lists ids)
  by_cases inside : lists.size < wordLimit
  · by_cases room : lists.size + ids.length < wordLimit
    · refine ⟨_, keeps, size, .inl ⟨_, ?_, slice_added room⟩⟩
      rw [Arena.addList, if_pos inside, if_pos room]
    · refine ⟨_, keeps, size, .inr ⟨?_, Nat.le_of_not_lt room⟩⟩
      rw [Arena.addList, if_pos inside, if_neg room]
  · refine ⟨lists, fun _ _ => id, Nat.le_add_right _ _, .inr ⟨?_, ?_⟩⟩
    · rw [Arena.addList, if_neg inside]
    · exact Nat.le_add_right_of_le (Nat.le_of_not_lt inside)

namespace Arena

theorem expr_eq_ok {arena : Arena} {id : ExprId} {expr : Expr} :
    arena.expr id = .ok expr ↔ arena.exprs[id.index.toNat]? = some expr := by
  unfold Arena.expr
  split <;> simp_all

theorem decl_eq_ok {arena : Arena} {id : DeclId} {decl : Decl} :
    arena.decl id = .ok decl ↔ arena.decls[id.index.toNat]? = some decl := by
  unfold Arena.decl
  split <;> simp_all

end Arena

theorem NameTable.text_eq_ok {table : NameTable} {name : Name} {text : String} :
    table.text name = .ok text ↔ table.texts[name.index.toNat]? = some text := by
  unfold NameTable.text
  split <;> simp_all

theorem NameTable.find?_push (table : NameTable) (added text : String) :
    (table.push added).find? text =
      if text = added then some ⟨table.size.toUInt32⟩ else table.find? text := by
  change List.lookup text ((added, _) :: table.index) = _
  rw [List.lookup_cons]
  by_cases same : text = added
  · rw [if_pos same, beq_iff_eq.mpr same]
    rfl
  · rw [if_neg same, beq_false_of_ne same]
    rfl

/-- What an addition comes to: the tables have grown, and what it answers holds of them. -/
def ArenaM.Adds {Result : Type} (addition : ArenaM Result) (arena : Arena)
    (answer : Result → Arena → Prop) : Prop :=
  match addition arena with
  | .ok result new => arena.Grows new ∧ answer result new
  | .error _ new => arena.Grows new

namespace ArenaM.Adds

variable {Result : Type} {addition : ArenaM Result} {arena new : Arena}
  {answer : Result → Arena → Prop}

theorem of_ok {result : Result} (run : addition arena = .ok result new) (grows : arena.Grows new)
    (holds : answer result new) : addition.Adds arena answer := by
  unfold ArenaM.Adds
  rw [run]
  exact ⟨grows, holds⟩

theorem of_error {fault : Fault} (run : addition arena = .error fault new)
    (grows : arena.Grows new) : addition.Adds arena answer := by
  unfold ArenaM.Adds
  rw [run]
  exact grows

end ArenaM.Adds

namespace Arena

theorem addExpr_adds (arena : Arena) (expr : Expr) :
    (addExpr expr).Adds arena (fun id new => new.expr id = .ok expr) := by
  by_cases room : arena.exprs.size < wordLimit
  · refine .of_ok (by rw [addExpr, if_pos room]) ?_
      (expr_eq_ok.mpr (getElem?_push_size arena.exprs expr room))
    refine { Grows.refl arena with expr := ?_ }
    intro id found isFound
    exact expr_eq_ok.mpr (getElem?_push_of_some (expr_eq_ok.mp isFound) expr)
  · exact .of_error (by rw [addExpr, if_neg room]) (Grows.refl arena)

theorem addDecl_adds (arena : Arena) (decl : Decl) :
    (addDecl decl).Adds arena (fun id new => new.decl id = .ok decl) := by
  by_cases room : arena.decls.size < wordLimit
  · refine .of_ok (by rw [addDecl, if_pos room]) ?_
      (decl_eq_ok.mpr (getElem?_push_size arena.decls decl room))
    refine { Grows.refl arena with decl := ?_ }
    intro id found isFound
    exact decl_eq_ok.mpr (getElem?_push_of_some (decl_eq_ok.mp isFound) decl)
  · exact .of_error (by rw [addDecl, if_neg room]) (Grows.refl arena)

theorem addExprList_cases (arena : Arena) (ids : List ExprId) :
    ∃ lists, arena.Grows { arena with exprLists := lists } ∧
      lists.size ≤ arena.exprLists.size + ids.length ∧
      ((∃ range, addExprList ids arena = .ok range { arena with exprLists := lists } ∧
          exprList { arena with exprLists := lists } range = .ok ids) ∨
        addExprList ids arena = .error .capacityExceeded { arena with exprLists := lists } ∧
          wordLimit ≤ arena.exprLists.size + ids.length) := by
  obtain ⟨exprs, exprLists, decls, declLists, names⟩ := arena
  obtain ⟨lists, keeps, size, outcome⟩ := addList_cases ids exprLists
  refine ⟨lists, { Grows.refl _ with exprList := keeps }, size, ?_⟩
  rcases outcome with ⟨range, run, listed⟩ | ⟨run, full⟩
  · exact .inl ⟨range, by simp only [addExprList, run], listed⟩
  · exact .inr ⟨by simp only [addExprList, run], full⟩

theorem addExprList_adds (arena : Arena) (ids : List ExprId) :
    (addExprList ids).Adds arena (fun range new => new.exprList range = .ok ids) := by
  obtain ⟨lists, grows, _, ⟨range, run, listed⟩ | ⟨run, _⟩⟩ := addExprList_cases arena ids
  · exact .of_ok run grows listed
  · exact .of_error run grows

theorem addDeclList_cases (arena : Arena) (ids : List DeclId) :
    ∃ lists, arena.Grows { arena with declLists := lists } ∧
      lists.size ≤ arena.declLists.size + ids.length ∧
      ((∃ range, addDeclList ids arena = .ok range { arena with declLists := lists } ∧
          declList { arena with declLists := lists } range = .ok ids) ∨
        addDeclList ids arena = .error .capacityExceeded { arena with declLists := lists } ∧
          wordLimit ≤ arena.declLists.size + ids.length) := by
  obtain ⟨exprs, exprLists, decls, declLists, names⟩ := arena
  obtain ⟨lists, keeps, size, outcome⟩ := addList_cases ids declLists
  refine ⟨lists, { Grows.refl _ with declList := keeps }, size, ?_⟩
  rcases outcome with ⟨range, run, listed⟩ | ⟨run, full⟩
  · exact .inl ⟨range, by simp only [addDeclList, run], listed⟩
  · exact .inr ⟨by simp only [addDeclList, run], full⟩

theorem addDeclList_adds (arena : Arena) (ids : List DeclId) :
    (addDeclList ids).Adds arena (fun range new => new.declList range = .ok ids) := by
  obtain ⟨lists, grows, _, ⟨range, run, listed⟩ | ⟨run, _⟩⟩ := addDeclList_cases arena ids
  · exact .of_ok run grows listed
  · exact .of_error run grows

private theorem grows_push {arena : Arena} (text : String)
    (room : arena.names.size < wordLimit) :
    arena.Grows { arena with names := arena.names.push text } := by
  have kept : ∀ name known, arena.names.text name = .ok known →
      (arena.names.push text).text name = .ok known := by
    intro name known isKnown
    exact NameTable.text_eq_ok.mpr
      (getElem?_push_of_some (NameTable.text_eq_ok.mp isKnown) text)
  refine { Grows.refl arena with text := kept, indexed := ?_ }
  intro indexed other name found
  rw [NameTable.find?_push] at found
  split at found
  · rename_i same
    rw [← Option.some.inj found, same]
    exact NameTable.text_eq_ok.mpr (getElem?_push_size arena.names.texts text room)
  · exact kept name other (indexed other name found)

theorem intern_adds (arena : Arena) (indexed : arena.names.Indexed) (text : String) :
    (intern text).Adds arena (fun name new => new.text name = .ok text) := by
  cases found : arena.names.find? text with
  | some name =>
      exact .of_ok (by simp only [intern, NameTable.intern, found]) (Grows.refl arena)
        (indexed text name found)
  | none =>
      by_cases room : arena.names.size < wordLimit
      · refine .of_ok (by simp only [intern, NameTable.intern, found, if_pos room]; rfl)
          (grows_push text room) ?_
        exact NameTable.text_eq_ok.mpr (getElem?_push_size arena.names.texts text room)
      · exact .of_error (by simp only [intern, NameTable.intern, found, if_neg room]; rfl)
          (Grows.refl arena)

end Arena

theorem NameTable.indexed_initial : NameTable.initial.Indexed := by
  intro text name found
  change List.lookup text [("", Name.empty)] = some name at found
  rw [List.lookup_cons] at found
  split at found
  · rename_i same
    rw [← Option.some.inj found, eq_of_beq same]
    rfl
  · cases found

/-! ### Steps of building -/

def BuildM.Adds {Result : Type} (step : BuildM Result) (builder : Builder)
    (answer : Result → Arena → Prop) : Prop :=
  match step builder with
  | .ok result new => builder.arena.Grows new.arena ∧ answer result new.arena
  | .error _ new => builder.arena.Grows new.arena

namespace BuildM.Adds

variable {First Second : Type} {builder : Builder}

theorem pure {result : First} {answer : First → Arena → Prop}
    (holds : answer result builder.arena) :
    BuildM.Adds (Pure.pure result) builder answer :=
  ⟨Arena.Grows.refl builder.arena, holds⟩

theorem bind {first : BuildM First} {second : First → BuildM Second}
    {between : First → Arena → Prop} {answer : Second → Arena → Prop}
    (adds : first.Adds builder between)
    (andThen : ∀ result new, builder.arena.Grows new.arena → between result new.arena →
      (second result).Adds new answer) : (first >>= second).Adds builder answer := by
  unfold BuildM.Adds at adds
  cases run : first builder with
  | error fault new =>
      have runBoth : (first >>= second) builder = .error fault new := by
        simp only [Bind.bind, EStateM.bind, run]
      rw [run] at adds
      unfold BuildM.Adds
      rw [runBoth]
      exact adds
  | ok result new =>
      rw [run] at adds
      have later := andThen result new adds.1 adds.2
      unfold BuildM.Adds at later ⊢
      have runBoth : (first >>= second) builder = second result new := by
        simp only [Bind.bind, EStateM.bind, run]
      rw [runBoth]
      cases runSecond : second result new with
      | ok answered last =>
          rw [runSecond] at later
          exact ⟨adds.1.trans later.1, later.2⟩
      | error fault last =>
          rw [runSecond] at later
          exact adds.1.trans later

theorem onArena {change : ArenaM First} {answer : First → Arena → Prop}
    (adds : change.Adds builder.arena answer) :
    (Builder.onArena change).Adds builder answer := by
  unfold ArenaM.Adds at adds
  unfold BuildM.Adds Builder.onArena
  simp only
  cases run : change builder.arena with
  | ok result new =>
      rw [run] at adds
      exact adds
  | error fault new =>
      rw [run] at adds
      exact adds

end BuildM.Adds
end TigerTree
