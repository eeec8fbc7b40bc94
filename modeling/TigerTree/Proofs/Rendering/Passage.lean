import TigerTree.Rendering.Draft

/-! What a drafting step does, told as data. A passage lists pieces whose levels count from where
the step starts, and says why and how deep the step stops if it does. Passages follow one another
and are raised; drafting steps that are composed likewise perform them. -/

set_option autoImplicit false

namespace TigerTree

def Piece.raise (levels : Nat) : Piece → Piece
  | .line level => .line (level + levels)
  | piece => piece

theorem Piece.raise_zero (piece : Piece) : piece.raise 0 = piece := by
  cases piece <;> rfl

theorem Piece.map_raise_zero (pieces : List Piece) : pieces.map (Piece.raise 0) = pieces := by
  simp [List.map_congr_left (fun piece _ => Piece.raise_zero piece)]

theorem Piece.raise_raise (first second : Nat) (piece : Piece) :
    (piece.raise first).raise second = piece.raise (first + second) := by
  cases piece <;> simp [Piece.raise, Nat.add_assoc]

structure Passage where
  pieces : List Piece
  /-- Why it stops early, and how many levels deeper than it started. -/
  stop : Option (Stop RenderError × Nat)

namespace Passage

def empty : Passage := ⟨[], none⟩

def write (piece : Piece) : Passage := ⟨[piece], none⟩

def text (text : String) : Passage := write (.text text)

def line : Passage := write (.line 0)

def halt (stop : Stop RenderError) : Passage := ⟨[], some (stop, 0)⟩

def violated (violation : Violation) (location : Location) : Passage :=
  halt (.diagnosed (.violated violation location))

/-- A looked-up result and what is written of it; a fault stops the passage. -/
def look {Result : Type} (lookup : Except Fault Result) (write : Result → Passage) : Passage :=
  match lookup with
  | .ok result => write result
  | .error fault => halt (.faulted fault)

/-- The second passage after the first, unless the first stops. -/
def append (first second : Passage) : Passage :=
  match first.stop with
  | none => ⟨first.pieces ++ second.pieces, second.stop⟩
  | some _ => first

instance : Append Passage := ⟨append⟩

def raise (levels : Nat) (inner : Passage) : Passage :=
  ⟨inner.pieces.map (Piece.raise levels),
    inner.stop.map (fun (stop, depth) => (stop, depth + levels))⟩

def concat : List Passage → Passage
  | [] => empty
  | passage :: rest => passage ++ concat rest

def eachAfter (lead : Passage) : List Passage → Passage
  | [] => empty
  | passage :: rest => lead ++ (passage ++ eachAfter lead rest)

def joined (separator : Passage) : List Passage → Passage
  | [] => empty
  | passage :: rest => passage ++ eachAfter separator rest

theorem append_of_complete {first second : Passage} (complete : first.stop = none) :
    first ++ second = ⟨first.pieces ++ second.pieces, second.stop⟩ := by
  change append first second = _
  simp only [append, complete]

theorem append_of_stopped {first second : Passage} {stopped : Stop RenderError × Nat}
    (stops : first.stop = some stopped) : first ++ second = first := by
  change append first second = _
  simp only [append, stops]

@[simp]
theorem empty_append (passage : Passage) : empty ++ passage = passage := by
  rw [append_of_complete rfl]
  simp [empty]

@[simp]
theorem append_empty (passage : Passage) : passage ++ empty = passage := by
  cases stops : passage.stop with
  | none =>
      rw [append_of_complete stops]
      cases passage
      cases stops
      simp [empty]
  | some stopped => exact append_of_stopped stops

@[simp]
theorem append_assoc (first second third : Passage) :
    first ++ second ++ third = first ++ (second ++ third) := by
  cases stops : first.stop with
  | some stopped => simp only [append_of_stopped stops]
  | none =>
      have bothStop : (first ++ second).stop = second.stop := by rw [append_of_complete stops]
      cases stopsToo : second.stop with
      | some stopped =>
          rw [append_of_stopped (bothStop.trans stopsToo), append_of_stopped stopsToo]
      | none =>
          rw [append_of_complete (bothStop.trans stopsToo), append_of_complete stopsToo,
            append_of_complete stops, append_of_complete stops, List.append_assoc]

@[simp]
theorem look_ok {Result : Type} (result : Result) (written : Result → Passage) :
    look (.ok result) written = written result := rfl

@[simp]
theorem look_error {Result : Type} (fault : Fault) (written : Result → Passage) :
    look (.error fault) written = halt (.faulted fault) := rfl

@[simp]
theorem raise_zero (passage : Passage) : raise 0 passage = passage := by
  obtain ⟨pieces, stop⟩ := passage
  cases stop <;> simp [raise, Piece.map_raise_zero]

theorem raise_append (levels : Nat) (first second : Passage) :
    raise levels (first ++ second) = raise levels first ++ raise levels second := by
  cases stops : first.stop with
  | some stopped =>
      have stopsRaised : (raise levels first).stop = some (stopped.1, stopped.2 + levels) := by
        simp only [raise, stops, Option.map_some]
      rw [append_of_stopped stops, append_of_stopped stopsRaised]
  | none =>
      have completeRaised : (raise levels first).stop = none := by
        simp only [raise, stops, Option.map_none]
      rw [append_of_complete stops, append_of_complete completeRaised]
      simp [raise]

theorem concat_append (first second : List Passage) :
    concat (first ++ second) = concat first ++ concat second := by
  induction first with
  | nil => exact (empty_append _).symm
  | cons passage rest ih => rw [List.cons_append, concat, concat, ih, append_assoc]

theorem raise_eachAfter (levels : Nat) (lead : Passage) (passages : List Passage) :
    raise levels (eachAfter lead passages) =
      eachAfter (raise levels lead) (passages.map (raise levels)) := by
  induction passages with
  | nil => rfl
  | cons passage rest ih => simp only [eachAfter, raise_append, ih, List.map_cons]

theorem raise_joined (levels : Nat) (separator : Passage) (passages : List Passage) :
    raise levels (joined separator passages) =
      joined (raise levels separator) (passages.map (raise levels)) := by
  cases passages with
  | nil => rfl
  | cons passage rest => simp only [joined, raise_append, raise_eachAfter, List.map_cons]

def perform (passage : Passage) : DraftM Unit := fun draft =>
  let pieces := draft.pieces ++ (passage.pieces.map (Piece.raise draft.level)).toArray
  match passage.stop with
  | none => .ok () ⟨pieces, draft.level⟩
  | some (stop, depth) => .error stop ⟨pieces, draft.level + depth⟩

@[simp]
theorem perform_empty : pure () = empty.perform := by
  funext draft
  simp [perform, empty, pure, EStateM.pure]

@[simp]
theorem perform_text (words : String) : Draft.text words = (text words).perform := by
  funext draft
  simp [perform, text, write, Draft.text, Draft.put, Piece.raise]

@[simp]
theorem perform_literal (contents : String) :
    Draft.literal contents = (write (.literal contents)).perform := by
  funext draft
  simp [perform, write, Draft.literal, Draft.put, Piece.raise]

@[simp]
theorem perform_comment (words : String) :
    Draft.comment words = (write (.comment words)).perform := by
  funext draft
  simp [perform, write, Draft.comment, Draft.put, Piece.raise]

@[simp]
theorem perform_line : Draft.breakLine = line.perform := by
  funext draft
  simp [perform, line, write, Draft.breakLine, Piece.raise]

@[simp]
theorem perform_violated (violation : Violation) (location : Location) :
    Draft.violated violation location = (violated violation location).perform := by
  funext draft
  simp [perform, violated, halt, Draft.violated]

@[simp]
theorem perform_append (first second : Passage) :
    (first.perform >>= fun _ => second.perform) = (first ++ second).perform := by
  funext draft
  obtain ⟨firstPieces, firstStop⟩ := first
  cases firstStop with
  | none =>
      rw [append_of_complete rfl]
      simp [perform, bind, EStateM.bind, List.map_append]
  | some stopped =>
      rw [append_of_stopped rfl]
      simp [perform, bind, EStateM.bind]

@[simp]
theorem perform_append_bind (first second : Passage) (after : Unit → DraftM Unit) :
    (first.perform >>= fun _ => second.perform >>= after) =
      ((first ++ second).perform >>= after) := by
  rw [← perform_append, bind_assoc]

@[simp]
theorem perform_look_ok {Result : Type} (result : Result) (action : Result → DraftM Unit) :
    (Draft.look (.ok result) >>= action) = action result := rfl

@[simp]
theorem perform_look_error {Result : Type} (fault : Fault) (action : Result → DraftM Unit) :
    (Draft.look (.error fault) >>= action) = (halt (.faulted fault)).perform := by
  funext draft
  simp [perform, halt, Draft.look, bind, EStateM.bind]

@[simp]
theorem perform_look {Result : Type} (lookup : Except Fault Result)
    (written : Result → Passage) :
    (Draft.look lookup >>= fun result => (written result).perform) =
      (look lookup written).perform := by
  cases lookup with
  | ok result => rfl
  | error fault => exact perform_look_error fault _

/-- What stands between raising and lowering the level is raised. -/
@[simp]
theorem perform_raise (inner after : Passage) :
    (Draft.indent >>= fun _ => inner.perform >>= fun _ => Draft.dedent >>= fun _ =>
      after.perform) = (raise 1 inner ++ after).perform := by
  funext draft
  obtain ⟨pieces, stop⟩ := inner
  have raised : (pieces.map (Piece.raise 1)).map (Piece.raise draft.level) =
      pieces.map (Piece.raise (draft.level + 1)) := by
    simp [List.map_map, Function.comp_def, Piece.raise_raise, Nat.add_comm 1]
  cases stop with
  | none =>
      rw [append_of_complete rfl]
      simp [perform, raise, bind, EStateM.bind, Draft.indent, Draft.dedent,
        Piece.raise_raise, Function.comp_def, Nat.add_comm 1]
  | some stopped =>
      rw [append_of_stopped rfl]
      simp [perform, raise, bind, EStateM.bind, Draft.indent,
        Piece.raise_raise, Function.comp_def, Nat.add_comm 1, Nat.add_assoc]

@[simp]
theorem perform_raise_last (inner : Passage) :
    (Draft.indent >>= fun _ => inner.perform >>= fun _ => Draft.dedent) =
      (raise 1 inner).perform := by
  have unchanged := perform_raise inner empty
  rw [append_empty, ← perform_empty] at unchanged
  rw [← unchanged]
  simp only [bind_pure_unit]

@[simp]
theorem perform_eachAfter {Node : Type} (lead : Passage) (passage : Node → Passage)
    (nodes : List Node) :
    Draft.eachAfter lead.perform (fun node => (passage node).perform) nodes =
      (eachAfter lead (nodes.map passage)).perform := by
  induction nodes with
  | nil => exact perform_empty
  | cons node rest ih =>
      simp only [Draft.eachAfter, List.map_cons, eachAfter, ih, perform_append]

@[simp]
theorem perform_joined {Node : Type} (separator : Passage) (passage : Node → Passage)
    (nodes : List Node) :
    Draft.joined separator.perform (fun node => (passage node).perform) nodes =
      (joined separator (nodes.map passage)).perform := by
  cases nodes with
  | nil => exact perform_empty
  | cons node rest =>
      simp only [Draft.joined, List.map_cons, joined, perform_eachAfter, perform_append]

end Passage
end TigerTree
