import TigerTree.Evaluation.Basic
import TigerTree.Inspection
import TigerTree.Rendering.Basic

/-! What an evaluation or a rendering reports about itself: spans that are opened and closed, and
events in between. A fault ends the walk without an event, so of it only the closings show. -/

set_option autoImplicit false

namespace TigerTree

inductive JournalLevel where
  | trace
  | debug
  deriving DecidableEq

def JournalLevel.tag : JournalLevel → String
  | .trace => "TRACE"
  | .debug => "DEBUG"

abbrev JournalFields := List (String × String)

inductive JournalEntry where
  | opened (level : JournalLevel) (span : String) (fields : JournalFields)
  | event (level : JournalLevel) (fields : JournalFields)
  | closed
  deriving DecidableEq

def JournalEntry.spanning (span : String) (fields : JournalFields)
    (entries : List JournalEntry) : List JournalEntry :=
  .opened .debug span fields :: entries ++ [.closed]

/-- A rejected construct is noted where it is met; a violation is not. -/
def EvalError.entries (error : EvalError) : List JournalEntry :=
  match error.cause with
  | .violated _ => []
  | .unsupported construct =>
      [.event .trace
        [("message", "unsupported construct"),
          ("construct", construct.construct),
          ("loc", (error.location.getD Location.dummy).text)]]

def evaluationEntries (root : NodeId) : EvalM Int32 → List JournalEntry
  | .ok value =>
      [.event .debug
        [("message", "evaluation complete"), ("root", root.inspect),
          ("value", toString value.toInt)]]
  | .error (.diagnosed error) =>
      error.entries ++
        [.event .debug
          [("message", "evaluation failed"), ("root", root.inspect), ("err", error.message)]]
  | .error (.faulted _) => []

def Arena.evaluationJournal (arena : Arena) (root : NodeId) : List JournalEntry :=
  JournalEntry.spanning "evaluate" [] (evaluationEntries root (arena.evaluate root))

def RenderError.entries : RenderError → List JournalEntry
  | .undelivered _ => []
  | .violated violation location =>
      [.event .trace
        [("message", "invariant violation"), ("violation", violation.message),
          ("loc", location.text)]]

def renderingEntries (root : NodeId) : Except (Stop RenderError) String → List JournalEntry
  | .ok text =>
      [.event .debug
        [("message", "render complete"), ("root", root.inspect),
          ("bytes", toString text.utf8ByteSize)]]
  | .error (.diagnosed error) =>
      error.entries ++
        [.event .debug
          [("message", "render failed"), ("root", root.inspect), ("err", error.message)]]
  | .error (.faulted _) => []

/-- What rendering a node to a sink reports; the delivery itself reports nothing. -/
def Arena.renderingJournal (arena : Arena) (style : Style) (root : NodeId) : List JournalEntry :=
  let fields := [("verbose", toString style.verbose)]
  JournalEntry.spanning "render" fields
    (JournalEntry.spanning "render_to_string" fields
      (renderingEntries root (arena.render style root)))

end TigerTree
