import TigerTree.Rendering.Basic

/-! Delivery of a rendered text to a sink. The whole text is rendered first, so a sink sees
nothing of a text that cannot be rendered. What a sink did not take is offered again; an
interruption is sat out, a sink that takes nothing has failed. -/

set_option autoImplicit false

namespace TigerTree

inductive SinkReply where
  /-- It took bytes from the front; it cannot take more than it was offered. -/
  | took (count : Nat)
  | interrupted
  | failed (reason : String)
  deriving DecidableEq

/-- A sink is known by its replies, which may depend on how often it was asked before, on the
number of bytes it has taken so far and on the number of bytes it is offered. -/
structure Sink where
  reply (asked taken offered : Nat) : SinkReply

inductive DeliveryEnd where
  | complete
  | refused (reason : String)
  | abandoned
  deriving DecidableEq

structure Attempt where
  offered : List UInt8
  reply : SinkReply
  deriving DecidableEq

def Attempt.taken (attempt : Attempt) : List UInt8 :=
  match attempt.reply with
  | .took count => attempt.offered.take count
  | .interrupted | .failed _ => []

def Attempt.takenInAll (attempts : List Attempt) : List UInt8 := attempts.flatMap taken

structure Delivery where
  attempts : List Attempt
  ending : DeliveryEnd
  deriving DecidableEq

def Delivery.after (attempt : Attempt) (delivery : Delivery) : Delivery :=
  { delivery with attempts := attempt :: delivery.attempts }

namespace Sink

/-- A sink that takes at most `chunk` bytes at a time and `limit` bytes in all, and answers
`full` where it can take none. -/
def metered (chunk limit : Nat) (full : SinkReply) : Sink where
  reply _ taken offered :=
    let count := min offered (min chunk (limit - taken))
    if count = 0 then full else .took count

def stalledReason : String := "failed to write whole buffer"

/-- Offers what remains until nothing does. Either some bytes are taken or an interruption is sat
out, so the sum of the two bounds the attempts. -/
def deliverFrom (sink : Sink) (patience asked taken : Nat) (remaining : List UInt8) : Delivery :=
  match remaining with
  | [] => ⟨[], .complete⟩
  | byte :: rest =>
      match sink.reply asked taken (rest.length + 1) with
      | .failed reason => ⟨[⟨byte :: rest, .failed reason⟩], .refused reason⟩
      | .took 0 => ⟨[⟨byte :: rest, .took 0⟩], .refused stalledReason⟩
      | .took (count + 1) =>
          (deliverFrom sink patience (asked + 1) (taken + (byte :: rest.take count).length)
            (rest.drop count)).after ⟨byte :: rest, .took (count + 1)⟩
      | .interrupted =>
          match patience with
          | 0 => ⟨[⟨byte :: rest, .interrupted⟩], .abandoned⟩
          | patience + 1 =>
              (deliverFrom sink patience (asked + 1) taken (byte :: rest)).after
                ⟨byte :: rest, .interrupted⟩
termination_by remaining.length + patience

/-- Offers a text, sitting out the given number of interruptions. An empty text asks for nothing. -/
def deliver (sink : Sink) (patience : Nat) (text : String) : Delivery :=
  sink.deliverFrom patience 0 0 text.toUTF8.toList

end Sink

inductive RenderOutcome where
  | complete
  | stopped (stop : Stop RenderError)
  | abandoned
  deriving DecidableEq

def RenderOutcome.ofEnding : DeliveryEnd → RenderOutcome
  | .complete => .complete
  | .refused reason => .stopped (.diagnosed (.undelivered reason))
  | .abandoned => .abandoned

/-- Renders a node and delivers the text; answers every attempt at the sink as well. -/
def Arena.deliverTo (arena : Arena) (style : Style) (node : NodeId) (sink : Sink)
    (patience : Nat) : RenderOutcome × List Attempt :=
  match arena.render style node with
  | .error stop => (.stopped stop, [])
  | .ok text =>
      let delivery := sink.deliver patience text
      (.ofEnding delivery.ending, delivery.attempts)

def Arena.renderTo (arena : Arena) (style : Style) (node : NodeId) (sink : Sink)
    (patience : Nat) : RenderOutcome × List UInt8 :=
  let (outcome, attempts) := arena.deliverTo style node sink patience
  (outcome, Attempt.takenInAll attempts)

end TigerTree
