/-! A fault is a broken table reference or an exceeded machine limit. It says nothing about the
program a tree stands for; what is wrong with a program is a diagnostic of the consumer. -/

set_option autoImplicit false

namespace TigerTree

inductive Fault where
  | indexOutOfBounds
  | rangeOutOfBounds
  /-- A range end exceeds 32 bits, or an indentation width exceeds 64 bits. -/
  | arithmeticOverflow
  /-- A table already holds as many entries as there are indices. -/
  | capacityExceeded
  /-- A node lies below itself, so the walk would not end. -/
  | cyclicTree
  deriving DecidableEq

inductive Stop (Diagnostic : Type) where
  | diagnosed (diagnostic : Diagnostic)
  | faulted (fault : Fault)
  deriving DecidableEq

def Stop.ofLookup {Diagnostic Result : Type} :
    Except Fault Result → Except (Stop Diagnostic) Result
  | .ok result => .ok result
  | .error fault => .error (.faulted fault)

/-- Indices and list lengths are 32-bit words. -/
def wordLimit : Nat := UInt32.size

end TigerTree
