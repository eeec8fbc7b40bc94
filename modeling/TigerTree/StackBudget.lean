/-! Figures for a host that runs walks over deep trees on a native stack made of segments. The
walks of this library are bounded by the tables they read and need neither figure. -/

set_option autoImplicit false

namespace TigerTree
namespace StackBudget

/-- Bytes that are to be free before a walk goes one level deeper. -/
def redZone : Nat := 128 * 1024

def segment : Nat := 2 * 1024 * 1024

end StackBudget
end TigerTree
