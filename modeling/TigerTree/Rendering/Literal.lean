/-! String literals. Quote, backslash and seven control characters are written as a backslash and
one more character; every other character, other controls and non-ASCII text included, stands for
itself. -/

set_option autoImplicit false

namespace TigerTree
namespace Literal

def escapeChar : Char → List Char
  | '"' => ['\\', '"']
  | '\\' => ['\\', '\\']
  | '\x07' => ['\\', 'a']
  | '\x08' => ['\\', 'b']
  | '\t' => ['\\', 't']
  | '\n' => ['\\', 'n']
  | '\x0b' => ['\\', 'v']
  | '\x0c' => ['\\', 'f']
  | '\r' => ['\\', 'r']
  | char => [char]

def escape (contents : String) : String :=
  String.ofList (contents.toList.flatMap escapeChar)

/-- Appends escaped contents to a text, whatever that ends in. -/
def escapeOnto (text contents : String) : String :=
  contents.toList.foldl (fun written char => written ++ String.ofList (escapeChar char)) text

def quote (contents : String) : String :=
  "\"" ++ escape contents ++ "\""

end Literal
end TigerTree
