import DispatchGen.Text.Lowercase

/-!
# Handler names

The handler of an opcode is its lowercased name with the opcode prefix taken off and the handler
prefix put in front: `VE_ADD` becomes `score_add` under the prefixes `VE_` and `score_`.
-/

namespace DispatchGen

/-- How opcode names become handler names. -/
structure Naming where
  opcodePrefix : String := ""
  handlerPrefix : String := ""
deriving DecidableEq, Repr

namespace Naming

/-- The lowercased name without the lowercased opcode prefix, which is taken off at most once and
never leaves nothing. -/
def stem (naming : Naming) (name : String) : List Char :=
  let lead := (Text.lowercase naming.opcodePrefix).toList
  let whole := (Text.lowercase name).toList
  if lead.isPrefixOf whole && lead.length < whole.length then whole.drop lead.length else whole

/-- The handler of the opcode called `name`. -/
def handlerName (naming : Naming) (name : String) : String :=
  naming.handlerPrefix ++ String.ofList (naming.stem name)

end Naming

end DispatchGen
