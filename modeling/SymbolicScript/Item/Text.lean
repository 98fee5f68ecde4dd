import SymbolicScript.Item.Basic

/-!
# The text of items

Constants and variables are written in the notation of reports. Wrappers do not show. The identity
of a fresh unknown has no notation of its own, so its name is a parameter.
-/

namespace SymbolicScript

namespace Item

/-- The texts in order, with `between` between neighbours. -/
def joinTexts (between : String) : List String → String
  | [] => ""
  | [text] => text
  | text :: rest => text ++ between ++ joinTexts between rest

mutual

/-- The text of an item, where `name` names the fresh unknowns. -/
def text (name : Nat → String) : Item → String
  | null => "null"
  | boolean value => if value then "true" else "false"
  | integer value => toString value
  | byteString bytes => "0x" ++ Hex.encode bytes
  | pointer target => "&" ++ Hex.padded 4 target
  | buffer handle => "buffer#" ++ toString handle
  | array handle => "array#" ++ toString handle
  | struct handle => "struct#" ++ toString handle
  | unknown type (.extension index) => "?" ++ toString index ++ ": " ++ type.name
  | unknown type (.fresh id) => "?" ++ name id ++ ": " ++ type.name
  | const inner => inner.text name
  | slot kind index => kind.name ++ "[" ++ toString index ++ "]"
  | storage key => "storage[" ++ key.text name ++ "]"
  | derived opcode operands =>
    opcode.mnemonic ++ "(" ++ joinTexts ", " (texts name operands) ++ ")"
  | stackDepth => "depth"

/-- The texts of several items. -/
def texts (name : Nat → String) : List Item → List String
  | [] => []
  | x :: xs => x.text name :: texts name xs

end

end Item

end SymbolicScript
