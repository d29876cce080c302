import Dispatch.Json.Basic
import Dispatch.Layout.Basic

/-!
# Layouts as JSON

What is absent is left out: the argument of the root, the description of a placeholder that has
none, and the children of a leaf.

## Main definitions

* `Argument.toJson` — an argument as an object with a tag
* `Layout.toJson` — a layout as nested objects
-/

set_option autoImplicit false

namespace Dispatch

/-- An argument as an object, the member `type` telling a keyword from a placeholder. -/
def Argument.toJson : Argument → Json
  | literal text => .object [("type", .text "literal"), ("text", .text text)]
  | typed name kind description =>
    .object
      ([("type", .text "typed"), ("name", .text name), ("kind", .text kind.name)] ++
        (description.map fun text => ("description", Json.text text)).toList)

namespace Layout

mutual

/-- A layout as nested objects. -/
def toJson : Layout → Json
  | node argument hasGuard hasExecutor children =>
    .object
      ((argument.map fun argument => ("argument", argument.toJson)).toList ++
        [("has_guard", .boolean hasGuard), ("has_executor", .boolean hasExecutor)] ++
        (match toJsons children with
          | [] => []
          | child :: rest => [("children", .array (child :: rest))]))

/-- Several layouts as nested objects. -/
def toJsons : List Layout → List Json
  | [] => []
  | layout :: rest => layout.toJson :: toJsons rest

end

end Layout

end Dispatch
