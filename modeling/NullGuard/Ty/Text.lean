import NullGuard.Ty.Definition

/-!
The text of a type: `int?`, `Order[]`, `Dictionary<string, List<Order>>`.
-/

namespace NullGuard.Ty

mutual

def text (defs : Definitions) : Ty → String
  | .unknown 0 => "<none>"
  | .unknown (number + 1) => s!"<type#{number + 1}>"
  | .intrinsic kind => kind.name
  | .nullable underlying => underlying.text defs ++ "?"
  | .array element => element.text defs ++ "[]"
  | .named definition args =>
    let name := ((defs.get? definition).map (·.name)).getD "<unknown>"
    match args with
    | [] => name
    | arg :: args => name ++ "<" ++ arg.text defs ++ textRest defs args ++ ">"
  | .param index => s!"T{index}"

/-- The further arguments, each after a comma. -/
def textRest (defs : Definitions) : List Ty → String
  | [] => ""
  | arg :: args => ", " ++ arg.text defs ++ textRest defs args

end

end NullGuard.Ty
