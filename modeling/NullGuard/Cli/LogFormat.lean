import NullGuard.Text.Blank

/-!
The form of log lines.
-/

namespace NullGuard.Cli

inductive LogFormat where
  | text | tree | json
  deriving DecidableEq, Inhabited

/-- Blanks around the name and the case of its letters do not matter. All other names mean
text. -/
def LogFormat.parse (name : String) : LogFormat :=
  match String.ofList ((Text.trim name).toList.map Char.toLower) with
  | "tree" => .tree
  | "json" => .json
  | _ => .text

end NullGuard.Cli
