import NullGuard.Text.Alphanumeric
import NullGuard.Text.Blank

/-!
The tokens of a type name: names, which are as long as possible, and single marks. Blanks
separate tokens and are otherwise skipped.
-/

namespace NullGuard.TypeName

inductive TokenKind where
  | name (chars : List Char)
  | mark (char : Char)
  deriving DecidableEq, Inhabited

/-- A token and the number of bytes before it. -/
structure Token where
  offset : Nat
  kind : TokenKind
  deriving DecidableEq, Inhabited

/-- The character that a token begins with. -/
def TokenKind.first : TokenKind → Char
  | .name (c :: _) => c
  | .name [] => ' '
  | .mark c => c

/-- Puts a name character in front of the tokens after it. A name that begins right behind the
character grows by it. -/
def prepend (offset : Nat) (c : Char) : List Token → List Token
  | ⟨next, .name chars⟩ :: rest =>
    if next = offset + c.utf8Size then ⟨offset, .name (c :: chars)⟩ :: rest
    else ⟨offset, .name [c]⟩ :: ⟨next, .name chars⟩ :: rest
  | rest => ⟨offset, .name [c]⟩ :: rest

/-- The tokens of a text whose first character stands at byte `offset`. -/
def tokens (offset : Nat) : List Char → List Token
  | [] => []
  | c :: cs =>
    let rest := tokens (offset + c.utf8Size) cs
    if Text.isBlank c then rest
    else if Text.isNameChar c then prepend offset c rest
    else ⟨offset, .mark c⟩ :: rest

end NullGuard.TypeName
