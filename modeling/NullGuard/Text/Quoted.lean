import NullGuard.Text.Unprintable

/-!
Text in double quotes. Quotes, backslashes and the common controls are written with a backslash,
other characters that cannot be shown as their code in braces.
-/

namespace NullGuard.Text

/-- Digits without leading zeros, letters in lower case. -/
def hexDigits (code : Nat) : List Char :=
  Nat.toDigits 16 code

def quotedChar (c : Char) : List Char :=
  match c with
  | '"' => ['\\', '"']
  | '\\' => ['\\', '\\']
  | '\n' => ['\\', 'n']
  | '\r' => ['\\', 'r']
  | '\t' => ['\\', 't']
  | '\x00' => ['\\', '0']
  | c =>
    if isUnprintable c then ['\\', 'u', '\x7b'] ++ hexDigits c.toNat ++ ['\x7d'] else [c]

def quoted (s : String) : String :=
  String.ofList (['"'] ++ s.toList.flatMap quotedChar ++ ['"'])

end NullGuard.Text
