import Availability.Text.Formless

/-!
# Quoted text

A text as it is shown inside a message: between double quotes, with the quote, the backslash and
the usual controls escaped by a letter, and every other character without a form of its own
written by its code point, as in `\u{200b}`.
-/

namespace Availability.Text

/-- A character inside quotes. -/
def quoteChar (c : Char) : List Char :=
  match c with
  | '\x00' => ['\\', '0']
  | '\t' => ['\\', 't']
  | '\r' => ['\\', 'r']
  | '\n' => ['\\', 'n']
  | '\\' => ['\\', '\\']
  | '"' => ['\\', '"']
  | c =>
    if isFormless c then
      ['\\', 'u', '{'] ++ Nat.toDigits 16 c.toNat ++ ['}']
    else [c]

/-- A text between quotes. -/
def quoted (s : String) : String :=
  String.ofList ('"' :: s.toList.flatMap quoteChar ++ ['"'])

end Availability.Text
