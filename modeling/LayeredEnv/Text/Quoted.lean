import LayeredEnv.Text.Unprintable
import LayeredEnv.Number.Numeral

/-!
# Quoted text

The form in which messages show a text that may hold anything: in double quotes, with the quote,
the backslash and all characters without a glyph of their own spelled out.
-/

namespace LayeredEnv.Text

/-- A character inside quotes. -/
def quotedChar (c : Char) : List Char :=
  if c == '"' then ['\\', '"']
  else if c == '\\' then ['\\', '\\']
  else if c == '\n' then ['\\', 'n']
  else if c == '\r' then ['\\', 'r']
  else if c == '\t' then ['\\', 't']
  else if c == '\x00' then ['\\', '0']
  else if isUnprintable c then
    '\\' :: 'u' :: '\x7b' :: Numeral.digits 16 c.toNat ++ ['\x7d']
  else [c]

/-- A text in quotes. -/
def quoted (s : String) : String :=
  String.ofList ('"' :: s.toList.flatMap quotedChar ++ ['"'])

end LayeredEnv.Text
