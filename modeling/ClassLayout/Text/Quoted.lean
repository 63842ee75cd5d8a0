import ClassLayout.Text.Hidden

/-!
# Quoted text

Text in reports and log lines stands between quotes. Quote, backslash and the common controls have
short escapes; every other character that would not show is written as its code point in braces.
-/

namespace ClassLayout.Text

def quotedChar (c : Char) : List Char :=
  if c = '\x00' then ['\\', '0']
  else if c = '\t' then ['\\', 't']
  else if c = '\r' then ['\\', 'r']
  else if c = '\n' then ['\\', 'n']
  else if c = '\\' then ['\\', '\\']
  else if c = '"' then ['\\', '"']
  else if c.toNat < 0x20 ∨ isHidden c then
    ['\\', 'u', '{'] ++ Nat.toDigits 16 c.toNat ++ ['}']
  else [c]

def quoted (s : String) : String := String.ofList ('"' :: s.toList.flatMap quotedChar ++ ['"'])

end ClassLayout.Text
