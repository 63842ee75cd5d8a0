/-!
# JSON values and their texts

The values that this library writes, with entries in the order in which they are written. Numbers
are counts and fingerprints, so natural numbers. The compact text has no blanks; the indented text
puts every item and entry on a line of its own, two blanks deeper than its container.
-/

namespace ClassLayout.Json

inductive Value
  | null
  | bool (value : Bool)
  | number (value : Nat)
  | text (value : String)
  | list (items : List Value)
  | record (entries : List (String × Value))

namespace Value

def texts (values : List String) : Value := .list (values.map .text)

def orNull (value : Option String) : Value :=
  match value with
  | some s => .text s
  | none => .null

end Value

/-- An entry that is left out when there is no value for it. -/
def optionalEntry (key : String) (value : Option String) : List (String × Value) :=
  match value with
  | some s => [(key, .text s)]
  | none => []

def hexDigit (n : Nat) : Char :=
  if n < 10 then Char.ofNat ('0'.toNat + n) else Char.ofNat ('a'.toNat + (n - 10))

/-- A character inside a string: only quote, backslash and the characters below U+0020 are escaped. -/
def escape (c : Char) : List Char :=
  if c = '"' then ['\\', '"']
  else if c = '\\' then ['\\', '\\']
  else if c = '\x08' then ['\\', 'b']
  else if c = '\x0c' then ['\\', 'f']
  else if c = '\n' then ['\\', 'n']
  else if c = '\r' then ['\\', 'r']
  else if c = '\t' then ['\\', 't']
  else if c.toNat < 0x20 then
    ['\\', 'u', '0', '0', hexDigit (c.toNat / 16), hexDigit (c.toNat % 16)]
  else [c]

def quote (s : String) : List Char := '"' :: s.toList.flatMap escape ++ ['"']

def scalar : Value → List Char
  | .null => ['n', 'u', 'l', 'l']
  | .bool true => ['t', 'r', 'u', 'e']
  | .bool false => ['f', 'a', 'l', 's', 'e']
  | .number n => Nat.toDigits 10 n
  | .text s => quote s
  | .list _ => []
  | .record _ => []

/-- The blanks of a text: before an item, an entry or a closing bracket at a depth, and after a
colon. -/
structure Spacing where
  gap : Nat → List Char
  space : List Char

namespace Spacing

def compact : Spacing := ⟨fun _ => [], []⟩

/-- A new line with two blanks for each container around it. -/
def indented : Spacing := ⟨fun depth => '\n' :: List.replicate (2 * depth) ' ', [' ']⟩

end Spacing

mutual

/-- The text of a value inside `depth` containers. Empty containers have no blanks. -/
def Value.chars (spacing : Spacing) (depth : Nat) : Value → List Char
  | .list [] => ['[', ']']
  | .list (first :: rest) =>
    '[' :: spacing.gap (depth + 1) ++ first.chars spacing (depth + 1) ++
      itemChars spacing depth rest
  | .record [] => ['{', '}']
  | .record ((key, first) :: rest) =>
    '{' :: spacing.gap (depth + 1) ++ quote key ++ ':' :: spacing.space ++
      first.chars spacing (depth + 1) ++ entryChars spacing depth rest
  | value => scalar value

/-- The items after the first, to the end of the list. -/
def itemChars (spacing : Spacing) (depth : Nat) : List Value → List Char
  | [] => spacing.gap depth ++ [']']
  | item :: rest =>
    ',' :: spacing.gap (depth + 1) ++ item.chars spacing (depth + 1) ++ itemChars spacing depth rest

/-- The entries after the first, to the end of the record. -/
def entryChars (spacing : Spacing) (depth : Nat) : List (String × Value) → List Char
  | [] => spacing.gap depth ++ ['}']
  | (key, value) :: rest =>
    ',' :: spacing.gap (depth + 1) ++ quote key ++ ':' :: spacing.space ++
      value.chars spacing (depth + 1) ++ entryChars spacing depth rest

end

def Value.compact (value : Value) : String := String.ofList (value.chars .compact 0)

def Value.indented (value : Value) : String := String.ofList (value.chars .indented 0)

end ClassLayout.Json
