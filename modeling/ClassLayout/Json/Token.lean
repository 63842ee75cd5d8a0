import ClassLayout.Json.Number

/-!
# Tokens of a JSON text

A text is scanned by a machine that takes one character at a time. A character that no token can
have at its place becomes the token `stray`, and nothing after it is scanned: a reader of the
tokens meets it exactly where the text goes wrong.

The text of a string token is absent when an escape names one half of a surrogate pair without the
other. Such a string is well formed, but it stands for no text.
-/

namespace ClassLayout.Json

inductive Token
  | openBrace
  | closeBrace
  | openBracket
  | closeBracket
  | comma
  | colon
  | null
  | bool (value : Bool)
  | number (value : Numeral)
  | text (value : Option String)
  | stray
deriving DecidableEq, Repr

/-- A piece of a string: a character, or an escaped half of a surrogate pair. -/
inductive Piece
  | char (c : Char)
  | half (unit : Nat)
deriving DecidableEq, Repr

namespace Piece

def ofUnit (unit : Nat) : Piece :=
  if 0xD800 ≤ unit ∧ unit < 0xE000 then .half unit else .char (Char.ofNat unit)

/-- The character that two halves make up. -/
def pair? (high low : Nat) : Option Char :=
  if high < 0xDC00 ∧ 0xDC00 ≤ low then
    some (Char.ofNat (0x10000 + (high - 0xD800) * 0x400 + (low - 0xDC00)))
  else none

/-- The characters of a string whose pieces are given last first, in front of `tail`. -/
def join? : List Piece → List Char → Option (List Char)
  | [], tail => some tail
  | .char c :: rest, tail => join? rest (c :: tail)
  | .half low :: .half high :: rest, tail =>
    match pair? high low with
    | some c => join? rest (c :: tail)
    | none => none
  | .half _ :: _, _ => none

end Piece

/-- Where the machine stands. Pieces and digits that have been read are kept last first. -/
inductive Scan
  | between
  | word (owed : List Char) (token : Token)
  | string (pieces : List Piece)
  | escape (pieces : List Piece)
  | unit (pieces : List Piece) (value count : Nat)
  | sign
  | zero (negative : Bool)
  | whole (negative : Bool) (digits : List Nat)
  | point (negative : Bool) (whole : List Nat)
  | fraction (negative : Bool) (whole digits : List Nat)
  | mark (negative : Bool) (whole fraction : List Nat)
  | power (negative : Bool) (whole fraction : List Nat) (down : Bool)
  | exponent (negative : Bool) (whole fraction : List Nat) (down : Bool) (value : Nat)
  | stopped
deriving DecidableEq, Repr

structure Scanner where
  /-- The tokens so far, last first. -/
  tokens : List Token
  scan : Scan
deriving DecidableEq, Repr

def isBlank (c : Char) : Bool := c == ' ' || c == '\n' || c == '\t' || c == '\r'

def digit? (c : Char) : Option Nat := if c.isDigit then some (c.toNat - '0'.toNat) else none

def hexDigit? (c : Char) : Option Nat :=
  if c.isDigit then some (c.toNat - '0'.toNat)
  else if 'a' ≤ c ∧ c ≤ 'f' then some (c.toNat - 'a'.toNat + 10)
  else if 'A' ≤ c ∧ c ≤ 'F' then some (c.toNat - 'A'.toNat + 10)
  else none

/-- The character that a one-letter escape stands for. -/
def escaped? : Char → Option Char
  | '"' => some '"'
  | '\\' => some '\\'
  | '/' => some '/'
  | 'b' => some '\x08'
  | 'f' => some '\x0c'
  | 'n' => some '\n'
  | 'r' => some '\r'
  | 't' => some '\t'
  | _ => none

namespace Scanner

def stop (tokens : List Token) : Scanner := ⟨.stray :: tokens, .stopped⟩

/-- The first character of a token, or a blank. -/
def start (tokens : List Token) (c : Char) : Scanner :=
  if isBlank c then ⟨tokens, .between⟩
  else match c with
  | '{' => ⟨.openBrace :: tokens, .between⟩
  | '}' => ⟨.closeBrace :: tokens, .between⟩
  | '[' => ⟨.openBracket :: tokens, .between⟩
  | ']' => ⟨.closeBracket :: tokens, .between⟩
  | ',' => ⟨.comma :: tokens, .between⟩
  | ':' => ⟨.colon :: tokens, .between⟩
  | '"' => ⟨tokens, .string []⟩
  | 'n' => ⟨tokens, .word ['u', 'l', 'l'] .null⟩
  | 't' => ⟨tokens, .word ['r', 'u', 'e'] (.bool true)⟩
  | 'f' => ⟨tokens, .word ['a', 'l', 's', 'e'] (.bool false)⟩
  | '-' => ⟨tokens, .sign⟩
  | '0' => ⟨tokens, .zero false⟩
  | c => match digit? c with
    | some d => ⟨tokens, .whole false [d]⟩
    | none => stop tokens

/-- The numeral that ends before the next character, if one may end there. -/
def numeral? : Scan → Option Numeral
  | .zero negative => some ⟨negative, [0], [], none⟩
  | .whole negative digits => some ⟨negative, digits.reverse, [], none⟩
  | .fraction negative whole digits => some ⟨negative, whole.reverse, digits.reverse, none⟩
  | .exponent negative whole fraction down value =>
    some ⟨negative, whole.reverse, fraction.reverse, some (if down then -value else value)⟩
  | _ => none

/-- A character that does not continue the numeral: it ends it, or the text goes wrong here. -/
def endNumeral (tokens : List Token) (scan : Scan) (c : Char) : Scanner :=
  match numeral? scan with
  | some n => start (.number n :: tokens) c
  | none => stop tokens

def isMark (c : Char) : Bool := c == 'e' || c == 'E'

def step : Scanner → Char → Scanner
  | ⟨tokens, .between⟩, c => start tokens c
  | ⟨tokens, .word owed token⟩, c =>
    match owed with
    | [] => stop tokens
    | [last] => if c = last then ⟨token :: tokens, .between⟩ else stop tokens
    | next :: rest => if c = next then ⟨tokens, .word rest token⟩ else stop tokens
  | ⟨tokens, .string pieces⟩, c =>
    if c = '"' then ⟨.text ((Piece.join? pieces []).map String.ofList) :: tokens, .between⟩
    else if c = '\\' then ⟨tokens, .escape pieces⟩
    else if c.toNat < 0x20 then stop tokens
    else ⟨tokens, .string (.char c :: pieces)⟩
  | ⟨tokens, .escape pieces⟩, c =>
    if c = 'u' then ⟨tokens, .unit pieces 0 0⟩
    else match escaped? c with
    | some e => ⟨tokens, .string (.char e :: pieces)⟩
    | none => stop tokens
  | ⟨tokens, .unit pieces value count⟩, c =>
    match hexDigit? c with
    | some d =>
      if count = 3 then ⟨tokens, .string (.ofUnit (16 * value + d) :: pieces)⟩
      else ⟨tokens, .unit pieces (16 * value + d) (count + 1)⟩
    | none => stop tokens
  | ⟨tokens, .sign⟩, c =>
    match digit? c with
    | some 0 => ⟨tokens, .zero true⟩
    | some d => ⟨tokens, .whole true [d]⟩
    | none => stop tokens
  | ⟨tokens, .zero negative⟩, c =>
    if c = '.' then ⟨tokens, .point negative [0]⟩
    else if isMark c then ⟨tokens, .mark negative [0] []⟩
    else if c.isDigit then stop tokens
    else endNumeral tokens (.zero negative) c
  | ⟨tokens, .whole negative digits⟩, c =>
    match digit? c with
    | some d => ⟨tokens, .whole negative (d :: digits)⟩
    | none =>
      if c = '.' then ⟨tokens, .point negative digits⟩
      else if isMark c then ⟨tokens, .mark negative digits []⟩
      else endNumeral tokens (.whole negative digits) c
  | ⟨tokens, .point negative whole⟩, c =>
    match digit? c with
    | some d => ⟨tokens, .fraction negative whole [d]⟩
    | none => stop tokens
  | ⟨tokens, .fraction negative whole digits⟩, c =>
    match digit? c with
    | some d => ⟨tokens, .fraction negative whole (d :: digits)⟩
    | none =>
      if isMark c then ⟨tokens, .mark negative whole digits⟩
      else endNumeral tokens (.fraction negative whole digits) c
  | ⟨tokens, .mark negative whole fraction⟩, c =>
    if c = '+' then ⟨tokens, .power negative whole fraction false⟩
    else if c = '-' then ⟨tokens, .power negative whole fraction true⟩
    else match digit? c with
    | some d => ⟨tokens, .exponent negative whole fraction false d⟩
    | none => stop tokens
  | ⟨tokens, .power negative whole fraction down⟩, c =>
    match digit? c with
    | some d => ⟨tokens, .exponent negative whole fraction down d⟩
    | none => stop tokens
  | ⟨tokens, .exponent negative whole fraction down value⟩, c =>
    match digit? c with
    | some d => ⟨tokens, .exponent negative whole fraction down (10 * value + d)⟩
    | none => endNumeral tokens (.exponent negative whole fraction down value) c
  | ⟨tokens, .stopped⟩, _ => ⟨tokens, .stopped⟩

/-- The end of the text may end a numeral; inside any other token it is a fault. -/
def finish : Scanner → List Token
  | ⟨tokens, .between⟩ => tokens.reverse
  | ⟨tokens, .stopped⟩ => tokens.reverse
  | ⟨tokens, scan⟩ =>
    match numeral? scan with
    | some n => (.number n :: tokens).reverse
    | none => (.stray :: tokens).reverse

end Scanner

/-- The tokens of a text, up to and including the first stray one. -/
def Token.scan (text : List Char) : List Token := (text.foldl Scanner.step ⟨[], .between⟩).finish

end ClassLayout.Json
