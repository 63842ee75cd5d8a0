import ClassLayout.Json.Tree
import ClassLayout.Text.Quoted

/-!
# Why a JSON text is refused

A text is refused because it is malformed, or because a value in it is not the one expected there.
-/

namespace ClassLayout.Json

open Decimal

/-- The kind of value that was found, as reports describe it. -/
inductive Found
  | null
  | bool (value : Bool)
  | integer (value : Int)
  | real (negative : Bool) (magnitude : Binary64)
  | text (value : String)
  | list
  | record
  | bareVariant
deriving DecidableEq, Repr

inductive Mismatch
  | type (found : Found) (expected : String)
  | value (found : Found) (expected : String)
  | length (found : Nat) (expected : String)
  | missing (field : String)
  | duplicate (field : String)
  | variant (found : String) (known : List String)
deriving DecidableEq, Repr

inductive DecodeError
  | malformed
  | mismatch (reason : Mismatch)
deriving DecidableEq, Repr

/-- The description of a value, unless the text is malformed there. Nothing inside a list or record
is looked at. -/
def Tree.found? : Tree → Option Found
  | .null => some .null
  | .bool b => some (.bool b)
  | .number n => n.value?.map fun
    | .integer i => .integer i
    | .real negative magnitude => .real negative magnitude
  | .text s => s.map .text
  | .list _ => some .list
  | .record _ => some .record
  | .missing => none

/-- The refusal of a tree where something else was expected. -/
def Tree.unexpected (tree : Tree) (expected : String) : DecodeError :=
  match tree.found? with
  | some found => .mismatch (.type found expected)
  | none => .malformed

def Found.describe : Found → String
  | .null => "null"
  | .bool true => "boolean `true`"
  | .bool false => "boolean `false`"
  | .integer i => "integer `" ++ toString i ++ "`"
  | .real negative magnitude => "floating point `" ++ realText negative magnitude ++ "`"
  | .text s => "string " ++ Text.quoted s
  | .list => "sequence"
  | .record => "map"
  | .bareVariant => "unit variant"

/-- Names in backquotes, as a choice. -/
def choice : List String → String
  | [a, b] => "`" ++ a ++ "` or `" ++ b ++ "`"
  | names => "one of " ++ ", ".intercalate (names.map fun name => "`" ++ name ++ "`")

def Mismatch.message : Mismatch → String
  | .type found expected => "invalid type: " ++ found.describe ++ ", expected " ++ expected
  | .value found expected => "invalid value: " ++ found.describe ++ ", expected " ++ expected
  | .length found expected => "invalid length " ++ toString found ++ ", expected " ++ expected
  | .missing field => "missing field `" ++ field ++ "`"
  | .duplicate field => "duplicate field `" ++ field ++ "`"
  | .variant found known => "unknown variant `" ++ found ++ "`, expected " ++ choice known

end ClassLayout.Json
