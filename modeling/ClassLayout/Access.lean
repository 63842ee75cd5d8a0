/-!
# Access and modifiers

Who may use a member. A member without an access keyword is open to its package.
-/

namespace ClassLayout

inductive Access
  | pub
  | priv
  | prot
  | pack
deriving DecidableEq, Repr, Inhabited

namespace Access

def keyword : Access → String
  | pub => "public"
  | priv => "private"
  | prot => "protected"
  | pack => "package"

/-- The access that a keyword stands for. The default access has no keyword. -/
def ofKeyword? (word : String) : Option Access :=
  if word = "public" then some pub
  else if word = "private" then some priv
  else if word = "protected" then some prot
  else none

end Access

structure Modifiers where
  access : Access := .pack
  static : Bool := false
deriving DecidableEq, Repr

namespace Modifiers

/-- One more keyword: a later access keyword replaces an earlier one, and unknown words are skipped. -/
def add (modifiers : Modifiers) (word : String) : Modifiers :=
  if word = "static" then { modifiers with static := true }
  else match Access.ofKeyword? word with
  | some access => { modifiers with access }
  | none => modifiers

def ofKeywords (words : List String) : Modifiers := words.foldl add {}

end Modifiers

end ClassLayout
