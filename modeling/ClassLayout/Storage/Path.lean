/-!
# Paths

A path as it is written: where it starts, and the parts between its slashes. Parts that are empty or
a dot lead nowhere, but they count towards the size of the path, so they are kept.
-/

namespace ClassLayout

/-- Where a path starts: with its first part, with a dot, or with a slash. -/
inductive Start
  | here
  | dot
  | root
deriving DecidableEq, Repr

structure Path where
  start : Start
  /-- What stands between the slashes after the start. -/
  parts : List String
deriving DecidableEq, Repr

namespace Path

def ofString (text : String) : Path :=
  match text.splitOn "/" with
  | "" :: part :: parts => ⟨.root, part :: parts⟩
  | "." :: parts => ⟨.dot, parts⟩
  | parts => ⟨.here, parts⟩

def toString (path : Path) : String :=
  match path.start with
  | .here => "/".intercalate path.parts
  | .dot => "/".intercalate ("." :: path.parts)
  | .root => "/" ++ "/".intercalate path.parts

/-- The most bytes that a name may have. -/
def nameLimit : Nat := 255

/-- The paths that can be used have fewer bytes. -/
def sizeLimit : Nat := 4096

def isTooLong (path : Path) : Bool := sizeLimit ≤ path.toString.utf8ByteSize

/-- What leads on from the start, dots included. -/
def steps (path : Path) : List String := path.parts.filter (· != "")

/-- After a slash the last name can only be that of a directory. -/
def endsInSlash (path : Path) : Bool := path.parts.getLast? == some ""

def leadsNowhere (part : String) : Bool := part == "" || part == "."

/-- The path without its last name or `..` and what leads nowhere around it. -/
def parent? (path : Path) : Option Path :=
  match path.parts.reverse.dropWhile leadsNowhere with
  | _ :: rest => some { path with parts := (rest.dropWhile leadsNowhere).reverse }
  | [] => if path.start = .dot then some ⟨.here, []⟩ else none

end Path

end ClassLayout
