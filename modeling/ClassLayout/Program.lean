import ClassLayout.Hierarchy.Dispatch
import ClassLayout.Hierarchy.FieldLayout
import ClassLayout.Hierarchy.Order

/-!
# Lowered programs

A program is a registry in which every class has its layout and table, with the classes to be
written out. The roots are not written out, and neither is the entry class: the first class that
declares a method with the name of the entry point. The registry keeps them, because others may
have them as parents.
-/

namespace ClassLayout

inductive EntryPolicy
  | optional
  | required
deriving DecidableEq, Repr

def EntryPolicy.name : EntryPolicy → String
  | optional => "optional"
  | required => "required"

def defaultEntryPoint : String := "main"

structure LoweringOptions where
  entryPoint : String := defaultEntryPoint
  policy : EntryPolicy := .optional
deriving DecidableEq, Repr

structure Program where
  registry : Registry
  /-- The positions of the classes to be written out. -/
  emitted : List Nat
  package : String
  entryClass? : Option String
  /-- The classes that declare the entry point, in the order of the registry. -/
  candidates : List String
deriving DecidableEq, Repr

namespace Program

/-- The classes after the roots that declare the entry point, with their positions. -/
def entryCandidates (registry : Registry) (entryPoint : String) : List (Entry × Nat) :=
  (registry.entries.zipIdx.drop rootCount).filter fun entry =>
    entry.1.members.declaresMethod entryPoint

def ofRegistry (registry : Registry) (package entryPoint : String) : Program :=
  let candidates := entryCandidates registry entryPoint
  { registry
    emitted := ((List.range registry.size).drop rootCount).filter fun id =>
      some id != candidates.head?.map (·.2)
    package
    entryClass? := candidates.head?.map (·.1.name)
    candidates := candidates.map (·.1.name) }

/-- The classes to be written out. -/
def classes (program : Program) : List Entry :=
  program.emitted.filterMap (program.registry.entries[·]?)

/-- The class of the given name, if it is to be written out. -/
def class? (program : Program) (name : String) : Option Entry :=
  match program.registry.lookup? name with
  | none => none
  | some id => if program.emitted.contains id then program.registry.entries[id]? else none

/-- The parent of a class, found by the class's name. -/
def parentOf (program : Program) (entry : Entry) : Except Dangling (Option Entry) :=
  match program.registry.lookup? entry.name with
  | none => .ok none
  | some id => program.registry.parentOf id

/-- The classes to be written out, each with the name of its parent. -/
def lineage (program : Program) : Except Dangling (List (Entry × Option String)) :=
  program.classes.mapM fun entry =>
    (program.parentOf entry).map fun parent? => (entry, parent?.map (·.name))

end Program

/-- The program of a unit. -/
def lower (unit : Source.Unit) (entryPoint : String) : Except HierarchyError Program :=
  match Declarations.ofUnit unit with
  | .error e => .error e
  | .ok decls =>
    match linearize .seeded decls.classes with
    | .error setback => .error setback.cause
    | .ok ordered =>
      .ok (.ofRegistry ordered.registry.layOutFields.buildTables decls.package entryPoint)

/-- Why a program does not have the one entry class that it must have. -/
inductive EntryFault
  | undeclared (entryPoint : String)
  | ambiguous (entryPoint : String) (classes : List String)
  | described (message : String)
deriving DecidableEq, Repr

def EntryFault.message : EntryFault → String
  | undeclared entryPoint => "no class declares `" ++ entryPoint ++ "`"
  | ambiguous entryPoint classes =>
    "`" ++ entryPoint ++ "` is declared by several classes: " ++ ", ".intercalate classes
  | described message => message

/-- Under the strict policy exactly one class declares the entry point. -/
def LoweringOptions.check (options : LoweringOptions) (program : Program) : Except EntryFault Unit :=
  match options.policy with
  | .optional => .ok ()
  | .required =>
    match program.candidates with
    | [] => .error (.undeclared options.entryPoint)
    | [_] => .ok ()
    | several => .error (.ambiguous options.entryPoint several)

end ClassLayout
