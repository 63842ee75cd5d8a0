import ClassLayout.Log.Event
import ClassLayout.Program

/-!
# Events of lowering a unit

Collecting, ordering and finishing are told from what went into the step and what came out of it. The
two passes over the registry tell of each class as they come to it, and keep count on the way.
-/

namespace ClassLayout.Log

def stage (name : String) : String × Datum := ("stage", .quoted name)

/-! ### Declarations -/

def declarationEvents (decl : Declaration) : List Event :=
  let constructors := decl.members.constructors.length
  (if constructors > 1 then
    [{ level := .warn
       fields := [stage "lowering.collect", ("class", .bare decl.name),
         ("constructor_count", .count constructors)]
       message? := some "only one constructor per class is supported" }]
  else []) ++
  [{ level := .debug
     fields := [stage "lowering.collect.class", ("class", .bare decl.name),
       ("parent", .quoted (decl.parent?.getD "-")), ("fields", .count decl.members.fields.length),
       ("constructors", .count constructors), ("methods", .count decl.members.methods.length)] }]

/-- The classes before the first one whose name is taken. -/
def collectedClasses (taken : List String) : List Source.Class → List Source.Class
  | [] => []
  | decl :: rest =>
    if taken.contains decl.name then [] else decl :: collectedClasses (decl.name :: taken) rest

def collectedEvent (decls : Declarations) : Event where
  level := .info
  fields := [stage "lowering.collect", ("package", .bare decls.package),
    ("class_count", .count decls.classes.length)]

/-! ### Order -/

/-- An entry that was added at the given position of the registry. -/
def addedEvent (registry : Registry) (position : Nat) (entry : Entry) : Event where
  level := .trace
  fields := [stage "lowering.linearize.append", ("class", .bare entry.name),
    ("parent", .quoted (((entry.parent?.bind (registry.entries[·]?)).map Entry.name).getD baseName)),
    ("index", .count position)]

/-- The entries added to a registry that had `start` of them before. -/
def addedEvents (start : Nat) (registry : Registry) : List Event :=
  (registry.entries.zipIdx.drop start).map fun (entry, position) => addedEvent registry position entry

def linearizedEvent (ordered : Linearized) : Event where
  level := .info
  fields := [stage "lowering.linearize", ("class_count", .count ordered.registry.size),
    ("passes", .count ordered.passes)]

/-! ### Field layouts and tables -/

/-- What a pass has counted and told so far. -/
structure Account where
  count : Nat := 0
  events : List Event := []
deriving DecidableEq, Repr

/-- A class that a pass comes to before its parent. -/
def strandedEvent (name : String) (child : Entry) : Event where
  level := .error
  fields := [stage name, ("class", .bare child.name)]
  message? := some "parent is not resolved ahead of class"

/-- The account of a pass after one more class. A class without a parent before it counts nothing. -/
def Account.add (name : String) (count : Entry → Entry → Nat) (events : Entry → Entry → List Event)
    (account : Account) (parent? : Option Entry) (child : Entry) : Account :=
  match parent? with
  | some parent => ⟨account.count + count parent child, account.events ++ events parent child⟩
  | none => { account with events := account.events ++ [strandedEvent name child] }

def countedEvent (name counter : String) (registry : Registry) (count : Nat) : Event where
  level := .info
  fields := [stage name, ("class_count", .count (registry.size - rootCount)), (counter, .count count)]

/-- A pass over the classes after the roots, with its events: those of each class as the pass comes to
it, and in the end one that tells what was counted. -/
def toldPass (name counter : String) (change : Entry → Entry → Entry) (count : Entry → Entry → Nat)
    (events : Entry → Entry → List Event) (registry : Registry) : Registry × List Event :=
  let (next, account) :=
    registry.pass rootCount change (Account.add (name ++ ".class") count events) {}
  (next, account.events ++ [countedEvent name counter registry account.count])

def layoutEvents (parent child : Entry) : List Event :=
  if parent.handsDown then
    (Entry.siftedFields parent child).2.map (fun field =>
      { level := .trace
        fields := [stage "lowering.fields.shadowed", ("field", .bare field.name),
          ("parent", .bare parent.name)] }) ++
    [{ level := .debug
       fields := [stage "lowering.fields.class", ("class", .bare child.name),
         ("parent", .bare parent.name),
         ("fields", .count (Entry.layOut parent child).members.fields.length)] }]
  else []

/-- The pass that lays out the fields counts the classes that inherit some. -/
def fieldPass : Registry → Registry × List Event :=
  toldPass "lowering.fields" "merged" Entry.layOut (fun parent _ => if parent.handsDown then 1 else 0)
    layoutEvents

def tableEvent (parent child : Entry) : Event :=
  let derivation := Entry.derivation parent child
  { level := .debug
    fields := [stage "lowering.vtables.class", ("class", .bare child.name),
      ("parent", .bare parent.name), ("slots", .count derivation.table.size),
      ("overridden", .count (derivation.count .overridden)),
      ("forwarded", .count (derivation.count .forwarded)),
      ("introduced", .count derivation.introduced.length),
      ("version", .fingerprint (derivation.table.fingerprint child.name))] }

/-- The pass that builds the tables counts their slots. -/
def tablePass : Registry → Registry × List Event :=
  toldPass "lowering.vtables" "slot_count" Entry.buildTable
    (fun parent child => (Entry.buildTable parent child).table.size)
    (fun parent child => [tableEvent parent child])

/-! ### The program -/

def programEvents (program : Program) (entryPoint : String) : List Event :=
  (program.candidates.drop 1).map (fun name =>
    { level := .warn
      fields := [stage "lowering.finalize", ("class", .bare name), ("entry_point", .quoted entryPoint)]
      message? := some "additional entry-point class kept in output" }) ++
  [{ level := .info
     fields := [stage "lowering.finalize", ("emitted", .count program.emitted.length),
       ("entry_class", .quoted (program.entryClass?.getD "<none>"))] }]

/-- Everything that lowering a unit tells, up to the step that fails. -/
def loweringEvents (unit : Source.Unit) (entryPoint : String) : List Event :=
  (collectedClasses rootNames unit.classes).flatMap (declarationEvents ∘ Declaration.ofSource) ++
  match Declarations.ofUnit unit with
  | .error _ => []
  | .ok decls =>
    collectedEvent decls ::
    match linearize .seeded decls.classes with
    | .error setback => addedEvents rootCount setback.reached
    | .ok ordered =>
      let (laidOut, fieldEvents) := fieldPass ordered.registry
      let (resolved, tableEvents) := tablePass laidOut
      addedEvents rootCount ordered.registry ++ linearizedEvent ordered ::
        fieldEvents ++ tableEvents ++
        programEvents (.ofRegistry resolved decls.package entryPoint) entryPoint

end ClassLayout.Log
