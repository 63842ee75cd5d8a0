import ClassLayout.Table

/-!
# The registry of classes

Classes in the order in which they were added, each known by its position and found by the name it
was added under. Renaming an entry later does not change the name it is found by. A position need
not be one of the registry's: whatever is looked up by position may be absent, also a position that
the index has for a name.
-/

namespace ClassLayout

structure Entry where
  name : String
  parent? : Option Nat := none
  members : Members := {}
  table : Table := {}
deriving DecidableEq, Repr, Inhabited

/-- The class with more fields at the end. -/
def Entry.withFields (entry : Entry) (fields : List Field) : Entry :=
  { entry with members := { entry.members with fields := entry.members.fields ++ fields } }

structure Registry where
  entries : List Entry := []
  /-- The names under which entries were added, each with the position of its entry. -/
  index : List (String × Nat) := []
deriving DecidableEq, Repr

/-- A position that is not one of the registry's. -/
structure Dangling where
  position : Nat
deriving DecidableEq, Repr

/-- An entry that can be replaced, its parent, that can only be read, and the entries before and
after it. -/
structure Focus where
  parent : Entry
  child : Entry
  before : List Entry
  after : List Entry
deriving DecidableEq, Repr

namespace Focus

def entries (focus : Focus) : List Entry := focus.before ++ focus.child :: focus.after

def replace (focus : Focus) (entry : Entry) : Focus := { focus with child := entry }

end Focus

namespace Registry

def size (registry : Registry) : Nat := registry.entries.length

/-- The names that entries are found by. -/
def names (registry : Registry) : List String := registry.index.map Prod.fst

def lookup? (registry : Registry) (name : String) : Option Nat :=
  (registry.index.find? (·.1 == name)).map Prod.snd

def contains (registry : Registry) (name : String) : Bool := registry.index.any (·.1 == name)

/-- One more class at the end, unless its name is taken. -/
def push? (registry : Registry) (entry : Entry) : Option Registry :=
  if registry.contains entry.name then none
  else some ⟨registry.entries ++ [entry], registry.index ++ [(entry.name, registry.size)]⟩

/-- The entry at a place of a list that need not have so many. -/
def entryAt (entries : List Entry) (place : Nat) : Except Dangling Entry :=
  match entries[place]? with
  | some entry => .ok entry
  | none => .error ⟨place⟩

def get (registry : Registry) (id : Nat) : Except Dangling Entry := entryAt registry.entries id

def byName (registry : Registry) (name : String) : Except Dangling (Option Entry) :=
  match registry.lookup? name with
  | none => .ok none
  | some id => (registry.get id).map some

/-- The parent of the entry at a position, if that entry has one. -/
def parentOf (registry : Registry) (id : Nat) : Except Dangling (Option Entry) :=
  match registry.get id with
  | .error e => .error e
  | .ok entry =>
    match entry.parent? with
    | none => .ok none
    | some parent => (registry.get parent).map some

/-- The entry at a position replaced by what `change` makes of it. -/
def modify (registry : Registry) (id : Nat) (change : Entry → Entry) : Except Dangling Registry :=
  match registry.entries[id]? with
  | some entry => .ok { registry with entries := registry.entries.set id (change entry) }
  | none => .error ⟨id⟩

/-- The entries before a position and those from it on. -/
def cut (registry : Registry) (id : Nat) : Except Dangling (List Entry × List Entry) :=
  if id ≤ registry.size then .ok (registry.entries.take id, registry.entries.drop id)
  else .error ⟨id⟩

/-- The entry at a position in focus, if its parent stands before it. The entries are cut in two at
the position: the parent is taken from the first part, the entry from the front of the second. -/
def focus (registry : Registry) (id : Nat) : Except Dangling (Option Focus) :=
  match registry.entries[id]?.bind Entry.parent? with
  | none => .ok none
  | some parent =>
    if id ≤ parent then .ok none
    else do
      let (before, rest) ← registry.cut id
      let above ← entryAt before parent
      let child ← entryAt rest 0
      return some ⟨above, child, before, rest.tail⟩

/-- The entry at a position replaced by what `change` makes of its parent and of itself, if the
parent stands before it. -/
def modifyChild (registry : Registry) (id : Nat) (change : Entry → Entry → Entry) :
    Except Dangling (Option Registry) :=
  (registry.focus id).map (·.map fun focus =>
    { registry with entries := (focus.replace (change focus.parent focus.child)).entries })

/-- What can be done to a registry from outside. -/
inductive Operation
  | push (entry : Entry)
  | setParent (id : Nat) (parent? : Option Nat)
  | rename (id : Nat) (name : String)
  /-- More fields for the entry at a position, if its parent stands before it. -/
  | addFields (id : Nat) (fields : List Field)
deriving DecidableEq, Repr

/-- What is answered to an operation: where a new entry stands, that the operation is done, that it
is declined, or that there is no entry at the position. -/
inductive Reply
  | position (id : Nat)
  | done
  | declined
  | dangling (id : Nat)
deriving DecidableEq, Repr

/-- An operation that fails leaves the registry as it is. -/
def settle (registry : Registry) : Except Dangling Registry → Registry × Reply
  | .ok next => (next, .done)
  | .error e => (registry, .dangling e.position)

def perform (registry : Registry) : Operation → Registry × Reply
  | .push entry =>
    match registry.push? entry with
    | some next => (next, .position registry.size)
    | none => (registry, .declined)
  | .setParent id parent? => registry.settle (registry.modify id fun entry => { entry with parent? })
  | .rename id name => registry.settle (registry.modify id fun entry => { entry with name })
  | .addFields id fields =>
    match registry.modifyChild id fun _ child => child.withFields fields with
    | .ok (some next) => (next, .done)
    | .ok none => (registry, .declined)
    | .error e => (registry, .dangling e.position)

/-- One step of a pass over the entries. Those before are as the pass has left them, beside what it
has told so far. The entry is replaced by what `change` makes of its parent and of itself; without a
parent before it, it stays as it is, and there is no parent to tell of. -/
def visit {σ : Type} (change : Entry → Entry → Entry) (tell : σ → Option Entry → Entry → σ)
    (state : List Entry × σ) (entry : Entry) : List Entry × σ :=
  match entry.parent?.bind (state.1[·]?) with
  | some parent => (state.1 ++ [change parent entry], tell state.2 (some parent) entry)
  | none => (state.1 ++ [entry], tell state.2 none entry)

/-- A pass over the entries after the first `fixed` ones, in order, and what it tells. -/
def pass {σ : Type} (registry : Registry) (fixed : Nat) (change : Entry → Entry → Entry)
    (tell : σ → Option Entry → Entry → σ) (start : σ) : Registry × σ :=
  let last := (registry.entries.drop fixed).foldl (visit change tell)
    (registry.entries.take fixed, start)
  ({ registry with entries := last.1 }, last.2)

/-- The registry that a pass leaves. -/
def derive (registry : Registry) (fixed : Nat) (change : Entry → Entry → Entry) : Registry :=
  (registry.pass fixed change (fun told _ _ => told) ()).1

end Registry

end ClassLayout
