import ClassLayout.Hierarchy.Declaration

/-!
# Parents before children

Declarations are added to a registry in passes. A pass goes through the pending declarations in
order and adds each one whose parent is in the registry by then; the others wait for the next pass.
A pass that adds nothing shows that some parent is unknown or that parents form a cycle.
-/

namespace ClassLayout

/-- Where the work stopped, and why. -/
structure Setback where
  reached : Registry
  cause : HierarchyError
deriving DecidableEq, Repr

structure Linearized where
  registry : Registry
  passes : Nat
deriving DecidableEq, Repr

namespace Declaration

def toEntry (decl : Declaration) (parent : Nat) : Entry :=
  { name := decl.name, parent? := some parent, members := decl.members }

/-- The names with their declared parents; of two links of one name the later comes first. -/
def links (decls : List Declaration) : List (String × String) :=
  (decls.filterMap fun decl => decl.parent?.map fun parent => (decl.name, parent)).reverse

/-- The first declaration whose parent is neither in the registry nor among the links. -/
def orphan? (registry : Registry) (links : List (String × String)) :
    List Declaration → Option (String × String)
  | [] => none
  | decl :: rest =>
    match decl.parent? with
    | none => orphan? registry links rest
    | some parent =>
      if registry.contains parent || (links.lookup parent).isSome then orphan? registry links rest
      else some (decl.name, parent)

/-- The links without those of one name. -/
def unlink (links : List (String × String)) (name : String) : List (String × String) :=
  links.filter (·.1 != name)

theorem length_unlink_lt {links : List (String × String)} {name parent : String}
    (h : links.lookup name = some parent) : (unlink links name).length < links.length := by
  unfold unlink
  induction links with
  | nil => simp at h
  | cons link rest ih =>
    obtain ⟨key, target⟩ := link
    rw [List.lookup_cons] at h
    split at h
    · have hkey : name = key := by simpa using ‹(name == key) = true›
      have hle := List.length_filter_le (fun link : String × String => link.1 != name) rest
      simp only [List.filter_cons, hkey, bne_self_eq_false, Bool.false_eq_true, if_false,
        List.length_cons] at hle ⊢
      omega
    · have hlt := ih h
      have hkey : key ≠ name := fun heq => by simp [heq] at *
      simp only [List.filter_cons, bne_iff_ne, ne_eq, hkey, not_false_eq_true, if_true,
        List.length_cons]
      omega

/-- Links are followed from `name` until a name comes up again; the cycle starts where that name was
first met. Links that lead nowhere end the walk with everything met. -/
def walk (links : List (String × String)) (met : List String) (name : String) : List String :=
  match met.idxOf? name with
  | some start => met.drop start
  | none =>
    match _hlink : links.lookup name with
    | none => met ++ [name]
    | some parent => walk (unlink links name) (met ++ [name]) parent
termination_by links.length
decreasing_by exact length_unlink_lt ‹_›

/-- Why none of the waiting declarations can be added. -/
def diagnose (registry : Registry) (waiting : List Declaration) : HierarchyError :=
  let links := links waiting
  match orphan? registry links waiting with
  | some (child, parent) => .unresolvedParent child parent
  | none =>
    .circularInheritance (match waiting with
      | [] => []
      | first :: _ => walk links [] first.name)

/-- One pass: the registry with what could be added, and the declarations that wait. -/
def pass (registry : Registry) : List Declaration → Except Setback (Registry × List Declaration)
  | [] => .ok (registry, [])
  | decl :: rest =>
    match registry.lookup? decl.parentName with
    | none => (pass registry rest).map fun result => (result.1, decl :: result.2)
    | some parent =>
      match registry.push? (decl.toEntry parent) with
      | none => .error ⟨registry, .duplicateClass decl.name⟩
      | some registry => pass registry rest

end Declaration

/-- All declarations added to the registry, parents before children. -/
def linearize (registry : Registry) (pending : List Declaration) : Except Setback Linearized :=
  if pending.isEmpty then .ok ⟨registry, 0⟩
  else match Declaration.pass registry pending with
  | .error setback => .error setback
  | .ok (registry, waiting) =>
    if waiting.length < pending.length then
      (linearize registry waiting).map fun result => { result with passes := result.passes + 1 }
    else .error ⟨registry, Declaration.diagnose registry waiting⟩
termination_by pending.length

end ClassLayout
