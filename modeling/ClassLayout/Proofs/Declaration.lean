import ClassLayout.Hierarchy.Declaration
import Mathlib.Data.List.Nodup
import Mathlib.Data.Nat.Find

/-!
# Collected declarations

Collection goes through once for every class, in source order, unless a name is met again: that of
a root or of a class before. Then the first such name is reported.
-/

namespace ClassLayout

namespace Source

/-- The parent that a class names; without one it is the base class. -/
def Class.parentName (decl : Class) : String := (decl.parent?.map (·.name)).getD baseName

/-- The name of a class with that of its parent. -/
def Class.heading (decl : Class) : String × String := (decl.name, decl.parentName)

/-- The class at a place has a name that is taken: one of `taken` or that of a class before it. -/
def Clashes (taken : List String) (classes : List Class) (place : Nat) : Prop :=
  ∃ decl, classes[place]? = some decl ∧
    decl.name ∈ taken ++ (classes.take place).map Class.name

def Member.method? : Member → Option MethodDecl
  | .method decl => some decl
  | _ => none

variable {taken : List String} {first : Class} {rest classes : List Class}

theorem clashes_zero : Clashes taken (first :: rest) 0 ↔ first.name ∈ taken := by
  simp [Clashes]

theorem clashes_succ {place : Nat} :
    Clashes taken (first :: rest) (place + 1) ↔ Clashes (first.name :: taken) rest place := by
  simp only [Clashes, List.getElem?_cons_succ, List.take_succ_cons, List.map_cons, List.mem_append,
    List.mem_cons, or_assoc, or_left_comm]

theorem clashes_congr {others : List Class}
    (hnames : classes.map Class.name = others.map Class.name) {place : Nat} :
    Clashes taken classes place ↔ Clashes taken others place := by
  have hclashes : ∀ {classes : List Class}, Clashes taken classes place ↔
      ∃ name, (classes.map Class.name)[place]? = some name ∧
        name ∈ taken ++ (classes.map Class.name).take place := by
    intro classes
    simp only [Clashes, List.map_take, List.getElem?_map, Option.map_eq_some_iff]
    constructor
    · rintro ⟨decl, hdecl, hname⟩
      exact ⟨decl.name, ⟨decl, hdecl, rfl⟩, hname⟩
    · rintro ⟨_, ⟨decl, hdecl, rfl⟩, hname⟩
      exact ⟨decl, hdecl, hname⟩
  rw [hclashes, hclashes, hnames]

theorem nodup_of_not_clashes (htaken : taken.Nodup)
    (hfree : ∀ place, ¬ Clashes taken classes place) :
    (taken ++ classes.map Class.name).Nodup := by
  induction classes generalizing taken with
  | nil => simpa using htaken
  | cons first rest ih =>
      have hfirst : first.name ∉ taken := fun hmem => hfree 0 (clashes_zero.mpr hmem)
      have hrest := ih (List.nodup_cons.mpr ⟨hfirst, htaken⟩) fun place hclash =>
        hfree (place + 1) (clashes_succ.mpr hclash)
      rw [List.map_cons]
      exact List.perm_middle.nodup_iff.mpr hrest

end Source

namespace Declaration

open Source

variable {taken : List String} {classes : List Source.Class}

@[simp] theorem ofSource_name (decl : Source.Class) : (ofSource decl).name = decl.name := rfl

def methods (owner : String) (members : List Source.Member) : List Method :=
  (members.filterMap Source.Member.method?).map (method owner)

@[simp] theorem methods_field (owner : String) (decl : Source.FieldDecl)
    (rest : List Source.Member) : methods owner (.field decl :: rest) = methods owner rest := rfl

@[simp] theorem methods_constructor (owner : String) (decl : Source.ConstructorDecl)
    (rest : List Source.Member) :
    methods owner (.constructor decl :: rest) = methods owner rest := rfl

@[simp] theorem methods_method (owner : String) (decl : Source.MethodDecl)
    (rest : List Source.Member) :
    methods owner (.method decl :: rest) = method owner decl :: methods owner rest := rfl

theorem methods_ofSource (decl : Source.Class) :
    (ofSource decl).members.methods = methods decl.name decl.members := by
  have hfold : ∀ (rest : List Source.Member) (done : Members),
      (rest.foldl (addMember decl.name) done).methods = done.methods ++ methods decl.name rest := by
    intro rest
    induction rest with
    | nil => intro done; simp [methods]
    | cons member rest ih =>
        intro done
        rw [List.foldl_cons, ih]
        cases member <;> simp [addMember]
  exact hfold decl.members {}

theorem collect_eq_ok (hfree : ∀ place, ¬ Clashes taken classes place) :
    collect taken classes = .ok (classes.map ofSource) := by
  induction classes generalizing taken with
  | nil => rfl
  | cons first rest ih =>
      have hfirst : first.name ∉ taken := fun hmem => hfree 0 (clashes_zero.mpr hmem)
      have hrest := ih fun place hclash => hfree (place + 1) (clashes_succ.mpr hclash)
      rw [collect, if_neg (by simpa using hfirst), hrest]
      rfl

theorem collect_eq_error {place : Nat} {decl : Source.Class} (hdecl : classes[place]? = some decl)
    (hclash : Clashes taken classes place)
    (hbefore : ∀ other < place, ¬ Clashes taken classes other) :
    collect taken classes = .error (.duplicateClass decl.name) := by
  induction classes generalizing taken place with
  | nil => simp at hdecl
  | cons first rest ih =>
      cases place with
      | zero =>
          obtain rfl : first = decl := by simpa using hdecl
          rw [collect, if_pos (by simpa using clashes_zero.mp hclash)]
      | succ place =>
          have hfirst : first.name ∉ taken := fun hmem =>
            hbefore 0 (Nat.succ_pos place) (clashes_zero.mpr hmem)
          have hrest := ih (by simpa using hdecl) (clashes_succ.mp hclash) fun other hother hmet =>
            hbefore (other + 1) (Nat.succ_lt_succ hother) (clashes_succ.mpr hmet)
          rw [collect, if_neg (by simpa using hfirst), hrest]
          rfl

theorem not_clashes_of_collect {decls : List Declaration}
    (hcollect : collect taken classes = .ok decls)
    (place : Nat) : ¬ Clashes taken classes place := by
  classical
  intro hclash
  have hsome : ∃ place, Clashes taken classes place := ⟨place, hclash⟩
  obtain ⟨decl, hdecl, -⟩ := Nat.find_spec hsome
  rw [collect_eq_error hdecl (Nat.find_spec hsome) fun other => Nat.find_min hsome] at hcollect
  cases hcollect

end Declaration

end ClassLayout
