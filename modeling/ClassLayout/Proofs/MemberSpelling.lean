import ClassLayout.Program
import ClassLayout.Source.Builder
import ClassLayout.Source.Encode
import Mathlib.Data.List.Permutation
import Mathlib.Logic.Relation

/-!
# Members written in other ways

Fields, constructors and methods are collected in three lists, so it does not matter how members of
different kinds are mixed. Neither does it matter whether the names of a field declaration share it or
have one each. A unit may be rewritten in these ways any number of times, in any of its classes: what
is collected of it stays the same, and so does its program.
-/

namespace ClassLayout

open Relation

namespace Source

def FieldDecl.singles (decl : FieldDecl) : List Member :=
  decl.declarators.map fun declarator => .field { decl with declarators := [declarator] }

/-- Two neighbours of different kinds change places, or a field declaration is split. -/
inductive Member.Rewrites : List Member → List Member → Prop
  | swap (before after : List Member) {one other : Member} (hkind : one.kindName ≠ other.kindName) :
      Rewrites (before ++ one :: other :: after) (before ++ other :: one :: after)
  | split (before after : List Member) (decl : FieldDecl) :
      Rewrites (before ++ .field decl :: after) (before ++ (decl.singles ++ after))

/-- The members of one class are rewritten. -/
inductive Unit.Rewrites : Unit → Unit → Prop
  | intro (package? : Option (List String)) (before after : List Class) (decl : Class)
      (members : List Member) (hmembers : Member.Rewrites decl.members members) :
      Rewrites ⟨package?, before ++ decl :: after⟩ ⟨package?, before ++ { decl with members } :: after⟩

end Source

open Source

namespace Declaration

variable {members others : List Member}

/-! ### One class -/

theorem addMember_comm (owner : String) (done : Members) {one other : Member}
    (hkind : one.kindName ≠ other.kindName) :
    addMember owner (addMember owner done one) other =
      addMember owner (addMember owner done other) one := by
  cases one <;> cases other <;> simp_all [addMember, Member.kindName]

theorem foldl_singles (owner : String) (decl : FieldDecl) (done : Members) :
    decl.singles.foldl (addMember owner) done = addMember owner done (.field decl) := by
  obtain ⟨modifiers, type, declarators⟩ := decl
  induction declarators generalizing done with
  | nil => simp [FieldDecl.singles, addMember, fields]
  | cons first rest ih =>
      simp only [FieldDecl.singles, List.map_cons, List.foldl_cons] at ih ⊢
      rw [ih]
      simp [addMember, fields]

theorem foldl_rewrites (owner : String) (hrewrites : Member.Rewrites members others) :
    members.foldl (addMember owner) {} = others.foldl (addMember owner) {} := by
  cases hrewrites with
  | swap before after hkind =>
      rw [List.foldl_append, List.foldl_append, List.foldl_cons, List.foldl_cons, List.foldl_cons,
        List.foldl_cons, addMember_comm owner _ hkind]
  | split before after decl =>
      rw [List.foldl_append, List.foldl_append, List.foldl_cons, List.foldl_append, foldl_singles]

theorem ofSource_rewrites (decl : Source.Class) (hrewrites : Member.Rewrites decl.members members) :
    ofSource decl = ofSource { decl with members } := by
  rw [ofSource, ofSource, foldl_rewrites decl.name hrewrites]

/-! ### A unit -/

theorem collect_congr {taken : List String} {classes others : List Source.Class}
    (hsame : classes.map ofSource = others.map ofSource) :
    collect taken classes = collect taken others := by
  induction classes generalizing taken others with
  | nil =>
      cases others with
      | nil => rfl
      | cons => cases hsame
  | cons first rest ih =>
      cases others with
      | nil => cases hsame
      | cons second others =>
          obtain ⟨hfirst, hrest⟩ := List.cons.inj hsame
          have hname : first.name = second.name := congrArg Declaration.name hfirst
          rw [collect, collect, hname, hfirst, ih hrest]

end Declaration

theorem Declarations.ofUnit_rewrites {unit other : Source.Unit} (hrewrites : unit.Rewrites other) :
    ofUnit unit = ofUnit other := by
  obtain ⟨package?, before, after, decl, members, hmembers⟩ := hrewrites
  have hsame : (before ++ decl :: after).map Declaration.ofSource =
      (before ++ { decl with members } :: after).map Declaration.ofSource := by
    rw [List.map_append, List.map_append, List.map_cons, List.map_cons,
      Declaration.ofSource_rewrites decl hmembers]
  rw [ofUnit, ofUnit, Declaration.collect_congr hsame]
  rfl

/-- However often members are rewritten, the same is collected or the same fault is found, and the
program is the same. -/
theorem lower_rewrites {unit other : Source.Unit} (hrewrites : EqvGen Source.Unit.Rewrites unit other) :
    Declarations.ofUnit unit = Declarations.ofUnit other ∧
      ∀ options : LoweringOptions, lower unit options.entryPoint = lower other options.entryPoint := by
  have hsame : Declarations.ofUnit unit = Declarations.ofUnit other := by
    induction hrewrites with
    | rel _ _ hrewrites => exact Declarations.ofUnit_rewrites hrewrites
    | refl => rfl
    | symm _ _ _ ih => exact ih.symm
    | trans _ _ _ _ _ ihOne ihOther => exact ihOne.trans ihOther
  exact ⟨hsame, fun options => by rw [lower, lower, hsame]⟩

def Source.Unit.dial (members : List Member) : Unit :=
  ⟨none, [.named "Knob", { Class.named "Dial" with members }]⟩

theorem Source.Unit.rewrites_dial {members others : List Member}
    (hmembers : Member.Rewrites members others) :
    EqvGen Rewrites (dial members) (dial others) :=
  .rel _ _ (.intro none [.named "Knob"] [] { Class.named "Dial" with members } others hmembers)

/-- Two bounds in one declaration after a method, and a declaration of nothing. -/
def Source.Member.mixed : List Member :=
  [.method ⟨["public"], none, "turn", []⟩,
    .field ⟨["private"], ⟨"int", 0⟩, [⟨"low", none⟩, ⟨"high", some "9"⟩]⟩,
    .field ⟨[], ⟨"int", 0⟩, []⟩, .constructor ⟨["public"], "Dial", []⟩]

def Source.Member.sorted : List Member :=
  [.field ⟨["private"], ⟨"int", 0⟩, [⟨"low", none⟩]⟩,
    .field ⟨["private"], ⟨"int", 0⟩, [⟨"high", some "9"⟩]⟩,
    .method ⟨["public"], none, "turn", []⟩, .constructor ⟨["public"], "Dial", []⟩]

theorem lower_rewrites_dial :
    EqvGen Source.Unit.Rewrites (.dial Member.mixed) (.dial Member.sorted) ∧
      (∃ program, lower (.dial Member.mixed) "main" = .ok program) ∧
      lower (.dial Member.mixed) "main" = lower (.dial Member.sorted) "main" := by
  have hrewrites : EqvGen Source.Unit.Rewrites (.dial Member.mixed) (.dial Member.sorted) := by
    refine .trans _ _ _ (Source.Unit.rewrites_dial (.swap [] _ (by decide))) ?_
    refine .trans _ _ _ (Source.Unit.rewrites_dial (.split [] _ _)) ?_
    exact Source.Unit.rewrites_dial (.split (Member.sorted.take 3) _ _)
  exact ⟨hrewrites, ⟨_, by cbv⟩, (lower_rewrites hrewrites).2 { entryPoint := "main" }⟩

end ClassLayout
