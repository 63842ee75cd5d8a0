import ClassLayout.Proofs.Resolved

/-!
# A class depends on its ancestors alone

Two units may differ in everything but one class and the ancestors it declares: in the other classes,
in the order of declaration, in the entry point. Then that class comes out the same in both, its
layout, its table and the table's fingerprint included. The registries are not alike, since positions
depend on all classes; what is compared is the class apart from the position of its parent.
-/

namespace ClassLayout

open Relation

namespace Source.Unit

variable {unit other : Unit} {name : String}

def Extends (unit : Unit) (child parent : String) : Prop :=
  ∃ decl ∈ unit.classes, decl.name = child ∧ decl.parentName = parent

/-- The class of the given name and all its declared ancestors are declared alike in `other`. -/
def SharesLineage (unit other : Unit) (name : String) : Prop :=
  ∀ decl ∈ unit.classes, ReflTransGen unit.Extends name decl.name → decl ∈ other.classes

theorem SharesLineage.parent {decl : Class} (hshares : unit.SharesLineage other decl.name)
    (hdecl : decl ∈ unit.classes) : unit.SharesLineage other decl.parentName := by
  intro ancestor hancestor hreach
  exact hshares ancestor hancestor (.head ⟨decl, hdecl, rfl, rfl⟩ hreach)

theorem sharesLineage_of_closed {names : List String} (hname : name ∈ names)
    (hclosed : ∀ decl ∈ unit.classes, decl.name ∈ names → decl.parentName ∈ names)
    (hsame : ∀ decl ∈ unit.classes, decl.name ∈ names → decl ∈ other.classes) :
    unit.SharesLineage other name := by
  intro decl hdecl hreach
  apply hsame decl hdecl
  clear hdecl
  generalize decl.name = reached at hreach ⊢
  induction hreach with
  | refl => exact hname
  | tail _ hlink ih =>
      obtain ⟨child, hchild, rfl, rfl⟩ := hlink
      exact hclosed child hchild ih

end Source.Unit

namespace Entry

/-- The class without the position of its parent. -/
def detached (entry : Entry) : Entry := { entry with parent? := none }

theorem detached_eq_iff {one other : Entry} : one.detached = other.detached ↔
    one.name = other.name ∧ one.members = other.members ∧ one.table = other.table := by
  simp [detached]

end Entry

theorem Declaration.detached_resolve (decl : Declaration) {one other : Entry}
    (hsame : one.detached = other.detached) (left right : Nat) :
    (decl.resolve one left).detached = (decl.resolve other right).detached := by
  obtain ⟨hname, hmembers, htable⟩ := Entry.detached_eq_iff.mp hsame
  have hhead : one.head = other.head := Prod.ext hname hmembers
  rw [resolve, resolve, Entry.layOut_congr hhead]
  unfold Entry.buildTable Entry.derivation Entry.layOut
  rw [htable]
  split <;> rfl

/-! ### Classes of a unit in its registry -/

section Found

variable {unit : Source.Unit} {entryPoint : String} {program : Program}

theorem Program.parentOf_eq (hsound : program.registry.Sound) {id parent : Nat}
    {entry above : Entry} (hentry : program.registry.entries[id]? = some entry)
    (hparent : entry.parent? = some parent)
    (habove : program.registry.entries[parent]? = some above) :
    program.parentOf entry = .ok (some above) := by
  rw [parentOf, hsound.lookup?_name hentry]
  simp [Registry.parentOf, Registry.get, Registry.entryAt, hentry, hparent, habove, Except.map]

theorem exists_resolve_of_mem (hlower : lower unit entryPoint = .ok program) {decl : Source.Class}
    (hdecl : decl ∈ unit.classes) :
    ∃ (id parent : Nat) (above : Entry), program.registry.entries[parent]? = some above ∧
      above.name = decl.parentName ∧
      program.registry.entries[id]? = some ((Declaration.ofSource decl).resolve above parent) := by
  have hname : decl.name ∈ (program.registry.entries.drop rootCount).map Entry.name :=
    (represents_of_lower hlower).classes.mem_iff.mpr (List.mem_map_of_mem hdecl)
  obtain ⟨entry, hentry, hname⟩ := List.mem_map.mp hname
  obtain ⟨place, hplace⟩ := List.mem_iff_getElem?.mp hentry
  rw [List.getElem?_drop] at hplace
  obtain ⟨found, hfound, parent, above, -, habove, hparent, rfl⟩ :=
    exists_resolve_of_lower hlower (Nat.le_add_right ..) hplace
  obtain ⟨-, -, hnodup, -, -⟩ := exists_run_of_lower hlower
  obtain rfl := Source.Unit.eq_of_name_eq hnodup hfound hdecl (by simpa using hname)
  exact ⟨_, parent, above, habove, hparent, hplace⟩

theorem exists_resolve_below (hlower : lower unit entryPoint = .ok program) {decl : Source.Class}
    (hdecl : decl ∈ unit.classes) {parent : Nat} {above : Entry}
    (habove : program.registry.entries[parent]? = some above)
    (hparent : above.name = decl.parentName) :
    ∃ id : Nat, program.registry.entries[id]? =
      some ((Declaration.ofSource decl).resolve above parent) := by
  obtain ⟨id, position, found, hfound, hname, hentry⟩ := exists_resolve_of_mem hlower hdecl
  obtain rfl := (sound_of_lower hlower).id_eq_of_name_eq hfound habove (hname.trans hparent.symm)
  obtain rfl := Option.some.inj (hfound.symm.trans habove)
  exact ⟨id, hentry⟩

end Found

/-! ### Two runs -/

section Locality

variable {one other : Source.Unit} {onePoint otherPoint : String} {program rival : Program}

theorem exists_detached_eq (hone : lower one onePoint = .ok program)
    (hother : lower other otherPoint = .ok rival) {id : Nat} {entry : Entry}
    (hentry : program.registry.entries[id]? = some entry)
    (hshares : one.SharesLineage other entry.name) :
    ∃ (place : Nat) (twin : Entry), rival.registry.entries[place]? = some twin ∧
      entry.detached = twin.detached := by
  revert hshares
  refine climb_of_lower (motive := fun entry => one.SharesLineage other entry.name →
    ∃ (place : Nat) (twin : Entry), rival.registry.entries[place]? = some twin ∧
      entry.detached = twin.detached) hone ?_ ?_ hentry
  · intro root hroot _
    obtain ⟨place, hplace⟩ := (represents_of_lower hother).exists_root hroot
    exact ⟨place, root, hplace, rfl⟩
  · intro decl hdecl parent above _ hparent ih hshares
    rw [Declaration.name_resolve, Declaration.ofSource_name] at hshares
    obtain ⟨high, twin, hhigh, hsame⟩ := ih (hparent ▸ hshares.parent hdecl)
    -- The parent of the twin is the twin of the parent: both have the name that is declared.
    obtain ⟨place, htwin⟩ := exists_resolve_below hother (hshares decl hdecl .refl) hhigh
      ((Entry.detached_eq_iff.mp hsame).1.symm.trans hparent)
    exact ⟨place, _, htwin, Declaration.detached_resolve _ hsame _ _⟩

end Locality

/-- A class comes out the same in all programs of units that declare it and its ancestors alike. -/
theorem lower_local {one other : Source.Unit} {onePoint otherPoint : String}
    {program rival : Program} (hone : lower one onePoint = .ok program)
    (hother : lower other otherPoint = .ok rival) {decl : Source.Class}
    (hdecl : decl ∈ one.classes) (hshares : one.SharesLineage other decl.name) :
    ∃ entry twin above beyond,
      program.registry.byName decl.name = .ok (some entry) ∧
      rival.registry.byName decl.name = .ok (some twin) ∧
      program.parentOf entry = .ok (some above) ∧ rival.parentOf twin = .ok (some beyond) ∧
      above.name = beyond.name ∧
      entry.members = twin.members ∧
      entry.table = twin.table ∧
      entry.table.fingerprint entry.name = twin.table.fingerprint twin.name := by
  have hsound := sound_of_lower hone
  have hrival := sound_of_lower hother
  obtain ⟨id, parent, above, habove, hparent, hentry⟩ := exists_resolve_of_mem hone hdecl
  obtain ⟨place, position, beyond, hbeyond, hposition, htwin⟩ :=
    exists_resolve_of_mem hother (hshares decl hdecl .refl)
  obtain ⟨found, same, hfound, hsame⟩ :=
    exists_detached_eq hone hother hentry (by simpa using hshares)
  obtain ⟨hname, hmembers, htable⟩ := Entry.detached_eq_iff.mp hsame
  obtain rfl := hrival.id_eq_of_name_eq hfound htwin (by simpa using hname.symm)
  obtain rfl := Option.some.inj (htwin.symm.trans hfound)
  refine ⟨_, _, above, beyond, ?_, ?_, ?_, ?_, ?_, hmembers, htable, ?_⟩
  · simpa using hsound.byName_eq hentry
  · simpa using hrival.byName_eq htwin
  · exact Program.parentOf_eq hsound hentry (by simp) habove
  · exact Program.parentOf_eq hrival htwin (by simp) hbeyond
  · rw [hparent, hposition]
  · rw [hname, htable]

def Source.Unit.sketches : Source.Unit :=
  ⟨some ["sketches"], Class.named "Circle" :: (Unit.shapes.classes.drop 1).reverse⟩

/-- A rectangle is the same among shapes and among sketches, where it stands elsewhere. -/
theorem lower_local_shapes :
    ∃ program rival, lower .shapes "main" = .ok program ∧ lower .sketches "draw" = .ok rival ∧
      program.registry.lookup? "Rect" = some 4 ∧ rival.registry.lookup? "Rect" = some 5 ∧
      ∃ entry twin, program.registry.byName "Rect" = .ok (some entry) ∧
        rival.registry.byName "Rect" = .ok (some twin) ∧
        entry.members = twin.members ∧ entry.table = twin.table := by
  obtain ⟨program, hone, hfour⟩ : ∃ program, lower .shapes "main" = .ok program ∧
      program.registry.lookup? "Rect" = some 4 := ⟨_, by cbv, rfl⟩
  obtain ⟨rival, hother, hfive⟩ : ∃ rival, lower .sketches "draw" = .ok rival ∧
      rival.registry.lookup? "Rect" = some 5 := ⟨_, by cbv, rfl⟩
  have hdecl : Source.Unit.shapes.classes.get ⟨1, by decide⟩ ∈ Source.Unit.shapes.classes :=
    List.get_mem ..
  have hname : "Rect" ∈ ["Rect", "Shape", baseName] := by decide
  have hshares : Source.Unit.shapes.SharesLineage .sketches "Rect" :=
    Source.Unit.sharesLineage_of_closed hname (by decide) (by decide)
  obtain ⟨entry, twin, above, beyond, hentry, htwin, -, -, -, hmembers, htable, -⟩ :=
    lower_local hone hother hdecl hshares
  exact ⟨program, rival, hone, hother, hfour, hfive, entry, twin, hentry, htwin, hmembers, htable⟩

end ClassLayout
