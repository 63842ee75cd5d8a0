import ClassLayout.Proofs.Outcome
import ClassLayout.Source.Builder
import Mathlib.Data.List.Permutation

/-!
# The registry of a lowered unit

The roots stand in front as they were seeded, then come the classes of the unit, each once and after
its parent. Neither the field layouts nor the tables change any of that, so every pass finds the
parent of a class finished.
-/

namespace ClassLayout

namespace Entry

/-- What no pass changes of an entry. -/
def outline (entry : Entry) : String × Option Nat × List Constructor × List Method :=
  (entry.name, entry.parent?, entry.members.constructors, entry.members.methods)

theorem outline_layOut (parent child : Entry) : (layOut parent child).outline = child.outline := by
  unfold layOut
  split <;> rfl

theorem outline_buildTable (parent child : Entry) :
    (buildTable parent child).outline = child.outline := rfl

def head (entry : Entry) : String × Members := (entry.name, entry.members)

theorem head_buildTable (parent child : Entry) : (buildTable parent child).head = child.head := rfl

/-- It does not matter whether the parent has its table yet. -/
theorem layOut_congr {one other : Entry} (hhead : one.head = other.head) (child : Entry) :
    layOut one child = layOut other child := by
  obtain ⟨hname, hmembers⟩ := Prod.mk.inj hhead
  unfold layOut handsDown siftedFields handedDown
  rw [hname, hmembers]

end Entry

namespace Registry

/-- The other roots are children of the base class, with the tables that would be built for them. -/
theorem seeded_child {id : Nat} {entry : Entry} (hid : 0 < id)
    (hentry : seeded.entries[id]? = some entry) :
    entry.parent? = some 0 ∧ entry.table = (Entry.derivation Root.base entry).table := by
  have hchildren : ∀ entry ∈ seeded.entries.drop 1,
      entry.parent? = some 0 ∧ entry.table = (Entry.derivation Root.base entry).table := by decide
  apply hchildren
  apply List.mem_of_getElem? (i := id - 1)
  rw [List.getElem?_drop, Nat.add_sub_cancel' hid, hentry]

theorem sound_seeded : seeded.Sound where
  index_eq := rfl
  nodup := by decide
  parent_lt := by
    intro id parent entry hentry hlink
    rcases Nat.eq_zero_or_pos id with rfl | hid
    · obtain rfl := Option.some.inj hentry
      cases hlink
    · rw [(seeded_child hid hentry).1] at hlink
      exact Option.some.inj hlink ▸ hid

variable {registry : Registry}

theorem Sound.layOutFields (hsound : registry.Sound) : registry.layOutFields.Sound :=
  hsound.derive (fun parent child => congrArg Prod.fst (Entry.outline_layOut parent child))
    (fun parent child => congrArg (·.2.1) (Entry.outline_layOut parent child))

theorem Sound.buildTables (hsound : registry.Sound) : registry.buildTables.Sound :=
  hsound.derive (fun _ _ => rfl) (fun _ _ => rfl)

/-- The registry holds the roots and the classes of the unit, parents before children. -/
structure Represents (registry : Registry) (unit : Source.Unit) : Prop where
  size_eq : registry.size = rootCount + unit.classes.length
  roots : registry.entries.take rootCount = seeded.entries
  classes : ((registry.entries.drop rootCount).map Entry.name).Perm
    (unit.classes.map Source.Class.name)
  parent_lt : ∀ id entry, 0 < id → registry.entries[id]? = some entry →
    ∃ parent < id, entry.parent? = some parent
  declared : ∀ id entry, rootCount ≤ id → registry.entries[id]? = some entry →
    ∃ decl ∈ unit.classes, entry.name = decl.name ∧
      entry.members.constructors = (Declaration.ofSource decl).members.constructors ∧
      entry.members.methods = (Declaration.ofSource decl).members.methods ∧
      ∃ parent above, entry.parent? = some parent ∧ registry.entries[parent]? = some above ∧
        above.name = decl.parentName
  lookup : ∀ id entry, registry.entries[id]? = some entry → registry.lookup? entry.name = some id

namespace Represents

variable {unit : Source.Unit}

theorem rootCount_le (hrepresents : registry.Represents unit) : rootCount ≤ registry.size := by
  rw [hrepresents.size_eq]
  exact Nat.le_add_right _ _

theorem getElem?_root (hrepresents : registry.Represents unit) {id : Nat} (hid : id < rootCount) :
    registry.entries[id]? = seeded.entries[id]? := by
  rw [← List.getElem?_take_of_lt hid, hrepresents.roots]

theorem exists_root (hrepresents : registry.Represents unit) {root : Entry}
    (hroot : root ∈ seeded.entries) : ∃ id : Nat, registry.entries[id]? = some root := by
  rw [← hrepresents.roots] at hroot
  exact List.mem_iff_getElem?.mp (List.mem_of_mem_take hroot)

theorem exists_parent (hrepresents : registry.Represents unit) {id : Nat} {entry : Entry}
    (hid : rootCount ≤ id) (hentry : registry.entries[id]? = some entry) :
    ∃ parent, entry.parent? = some parent := by
  have hpos : 0 < id := Nat.lt_of_lt_of_le (by decide) hid
  obtain ⟨parent, -, hparent⟩ := hrepresents.parent_lt id entry hpos hentry
  exact ⟨parent, hparent⟩

theorem derive {change : Entry → Entry → Entry} (hrepresents : registry.Represents unit)
    (hsound : registry.Sound)
    (houtline : ∀ parent child, (change parent child).outline = child.outline) :
    (registry.derive rootCount change).Represents unit := by
  have hmap := derive_map houtline registry rootCount
  have hname : ∀ parent child, (change parent child).name = child.name :=
    fun parent child => congrArg Prod.fst (houtline parent child)
  have hparent : ∀ parent child, (change parent child).parent? = child.parent? :=
    fun parent child => congrArg (·.2.1) (houtline parent child)
  constructor
  · rw [derive_size, hrepresents.size_eq]
  · rw [derive_take, hrepresents.roots]
  · rw [List.map_drop, derive_map hname, ← List.map_drop]
    exact hrepresents.classes
  · intro id entry hid hentry
    obtain ⟨before, hbefore, heq⟩ := exists_getElem?_of_map_eq hmap hentry
    obtain ⟨parent, hlt, hlink⟩ := hrepresents.parent_lt id before hid hbefore
    exact ⟨parent, hlt, (congrArg (·.2.1) heq).symm.trans hlink⟩
  · intro id entry hid hentry
    obtain ⟨before, hbefore, heq⟩ := exists_getElem?_of_map_eq hmap hentry
    obtain ⟨decl, hdecl, hnames, hconstructors, hmethods, parent, above, hlink, habove, htop⟩ :=
      hrepresents.declared id before hid hbefore
    obtain ⟨after, hafter, hsame⟩ := exists_getElem?_of_map_eq hmap.symm habove
    simp only [Entry.outline, Prod.mk.injEq] at heq hsame
    obtain ⟨heqName, heqParent, heqConstructors, heqMethods⟩ := heq
    exact ⟨decl, hdecl, heqName ▸ hnames, heqConstructors ▸ hconstructors, heqMethods ▸ hmethods,
      parent, after, heqParent ▸ hlink, hafter, hsame.1.trans htop⟩
  · intro id entry hentry
    exact (hsound.derive hname hparent).lookup?_name hentry

theorem layOutFields (hrepresents : registry.Represents unit) (hsound : registry.Sound) :
    registry.layOutFields.Represents unit :=
  hrepresents.derive hsound Entry.outline_layOut

theorem buildTables (hrepresents : registry.Represents unit) (hsound : registry.Sound) :
    registry.buildTables.Represents unit :=
  hrepresents.derive hsound Entry.outline_buildTable

end Represents

end Registry

theorem Worklist.Run.exists_placed {unit : Source.Unit} {registry : Registry}
    (hnodup : unit.work.names.Nodup) (hrun : unit.work.Run ⟨registry, []⟩) {id : Nat} {entry : Entry}
    (hid : rootCount ≤ id) (hentry : registry.entries[id]? = some entry) :
    ∃ decl ∈ unit.classes, ∃ parent, entry = (Declaration.ofSource decl).toEntry parent ∧
      registry.lookup? decl.parentName = some parent := by
  obtain ⟨placed, hplaced, hentry⟩ :=
    hrun.placed (Worklist.fresh_of_nodup_names hnodup) hid hentry
  obtain ⟨decl, hdecl, rfl⟩ := List.mem_map.mp hplaced
  exact ⟨decl, hdecl, hentry.exists_eq_toEntry⟩

theorem Worklist.Run.represents {unit : Source.Unit} {registry : Registry}
    (hnodup : unit.work.names.Nodup) (hrun : unit.work.Run ⟨registry, []⟩) :
    registry.Represents unit := by
  have hsound : registry.Sound := hrun.sound Registry.sound_seeded
  have hroots : registry.entries.take rootCount = Registry.seeded.entries := by
    obtain ⟨added, hadded⟩ := hrun.entries_grow
    rw [← hadded]
    rfl
  have hperm : registry.names.Perm (rootNames ++ unit.classes.map Source.Class.name) := by
    have hperm := hrun.names_perm
    rw [Source.Unit.names_work, Worklist.names, List.map_nil, List.append_nil] at hperm
    exact hperm
  constructor
  · rw [Registry.size, ← hsound.length_names, hperm.length_eq, List.length_append, List.length_map]
    rfl
  · exact hroots
  · rw [hsound.names_eq, ← List.take_append_drop rootCount registry.entries, hroots,
      List.map_append] at hperm
    exact (List.perm_append_left_iff _).mp hperm
  · intro id entry hid hentry
    rcases Nat.lt_or_ge id rootCount with hroot | huser
    · rw [← List.getElem?_take_of_lt hroot, hroots] at hentry
      exact ⟨0, hid, (Registry.seeded_child hid hentry).1⟩
    · obtain ⟨decl, -, parent, rfl, -⟩ := hrun.exists_placed hnodup huser hentry
      exact ⟨parent, hsound.parent_lt hentry rfl, rfl⟩
  · intro id entry hid hentry
    obtain ⟨decl, hdecl, parent, rfl, hlookup⟩ := hrun.exists_placed hnodup hid hentry
    obtain ⟨above, habove, hname⟩ := hsound.lookup?_iff.mp hlookup
    exact ⟨decl, hdecl, rfl, rfl, rfl, parent, above, rfl, habove, hname⟩
  · intro id entry hentry
    exact hsound.lookup?_name hentry

/-- What an accepted unit has gone through: a run that places all its classes, and the two passes. -/
theorem exists_run_of_lower {unit : Source.Unit} {entryPoint : String} {program : Program}
    (hlower : lower unit entryPoint = .ok program) :
    ∃ ordered, linearize .seeded (unit.classes.map Declaration.ofSource) = .ok ordered ∧
      unit.work.names.Nodup ∧ unit.work.Run ⟨ordered.registry, []⟩ ∧
      program = .ofRegistry ordered.registry.layOutFields.buildTables unit.packageName
        entryPoint := by
  have hfree := (exists_lower_iff.mp ⟨program, hlower⟩).1
  have hnodup := Source.Unit.nodup_names_work hfree
  rcases unit.work.linearize_cases hnodup with ⟨ordered, hordered, hrun⟩ | ⟨last, hlast, -⟩
  · rw [lower_eq_ok hfree hordered] at hlower
    obtain rfl := Except.ok.inj hlower
    exact ⟨ordered, hordered, hnodup, hrun, rfl⟩
  · rw [lower_eq_error hfree hlast] at hlower
    cases hlower

theorem exists_ordered_of_lower {unit : Source.Unit} {entryPoint : String} {program : Program}
    (hlower : lower unit entryPoint = .ok program) :
    ∃ ordered, linearize .seeded (unit.classes.map Declaration.ofSource) = .ok ordered ∧
      ordered.registry.Sound ∧ ordered.registry.Represents unit ∧
      program.registry = ordered.registry.layOutFields.buildTables := by
  obtain ⟨ordered, hordered, hnodup, hrun, rfl⟩ := exists_run_of_lower hlower
  exact ⟨ordered, hordered, hrun.sound Registry.sound_seeded, hrun.represents hnodup, rfl⟩

theorem sound_of_lower {unit : Source.Unit} {entryPoint : String} {program : Program}
    (hlower : lower unit entryPoint = .ok program) : program.registry.Sound := by
  obtain ⟨ordered, -, hsound, -, hregistry⟩ := exists_ordered_of_lower hlower
  rw [hregistry]
  exact hsound.layOutFields.buildTables

theorem represents_of_lower {unit : Source.Unit} {entryPoint : String} {program : Program}
    (hlower : lower unit entryPoint = .ok program) : program.registry.Represents unit := by
  obtain ⟨ordered, -, hsound, hrepresents, hregistry⟩ := exists_ordered_of_lower hlower
  rw [hregistry]
  exact (hrepresents.layOutFields hsound).buildTables hsound.layOutFields

namespace Declaration

/-- What the finished registry holds for a declaration: laid out and given its table, below the
finished entry of its parent. -/
def resolve (decl : Declaration) (above : Entry) (parent : Nat) : Entry :=
  Entry.buildTable above (Entry.layOut above (decl.toEntry parent))

theorem outline_resolve (decl : Declaration) (above : Entry) (parent : Nat) :
    (decl.resolve above parent).outline = (decl.toEntry parent).outline :=
  Entry.outline_layOut above (decl.toEntry parent)

@[simp] theorem name_resolve (decl : Declaration) (above : Entry) (parent : Nat) :
    (decl.resolve above parent).name = decl.name :=
  congrArg Prod.fst (outline_resolve decl above parent)

@[simp] theorem parent?_resolve (decl : Declaration) (above : Entry) (parent : Nat) :
    (decl.resolve above parent).parent? = some parent :=
  congrArg (·.2.1) (outline_resolve decl above parent)

theorem table_resolve (decl : Declaration) (above : Entry) (parent : Nat) :
    (decl.resolve above parent).table =
      (Entry.derivation above (decl.resolve above parent)).table := rfl

theorem table_resolve_ofSource (decl : Source.Class) (above : Entry) (parent : Nat) :
    ((ofSource decl).resolve above parent).table =
      (Derivation.ofParent above.table decl.name (methods decl.name decl.members)).table := by
  have houtline := outline_resolve (ofSource decl) above parent
  have hmethods := congrArg (·.2.2.2) houtline
  rw [table_resolve, Entry.derivation, name_resolve, ofSource_name, ← methods_ofSource]
  exact congrArg (fun methods => (Derivation.ofParent above.table decl.name methods).table) hmethods

end Declaration

/-- Every class of an accepted unit is made from its declaration and its finished parent. -/
theorem exists_resolve_of_lower {unit : Source.Unit} {entryPoint : String} {program : Program}
    (hlower : lower unit entryPoint = .ok program) {id : Nat} {entry : Entry}
    (hid : rootCount ≤ id) (hentry : program.registry.entries[id]? = some entry) :
    ∃ decl ∈ unit.classes, ∃ parent above, parent < id ∧
      program.registry.entries[parent]? = some above ∧ above.name = decl.parentName ∧
      entry = (Declaration.ofSource decl).resolve above parent := by
  obtain ⟨ordered, -, hnodup, hrun, rfl⟩ := exists_run_of_lower hlower
  have hsound := hrun.sound Registry.sound_seeded
  have hrepresents := hrun.represents hnodup
  have hlaidOut := hrepresents.layOutFields hsound
  have hbuilt : ordered.registry.layOutFields.buildTables.entries[id]? = some entry := hentry
  obtain ⟨laid, hlaid, -⟩ := Registry.exists_getElem?_of_map_eq
    (Registry.derive_map Entry.outline_buildTable _ _) hbuilt
  obtain ⟨placed, hplaced, hsame⟩ := Registry.exists_getElem?_of_map_eq
    (Registry.derive_map Entry.outline_layOut _ _) hlaid
  obtain ⟨decl, hdecl, parent, rfl, hparent⟩ := hrun.exists_placed hnodup hid hplaced
  obtain ⟨early, hearly, hlayOut⟩ := Registry.derive_getElem?_of_parent Entry.layOut hsound
    hrepresents.rootCount_le hid hplaced rfl
  obtain rfl := Option.some.inj (hlayOut.symm.trans hlaid)
  obtain ⟨above, habove, hbuildTable⟩ := Registry.derive_getElem?_of_parent Entry.buildTable
    hsound.layOutFields hlaidOut.rootCount_le hid hlaid (congrArg (·.2.1) hsame).symm
  obtain rfl := Option.some.inj (hbuildTable.symm.trans hbuilt)
  -- The parent had its members, but not yet its table, when the fields were laid out.
  obtain ⟨finished, hfinished, heq⟩ := Registry.exists_getElem?_of_map_eq
    (Registry.derive_map Entry.head_buildTable ordered.registry.layOutFields rootCount).symm hearly
  obtain rfl := Option.some.inj (hfinished.symm.trans habove)
  refine ⟨decl, hdecl, parent, finished, hsound.parent_lt hplaced rfl, habove, ?_, ?_⟩
  · obtain ⟨found, hfound, hname⟩ := hsound.layOutFields.buildTables.lookup?_iff.mp hparent
    rw [← hname, Option.some.inj (hfound.symm.trans habove)]
  · rw [Declaration.resolve, Entry.layOut_congr heq]

/-- What holds of the roots and passes from a finished parent to the class made from it holds of
every class of an accepted unit. -/
theorem climb_of_lower {unit : Source.Unit} {entryPoint : String} {program : Program}
    (hlower : lower unit entryPoint = .ok program) {motive : Entry → Prop}
    (hroot : ∀ entry ∈ Registry.seeded.entries, motive entry)
    (hclass : ∀ decl ∈ unit.classes, ∀ parent above,
      program.registry.entries[parent]? = some above → above.name = decl.parentName →
      motive above → motive ((Declaration.ofSource decl).resolve above parent))
    {id : Nat} {entry : Entry} (hentry : program.registry.entries[id]? = some entry) :
    motive entry := by
  induction id using Nat.strongRecOn generalizing entry with
  | ind id ih =>
    rcases Nat.lt_or_ge id rootCount with hid | hid
    · rw [(represents_of_lower hlower).getElem?_root hid] at hentry
      exact hroot entry (List.mem_of_getElem? hentry)
    · obtain ⟨decl, hdecl, parent, above, hlt, habove, hname, rfl⟩ :=
        exists_resolve_of_lower hlower hid hentry
      exact hclass decl hdecl parent above habove hname (ih parent hlt habove)

theorem exists_resolve_of_parent {unit : Source.Unit} {entryPoint : String} {program : Program}
    (hlower : lower unit entryPoint = .ok program) {id parent : Nat} {entry above : Entry}
    (hid : rootCount ≤ id) (hentry : program.registry.entries[id]? = some entry)
    (hparent : entry.parent? = some parent)
    (habove : program.registry.entries[parent]? = some above) :
    ∃ decl ∈ unit.classes, above.name = decl.parentName ∧
      entry = (Declaration.ofSource decl).resolve above parent := by
  obtain ⟨decl, hdecl, high, finished, -, hfinished, hname, rfl⟩ :=
    exists_resolve_of_lower hlower hid hentry
  rw [Declaration.parent?_resolve] at hparent
  obtain rfl := Option.some.inj hparent
  obtain rfl := Option.some.inj (hfinished.symm.trans habove)
  exact ⟨decl, hdecl, hname, rfl⟩

/-- Classes before their parents, with a private namesake of an inherited method, a static method
and an overloaded one. -/
def Source.Unit.shapes : Source.Unit :=
  ⟨none,
    [((Class.named "Square").extending "Rect").withMethod ["private"] (some "int") "area" []
      |>.withMethod ["public"] none "resize" [("int", "side")]
      |>.withMethod ["public"] (some "int") "side" [],
     ((Class.named "Rect").extending "Shape").withMethod ["public"] (some "int") "area" []
      |>.withMethod ["public", "static"] (some "Rect") "unit" [],
     (Class.named "Shape").withMethod ["public"] (some "int") "area" [("int", "scale")]
      |>.withMethod ["public"] none "resize" []
      |>.withMethod ["public"] none "resize" [("int", "factor")]]⟩

theorem lower_shapes :
    ∃ program, lower .shapes "main" = .ok program ∧ ∃ square rect shape : Entry,
      (program.registry.entries[5]? = some square ∧ square.parent? = some 4) ∧
      (program.registry.entries[4]? = some rect ∧ rect.parent? = some 3) ∧
      (program.registry.entries[3]? = some shape ∧ shape.parent? = some 0) ∧
      (square.name = "Square" ∧ rect.name = "Rect") ∧
      Method.overriding? square.members.methods "area" = none ∧
      Method.overriding? rect.members.methods "area" =
        some (Root.method "Rect" "int32_t" "area" []) ∧
      Method.overriding? square.members.methods "resize" =
        some (Root.method "Square" "void" "resize" [("int32_t", "side")]) := by
  refine ⟨_, by cbv, _, _, _, ⟨rfl, ?_⟩, ⟨rfl, ?_⟩, ⟨rfl, ?_⟩, ⟨?_, ?_⟩, ?_, ?_, ?_⟩
  all_goals rfl

/-- The registry of an accepted unit holds the roots and the unit's classes at every stage, and
neither pass ever meets a class whose parent does not stand before it. -/
theorem lower_registry {unit : Source.Unit} {entryPoint : String} {program : Program}
    (hlower : lower unit entryPoint = .ok program) :
    ∃ ordered, linearize .seeded (unit.classes.map Declaration.ofSource) = .ok ordered ∧
      ordered.registry.Represents unit ∧
      ordered.registry.layOutFields.Represents unit ∧
      program.registry.Represents unit ∧
      ordered.registry.sweep rootCount Entry.layOut = some ordered.registry.layOutFields ∧
      ordered.registry.layOutFields.sweep rootCount Entry.buildTable = some program.registry := by
  obtain ⟨ordered, hordered, hsound, hrepresents, hregistry⟩ := exists_ordered_of_lower hlower
  have hlaidOut := hrepresents.layOutFields hsound
  refine ⟨ordered, hordered, hrepresents, hlaidOut, ?_, ?_, ?_⟩
  · rw [hregistry]
    exact hlaidOut.buildTables hsound.layOutFields
  · exact Registry.sweep_eq_some_derive hsound hrepresents.rootCount_le hrepresents.exists_parent
  · rw [hregistry]
    exact Registry.sweep_eq_some_derive hsound.layOutFields hlaidOut.rootCount_le
      hlaidOut.exists_parent

theorem lower_registry_shapes :
    ∃ program ordered, lower .shapes "main" = .ok program ∧
      linearize .seeded (Source.Unit.shapes.classes.map Declaration.ofSource) = .ok ordered ∧
      ordered.registry.Represents .shapes ∧
      ordered.registry.layOutFields.Represents .shapes ∧
      program.registry.Represents .shapes ∧
      ordered.registry.sweep rootCount Entry.layOut = some ordered.registry.layOutFields ∧
      ordered.registry.layOutFields.sweep rootCount Entry.buildTable = some program.registry := by
  obtain ⟨program, hlower, -⟩ := lower_shapes
  obtain ⟨ordered, hregistry⟩ := lower_registry hlower
  exact ⟨program, ordered, hlower, hregistry⟩

end ClassLayout
