import ClassLayout.Proofs.Layout
import ClassLayout.Proofs.Locality

/-!
# Names in a layout

A layout that is merged with the parent's has every name of its own once, for a class's field is left
out when its name is taken. Two things are not checked. A child of the base class has nothing to
merge and keeps its fields as they are declared, and what a parent hands down is copied. So a name
that is declared twice directly below the base class stays twice in that class, and if it names
fields of the object, in all its descendants. Nowhere else is a name repeated
(`lower_fieldNames`).
-/

namespace ClassLayout

open Relation

namespace Source.Class

def fieldNames (decl : Class) : List String :=
  (Declaration.ofSource decl).members.fields.map Field.name

def objectFieldNames (decl : Class) : List String :=
  ((Declaration.ofSource decl).members.fields.filter Field.isInheritable).map Field.name

end Source.Class

namespace Entry

def fieldNames (entry : Entry) : List String := entry.members.fields.map Field.name

/-- The names in the layout of its objects, as descendants see it. -/
def objectFieldNames (entry : Entry) : List String := entry.objectFields.map Field.name

end Entry

/-! ### One level -/

theorem Field.nodup_names_sift (taken : List String) (fields : List Field) :
    ((sift taken fields).1.map Field.name).Nodup ∧
      ∀ name ∈ (sift taken fields).1.map Field.name, name ∉ taken := by
  induction fields generalizing taken with
  | nil => simp [sift]
  | cons field rest ih =>
      rw [sift]
      split
      · exact ih taken
      · rename_i hfree
        rw [List.contains_iff_mem] at hfree
        obtain ⟨hnodup, hnew⟩ := ih (field.name :: taken)
        rw [List.map_cons, List.nodup_cons]
        refine ⟨⟨fun hmem => hnew _ hmem List.mem_cons_self, hnodup⟩, ?_⟩
        intro name hname htaken
        rcases List.mem_cons.mp hname with rfl | hrest
        · exact hfree htaken
        · exact hnew name hrest (List.mem_cons_of_mem _ htaken)

namespace Entry

variable {parent : Entry}

theorem names_handedDown (parent : Entry) :
    parent.handedDown.map Field.name = parent.objectFieldNames := by
  rw [handedDown, List.map_map]
  rfl

theorem objectFieldNames_eq (entry : Entry) :
    entry.objectFieldNames = entry.objectLayout.map Prod.fst := by
  rw [objectLayout, List.map_map]
  rfl

theorem objectFieldNames_sublist (entry : Entry) :
    entry.objectFieldNames.Sublist entry.fieldNames :=
  List.filter_sublist.map _

theorem layOut_of_base (hname : parent.name = baseName) (child : Entry) :
    layOut parent child = child := by
  rw [layOut, if_neg (by simp [handsDown, hname])]

theorem fieldNames_layOut (hname : parent.name ≠ baseName) (child : Entry) :
    (layOut parent child).fieldNames =
      parent.objectFieldNames ++ (siftedFields parent child).1.map Field.name := by
  rw [layOut, if_pos (by simp [handsDown, hname]), fieldNames, List.map_append, names_handedDown]

theorem objectFieldNames_prefix_layOut (hname : parent.name ≠ baseName) (child : Entry) :
    parent.objectFieldNames <+: (layOut parent child).objectFieldNames := by
  have hhands : parent.handsDown = true := by simp [handsDown, hname]
  rw [objectFieldNames_eq, objectFieldNames_eq, objectLayout_layOut hhands, List.map_append]
  exact List.prefix_append _ _

theorem nodup_fieldNames_merged (hname : parent.name ≠ baseName) (child : Entry) :
    (layOut parent child).fieldNames.Nodup ↔ parent.objectFieldNames.Nodup := by
  rw [fieldNames_layOut hname, List.nodup_append]
  constructor
  · exact fun hnodup => hnodup.1
  · intro hparent
    obtain ⟨hnodup, hnew⟩ := Field.nodup_names_sift (parent.handedDown.map Field.name)
      child.members.fields
    refine ⟨hparent, hnodup, ?_⟩
    rintro name hname other hother rfl
    apply hnew name hother
    rw [names_handedDown]
    exact hname

theorem nodup_fieldNames_layOut (child : Entry)
    (hbase : parent.name = baseName → parent.objectFieldNames.Nodup) :
    (layOut parent child).fieldNames.Nodup ↔
      (parent.name = baseName → child.fieldNames.Nodup) ∧ parent.objectFieldNames.Nodup := by
  by_cases hname : parent.name = baseName
  · simp [layOut_of_base hname, hname, hbase hname]
  · simp [nodup_fieldNames_merged hname, hname]

theorem nodup_objectFieldNames_layOut (child : Entry)
    (hbase : parent.name = baseName → parent.objectFieldNames.Nodup) :
    (layOut parent child).objectFieldNames.Nodup ↔
      (parent.name = baseName → child.objectFieldNames.Nodup) ∧ parent.objectFieldNames.Nodup := by
  by_cases hname : parent.name = baseName
  · simp [layOut_of_base hname, hname, hbase hname]
  · have hmerged : (layOut parent child).objectFieldNames.Nodup ↔
        parent.objectFieldNames.Nodup := by
      constructor
      · intro hnodup
        exact hnodup.sublist (objectFieldNames_prefix_layOut hname child).sublist
      · intro hparent
        apply List.Nodup.sublist (objectFieldNames_sublist _)
        exact (nodup_fieldNames_merged hname child).mpr hparent
    simp [hmerged, hname]

end Entry

/-! ### Along the chain of parents -/

namespace Source.Unit

variable {unit : Unit} {decl : Class} {name : String}

/-- Neither the class of the given name nor a class above it declares a name twice among the fields
of its objects while it stands directly below the base class. -/
def DistinctFrom (unit : Unit) (name : String) : Prop :=
  ∀ top ∈ unit.classes, ReflTransGen unit.Extends name top.name → top.parentName = baseName →
    top.objectFieldNames.Nodup

theorem not_mem_rootNames (hnodup : unit.work.names.Nodup) (hdecl : decl ∈ unit.classes) :
    decl.name ∉ rootNames := by
  rw [names_work] at hnodup
  intro hroot
  exact (List.nodup_append.mp hnodup).2.2 _ hroot _ (List.mem_map_of_mem hdecl) rfl

theorem extends_iff (hnodup : unit.work.names.Nodup) (hdecl : decl ∈ unit.classes) :
    unit.Extends decl.name name ↔ decl.parentName = name := by
  constructor
  · rintro ⟨other, hother, hname, hparent⟩
    rw [eq_of_name_eq hnodup hdecl hother hname.symm, hparent]
  · exact fun hparent => ⟨decl, hdecl, rfl, hparent⟩

theorem transGen_extends_iff (hnodup : unit.work.names.Nodup) (hdecl : decl ∈ unit.classes) :
    TransGen unit.Extends decl.name name ↔ ReflTransGen unit.Extends decl.parentName name := by
  rw [TransGen.head'_iff]
  simp only [extends_iff hnodup hdecl, exists_eq_left']

theorem distinctFrom_root (hnodup : unit.work.names.Nodup) (hroot : name ∈ rootNames) :
    unit.DistinctFrom name := by
  intro top htop hreach
  rcases hreach.cases_head with rfl | ⟨parent, ⟨decl, hdecl, rfl, -⟩, -⟩
  · exact absurd hroot (not_mem_rootNames hnodup htop)
  · exact absurd hroot (not_mem_rootNames hnodup hdecl)

theorem distinctFrom_class (hnodup : unit.work.names.Nodup) (hdecl : decl ∈ unit.classes) :
    unit.DistinctFrom decl.name ↔
      (decl.parentName = baseName → decl.objectFieldNames.Nodup) ∧
        unit.DistinctFrom decl.parentName := by
  constructor
  · intro hdistinct
    refine ⟨hdistinct decl hdecl .refl, fun top htop hreach => ?_⟩
    exact hdistinct top htop (.head ⟨decl, hdecl, rfl, rfl⟩ hreach)
  · rintro ⟨hown, habove⟩ top htop hreach
    rcases hreach.cases_head with hname | ⟨parent, hlink, hreach⟩
    · rw [← eq_of_name_eq hnodup hdecl htop hname]
      exact hown
    · rw [extends_iff hnodup hdecl] at hlink
      exact habove top htop (hlink ▸ hreach)

end Source.Unit

section Layouts

variable {unit : Source.Unit} {entryPoint : String} {program : Program}

theorem nodup_objectFieldNames_iff (hlower : lower unit entryPoint = .ok program) {id : Nat}
    {entry : Entry} (hentry : program.registry.entries[id]? = some entry) :
    entry.objectFieldNames.Nodup ↔ unit.DistinctFrom entry.name := by
  obtain ⟨-, -, hnodup, -, -⟩ := exists_run_of_lower hlower
  refine climb_of_lower hlower
    (motive := fun entry => entry.objectFieldNames.Nodup ↔ unit.DistinctFrom entry.name)
    ?_ ?_ hentry
  · intro root hroot
    have hnames : ∀ root ∈ Registry.seeded.entries,
        root.name ∈ rootNames ∧ root.objectFieldNames.Nodup := by decide
    obtain ⟨hname, hdistinct⟩ := hnames root hroot
    exact iff_of_true hdistinct (Source.Unit.distinctFrom_root hnodup hname)
  · intro decl hdecl parent above _ hname ih
    rw [Declaration.name_resolve, Declaration.ofSource_name,
      Source.Unit.distinctFrom_class hnodup hdecl, ← hname, ← ih]
    apply Entry.nodup_objectFieldNames_layOut
    intro hbase
    rw [ih, hbase]
    exact Source.Unit.distinctFrom_root hnodup (by decide)

end Layouts

/-- A layout repeats no name unless one is declared twice directly below the base class: by the class
itself, or among the fields of objects by the ancestor that stands there. -/
theorem lower_fieldNames {unit : Source.Unit} {entryPoint : String} {program : Program}
    (hlower : lower unit entryPoint = .ok program) {decl : Source.Class}
    (hdecl : decl ∈ unit.classes) :
    ∃ entry, program.registry.byName decl.name = .ok (some entry) ∧
      (entry.fieldNames.Nodup ↔
        (decl.parentName = baseName → decl.fieldNames.Nodup) ∧
        ∀ top ∈ unit.classes, TransGen unit.Extends decl.name top.name →
          top.parentName = baseName → top.objectFieldNames.Nodup) := by
  obtain ⟨-, -, hnodup, -, -⟩ := exists_run_of_lower hlower
  obtain ⟨id, parent, above, habove, hname, hentry⟩ := exists_resolve_of_mem hlower hdecl
  refine ⟨_, by simpa using (sound_of_lower hlower).byName_eq hentry, ?_⟩
  have hdistinct := nodup_objectFieldNames_iff hlower habove
  simp only [Source.Unit.transGen_extends_iff hnodup hdecl]
  change _ ↔ _ ∧ unit.DistinctFrom decl.parentName
  rw [← hname, ← hdistinct]
  apply Entry.nodup_fieldNames_layOut
  intro hbase
  rw [hdistinct, hbase]
  exact Source.Unit.distinctFrom_root hnodup (by decide)

def Source.Unit.spots : Source.Unit :=
  ⟨none,
    [(Class.named "Spot").withField [] "int" "x" none |>.withField [] "int" "y" none,
     ((Class.named "Dot").extending "Spot").withField [] "int" "x" none
      |>.withField [] "int" "hue" none]⟩

/-- Points that declare a coordinate twice, and a kind of them. -/
def Source.Unit.points : Source.Unit :=
  ⟨none,
    [(Class.named "Point").withMember
      (.field ⟨["public"], ⟨"int", 0⟩, [⟨"x", none⟩, ⟨"y", none⟩, ⟨"x", none⟩]⟩),
     ((Class.named "Pixel").extending "Point").withField [] "int" "depth" none
      |>.withField [] "int" "depth" none]⟩

/-- Dots repeat no name because spots repeat none; pixels repeat one because points do. -/
theorem lower_fieldNames_spots :
    (∃ program spot dot, lower .spots "main" = .ok program ∧
      program.registry.byName "Spot" = .ok (some spot) ∧ spot.fieldNames.Nodup ∧
      program.registry.byName "Dot" = .ok (some dot) ∧ dot.fieldNames.Nodup) ∧
    ∃ program pixel, lower .points "main" = .ok program ∧
      program.registry.byName "Pixel" = .ok (some pixel) ∧ ¬ pixel.fieldNames.Nodup := by
  obtain ⟨spots, hspots⟩ : ∃ program, lower .spots "main" = .ok program := ⟨_, by cbv⟩
  obtain ⟨points, hpoints⟩ : ∃ program, lower .points "main" = .ok program := ⟨_, by cbv⟩
  have hspot : Source.Unit.spots.classes.get ⟨0, by decide⟩ ∈ Source.Unit.spots.classes :=
    List.get_mem ..
  have hdot : Source.Unit.spots.classes.get ⟨1, by decide⟩ ∈ Source.Unit.spots.classes :=
    List.get_mem ..
  have hpixel : Source.Unit.points.classes.get ⟨1, by decide⟩ ∈ Source.Unit.points.classes :=
    List.get_mem ..
  have hdistinct : ∀ top ∈ Source.Unit.spots.classes, top.parentName = baseName →
      top.objectFieldNames.Nodup := by decide
  have hrepeated : ∃ top ∈ Source.Unit.points.classes, top.name = "Point" ∧
      top.parentName = baseName ∧ ¬ top.objectFieldNames.Nodup := by decide
  constructor
  · obtain ⟨spot, hfound, hnames⟩ := lower_fieldNames hspots hspot
    obtain ⟨dot, hdotFound, hdotNames⟩ := lower_fieldNames hspots hdot
    refine ⟨spots, spot, dot, hspots, hfound, hnames.mpr ⟨fun _ => by decide, fun top htop _ => ?_⟩,
      hdotFound, hdotNames.mpr ⟨fun hbase => ?_, fun top htop _ => ?_⟩⟩
    · exact hdistinct top htop
    · exact absurd hbase (by decide)
    · exact hdistinct top htop
  · obtain ⟨pixel, hfound, hnames⟩ := lower_fieldNames hpoints hpixel
    obtain ⟨top, htop, hname, hbase, hrepeats⟩ := hrepeated
    refine ⟨points, pixel, hpoints, hfound, fun hnodup => hrepeats ?_⟩
    exact (hnames.mp hnodup).2 top htop (.single ⟨_, hpixel, rfl, hname.symm⟩) hbase

/-- A point has the coordinate twice, and so has a pixel, whose own field is there once. -/
theorem repeated_fieldNames_points :
    ∃ program point pixel, lower .points "main" = .ok program ∧
      program.registry.byName "Point" = .ok (some point) ∧ ¬ point.fieldNames.Nodup ∧
      program.registry.byName "Pixel" = .ok (some pixel) ∧
      pixel.fieldNames = ["x", "y", "x", "depth"] := by
  refine ⟨_, _, _, by cbv, rfl, ?_, rfl, ?_⟩
  · decide
  · rfl

end ClassLayout
