import ClassLayout.Proofs.FieldNames

/-!
# Where the fields of a class come from

A field is marked with the class that declares it when a child first takes it over, and copied with
that mark from then on. So in the layout of every class the marked fields come first, and each is a
field that the marked ancestor declares for its objects. The others are the class's own: they are
as declared and in the order of declaration, and one is left out exactly when its name is taken by
then and the parent is not the base class (`lower_provenance`).
-/

namespace ClassLayout

open Relation

namespace Source

def Member.field? : Member → Option FieldDecl
  | .field decl => some decl
  | _ => none

def Class.fields (decl : Class) : List Field :=
  (decl.members.filterMap Member.field?).flatMap Declaration.fields

/-- The class or root of the given name has the field in its own declaration. -/
inductive Unit.Declares (unit : Unit) : String → Field → Prop
  | ofRoot {root : Entry} {field : Field} (hroot : root ∈ Registry.seeded.entries)
      (hfield : field ∈ root.members.fields) : unit.Declares root.name field
  | ofClass {decl : Class} {field : Field} (hdecl : decl ∈ unit.classes)
      (hfield : field ∈ decl.fields) : unit.Declares decl.name field

/-- The field is one that an ancestor of the named class declares for its objects, marked with that
ancestor. The base class is no such ancestor. -/
def Unit.Inherits (unit : Unit) (name : String) (field : Field) : Prop :=
  ∃ origin source, origin ≠ baseName ∧ TransGen unit.Extends name origin ∧
    unit.Declares origin source ∧ source.isInheritable = true ∧
    field = { source with origin? := some origin }

end Source

/-! ### Declared fields -/

namespace Declaration

theorem fields_ofSource (decl : Source.Class) : (ofSource decl).members.fields = decl.fields := by
  have hfold : ∀ (rest : List Source.Member) (done : Members),
      (rest.foldl (addMember decl.name) done).fields =
        done.fields ++ (rest.filterMap Source.Member.field?).flatMap fields := by
    intro rest
    induction rest with
    | nil => intro done; simp
    | cons member rest ih =>
        intro done
        rw [List.foldl_cons, ih]
        cases member <;> simp [addMember, Source.Member.field?, List.filterMap_cons]
  exact hfold decl.members {}

end Declaration

theorem Source.Class.origin?_of_mem_fields {decl : Class} {field : Field}
    (hfield : field ∈ decl.fields) : field.origin? = none := by
  obtain ⟨group, -, hgroup⟩ := List.mem_flatMap.mp hfield
  obtain ⟨declarator, -, rfl⟩ := List.mem_map.mp hgroup
  rfl

theorem Source.Unit.Declares.origin?_eq {unit : Unit} {name : String} {field : Field}
    (hdeclares : unit.Declares name field) : field.origin? = none := by
  cases hdeclares with
  | ofRoot hroot hfield =>
      have hplain : ∀ root ∈ Registry.seeded.entries, ∀ field ∈ root.members.fields,
          field.origin? = none := by decide
      exact hplain _ hroot _ hfield
  | ofClass _ hfield => exact Class.origin?_of_mem_fields hfield

/-! ### One level -/

namespace Field

theorem inheritedFrom_of_origin? {field : Field} {origin : String}
    (horigin : field.origin? = some origin) (parent : String) :
    field.inheritedFrom parent = field := by
  cases field
  simp_all [inheritedFrom]

/-- The field at a place has a name that is taken: one of `taken` or that of a field before it. -/
def Shadowed (taken : List String) (fields : List Field) (place : Nat) : Prop :=
  ∃ field, fields[place]? = some field ∧ field.name ∈ taken ++ (fields.take place).map Field.name

section Shadowed

variable {taken : List String} {first : Field} {rest : List Field} {place : Nat}

theorem shadowed_zero : Shadowed taken (first :: rest) 0 ↔ first.name ∈ taken := by
  simp [Shadowed]

theorem shadowed_succ :
    Shadowed taken (first :: rest) (place + 1) ↔ Shadowed (first.name :: taken) rest place := by
  simp only [Shadowed, List.getElem?_cons_succ, List.take_succ_cons, List.map_cons,
    List.mem_append, List.mem_cons, or_assoc, or_left_comm]

theorem shadowed_cons_taken (hfirst : first.name ∈ taken) :
    Shadowed (first.name :: taken) rest place ↔ Shadowed taken rest place := by
  have htaken : ∀ name, name = first.name ∨ name ∈ taken ↔ name ∈ taken := fun name =>
    or_iff_right_of_imp fun hname => hname ▸ hfirst
  simp only [Shadowed, List.mem_append, List.mem_cons, htaken]

end Shadowed

theorem exists_kept (taken : List String) (fields : List Field) :
    ∃ kept : List Nat, kept.Pairwise (· < ·) ∧
      (sift taken fields).1.map some = kept.map (fields[·]?) ∧
      ∀ place < fields.length, place ∈ kept ↔ ¬ Shadowed taken fields place := by
  induction fields generalizing taken with
  | nil => exact ⟨[], by simp [sift]⟩
  | cons first rest ih =>
      have hshift : ∀ {kept : List Nat}, kept.Pairwise (· < ·) →
          (kept.map (· + 1)).Pairwise (· < ·) := fun hkept =>
        List.pairwise_map.mpr (hkept.imp Nat.succ_lt_succ)
      rw [sift]
      split
      · rename_i htaken
        rw [List.contains_iff_mem] at htaken
        -- The name stays taken, so that it does not matter whether it is added to the others.
        obtain ⟨kept, hkept, hsift, hplaces⟩ := ih taken
        refine ⟨kept.map (· + 1), hshift hkept, by simpa [Function.comp_def] using hsift, ?_⟩
        intro place hplace
        cases place with
        | zero => simpa [shadowed_zero] using htaken
        | succ place =>
            rw [shadowed_succ, shadowed_cons_taken htaken,
              ← hplaces place (Nat.lt_of_succ_lt_succ hplace)]
            simp
      · rename_i hfree
        rw [List.contains_iff_mem] at hfree
        obtain ⟨kept, hkept, hsift, hplaces⟩ := ih (first.name :: taken)
        refine ⟨0 :: kept.map (· + 1), List.pairwise_cons.mpr ⟨by simp, hshift hkept⟩,
          by simpa [Function.comp_def] using hsift, ?_⟩
        intro place hplace
        cases place with
        | zero => simpa [shadowed_zero] using hfree
        | succ place =>
            rw [shadowed_succ, ← hplaces place (Nat.lt_of_succ_lt_succ hplace)]
            simp

end Field

namespace Entry

variable {unit : Source.Unit} {decl : Source.Class} {parent : Entry}

theorem inherits_of_mem_handedDown (hdecl : decl ∈ unit.classes)
    (hname : parent.name = decl.parentName) (hbase : parent.name ≠ baseName)
    (htraced : ∀ field ∈ parent.members.fields,
      unit.Declares parent.name field ∨ unit.Inherits parent.name field)
    {field : Field} (hfield : field ∈ parent.handedDown) : unit.Inherits decl.name field := by
  have hextends : unit.Extends decl.name parent.name := ⟨decl, hdecl, rfl, hname.symm⟩
  obtain ⟨above, habove, rfl⟩ := List.mem_map.mp hfield
  obtain ⟨habove, hinheritable⟩ := List.mem_filter.mp habove
  rcases htraced above habove with
    hdeclares | ⟨origin, source, hne, hreach, hdeclares, hobject, rfl⟩
  · refine ⟨parent.name, above, hbase, .single hextends, hdeclares, hinheritable, ?_⟩
    rw [Field.inheritedFrom, hdeclares.origin?_eq, Option.getD_none]
  · exact ⟨origin, source, hne, .head hextends hreach, hdeclares, hobject,
      Field.inheritedFrom_of_origin? rfl _⟩

end Entry

private theorem mem_of_map_some_eq {α : Type} {whole part : List α} {places : List Nat}
    (hpart : part.map some = places.map (whole[·]?)) {item : α} (hitem : item ∈ part) :
    item ∈ whole := by
  have hsome : some item ∈ places.map (whole[·]?) := hpart ▸ List.mem_map_of_mem hitem
  obtain ⟨place, -, hplace⟩ := List.mem_map.mp hsome
  exact List.mem_of_getElem? hplace

theorem Declaration.exists_fields_resolve (decl : Source.Class) (above : Entry) (parent : Nat) :
    ∃ (inherited own : List Field) (kept : List Nat),
      ((ofSource decl).resolve above parent).members.fields = inherited ++ own ∧
      (∀ field ∈ inherited, above.name ≠ baseName ∧ field ∈ above.handedDown) ∧
      kept.Pairwise (· < ·) ∧ own.map some = kept.map (decl.fields[·]?) ∧
      ∀ place < decl.fields.length, place ∉ kept ↔
        above.name ≠ baseName ∧ Field.Shadowed (inherited.map Field.name) decl.fields place := by
  have hfields : ((ofSource decl).resolve above parent).members.fields =
      (Entry.layOut above ((ofSource decl).toEntry parent)).members.fields := rfl
  have hown : ((ofSource decl).toEntry parent).members.fields = decl.fields := fields_ofSource decl
  by_cases hbase : above.name = baseName
  · rw [Entry.layOut_of_base hbase, hown] at hfields
    refine ⟨[], decl.fields, List.range decl.fields.length, hfields, by simp,
      List.pairwise_lt_range, ?_, by simp [hbase]⟩
    exact List.ext_getElem (by simp) (by simp)
  · obtain ⟨kept, hkept, hsift, hplaces⟩ :=
      Field.exists_kept (above.handedDown.map Field.name) decl.fields
    have hhands : above.handsDown = true := by simp [Entry.handsDown, hbase]
    rw [Entry.layOut, if_pos hhands, Entry.siftedFields, hown] at hfields
    refine ⟨above.handedDown, _, kept, hfields, fun field hfield => ⟨hbase, hfield⟩, hkept,
      hsift, ?_⟩
    intro place hplace
    rw [hplaces place hplace, not_not, and_iff_right hbase]

/-! ### Along the chain of parents -/

section Traced

variable {unit : Source.Unit} {entryPoint : String} {program : Program}

theorem declares_or_inherits_of_lower (hlower : lower unit entryPoint = .ok program) {id : Nat}
    {entry : Entry} (hentry : program.registry.entries[id]? = some entry) :
    ∀ field ∈ entry.members.fields,
      unit.Declares entry.name field ∨ unit.Inherits entry.name field := by
  refine climb_of_lower hlower (motive := fun entry => ∀ field ∈ entry.members.fields,
    unit.Declares entry.name field ∨ unit.Inherits entry.name field) ?_ ?_ hentry
  · intro root hroot field hfield
    exact .inl (.ofRoot hroot hfield)
  · intro decl hdecl parent above _ hname ih field hfield
    obtain ⟨inherited, own, kept, hfields, hinherited, -, hown, -⟩ :=
      Declaration.exists_fields_resolve decl above parent
    rw [hfields, List.mem_append] at hfield
    rw [Declaration.name_resolve, Declaration.ofSource_name]
    rcases hfield with hfield | hfield
    · obtain ⟨hbase, hhanded⟩ := hinherited field hfield
      exact .inr (Entry.inherits_of_mem_handedDown hdecl hname hbase ih hhanded)
    · exact .inl (.ofClass hdecl (mem_of_map_some_eq hown hfield))

end Traced

/-- The layout of a class has the fields that ancestors declare, each marked with the one that does,
and then its own, unmarked and in the order of declaration. A field of its own is left out exactly
when the parent is not the base class and the name is that of an inherited field or of a field that
the class declares before. -/
theorem lower_provenance {unit : Source.Unit} {entryPoint : String} {program : Program}
    (hlower : lower unit entryPoint = .ok program) {decl : Source.Class}
    (hdecl : decl ∈ unit.classes) :
    ∃ (entry : Entry) (inherited own : List Field),
      program.registry.byName decl.name = .ok (some entry) ∧
      entry.members.fields = inherited ++ own ∧
      (∀ field ∈ inherited, unit.Inherits decl.name field) ∧
      (∀ field ∈ own, field.origin? = none) ∧
      ∃ kept : List Nat, kept.Pairwise (· < ·) ∧ own.map some = kept.map (decl.fields[·]?) ∧
        ∀ place < decl.fields.length, place ∉ kept ↔ decl.parentName ≠ baseName ∧
          Field.Shadowed (inherited.map Field.name) decl.fields place := by
  obtain ⟨id, parent, above, habove, hname, hentry⟩ := exists_resolve_of_mem hlower hdecl
  obtain ⟨inherited, own, kept, hfields, hinherited, hkept, hown, hplaces⟩ :=
    Declaration.exists_fields_resolve decl above parent
  refine ⟨_, inherited, own, by simpa using (sound_of_lower hlower).byName_eq hentry, hfields,
    ?_, ?_, kept, hkept, hown, ?_⟩
  · intro field hfield
    obtain ⟨hbase, hhanded⟩ := hinherited field hfield
    exact Entry.inherits_of_mem_handedDown hdecl hname hbase
      (declares_or_inherits_of_lower hlower habove) hhanded
  · intro field hfield
    exact Source.Class.origin?_of_mem_fields (mem_of_map_some_eq hown hfield)
  · intro place hplace
    rw [hplaces place hplace, hname]

/-- A badge has the text of a string, the size of a label and its own note; its own size is left
out. -/
theorem lower_provenance_labels :
    ∃ program badge, lower .labels "main" = .ok program ∧
      program.registry.byName "Badge" = .ok (some badge) ∧
      badge.members.fields.map (fun field => (field.name, field.origin?)) =
        [("data", some "String"), ("size", some "Label"), ("note", none)] ∧
      ∃ inherited own, badge.members.fields = inherited ++ own ∧
        (∀ field ∈ inherited, Source.Unit.labels.Inherits "Badge" field) ∧
        ∀ field ∈ own, field.origin? = none := by
  obtain ⟨program, badge, hlower, hbadge, hmarks⟩ :
      ∃ program badge, lower .labels "main" = .ok program ∧
        program.registry.byName "Badge" = .ok (some badge) ∧
        badge.members.fields.map (fun field => (field.name, field.origin?)) =
          [("data", some "String"), ("size", some "Label"), ("note", none)] :=
    ⟨_, _, by cbv, rfl, rfl⟩
  have hdecl : Source.Unit.labels.classes.get ⟨0, by decide⟩ ∈ Source.Unit.labels.classes :=
    List.get_mem ..
  obtain ⟨entry, inherited, own, hentry, hfields, hinherited, hown, -⟩ :=
    lower_provenance hlower hdecl
  obtain rfl : badge = entry := Option.some.inj (Except.ok.inj (hbadge.symm.trans hentry))
  exact ⟨program, badge, hlower, hbadge, hmarks, inherited, own, hfields, hinherited, hown⟩

end ClassLayout
