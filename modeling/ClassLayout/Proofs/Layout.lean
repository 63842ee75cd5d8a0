import ClassLayout.Proofs.Resolved

/-!
# Field layouts along a hierarchy

An object can be used wherever an object of an ancestor is expected: its fields start with those of
the ancestor, in the ancestor's order. A layout is merged with the parent's alone, one level at a
time, and leaves out statics, hidden fields and names that are taken. None of that moves a field
that is handed down, so positions hold at any distance.
-/

namespace ClassLayout

namespace Field

/-- What a child keeps of a field that it inherits: all but the note of where it comes from. -/
def outline (field : Field) : String × TypeName × Access × String :=
  (field.name, field.type, field.access, field.initial)

@[simp] theorem outline_inheritedFrom (parent : String) (field : Field) :
    (field.inheritedFrom parent).outline = field.outline := rfl

@[simp] theorem isInheritable_inheritedFrom (parent : String) (field : Field) :
    (field.inheritedFrom parent).isInheritable = field.isInheritable := rfl

end Field

namespace Entry

def objectFields (entry : Entry) : List Field := entry.members.fields.filter Field.isInheritable

/-- The layout of an object as its descendants see it. -/
def objectLayout (entry : Entry) : List (String × TypeName × Access × String) :=
  entry.objectFields.map Field.outline

theorem filter_handedDown (parent : Entry) :
    parent.handedDown.filter Field.isInheritable = parent.handedDown := by
  rw [handedDown, List.filter_map, ← objectFields, List.filter_eq_self.mpr]
  intro field hfield
  exact (List.mem_filter.mp hfield).2

theorem map_outline_handedDown (parent : Entry) :
    parent.handedDown.map Field.outline = parent.objectLayout := by
  simp [handedDown, objectLayout, objectFields]

theorem objectLayout_layOut {parent : Entry} (hhands : parent.handsDown = true) (child : Entry) :
    (layOut parent child).objectLayout = parent.objectLayout ++
      ((siftedFields parent child).1.filter Field.isInheritable).map Field.outline := by
  rw [layOut, if_pos hhands, objectLayout, objectFields, List.filter_append, List.map_append,
    filter_handedDown, map_outline_handedDown]

end Entry

theorem Root.objectLayout_base : base.objectLayout = [] := by decide

namespace Registry.Resolved

variable {registry : Registry}

theorem eq_base_of_name (hresolved : registry.Resolved) {id : Nat} {entry : Entry}
    (hentry : registry.entries[id]? = some entry) (hname : entry.name = baseName) :
    entry = Root.base := by
  have hid := hresolved.sound.id_eq_of_name_eq hentry hresolved.base hname
  rw [hid, hresolved.base] at hentry
  exact (Option.some.inj hentry).symm

end Registry.Resolved

section Upcast

variable {unit : Source.Unit} {entryPoint : String} {program : Program}

theorem rootCount_le_of_parent (hlower : lower unit entryPoint = .ok program) {id parent : Nat}
    {entry above : Entry} (hentry : program.registry.entries[id]? = some entry)
    (hparent : entry.parent? = some parent)
    (habove : program.registry.entries[parent]? = some above) (hname : above.name ≠ baseName) :
    rootCount ≤ id := by
  have hresolved := resolved_of_lower hlower
  by_contra hroot
  have hid : 0 < id := Nat.zero_lt_of_lt (hresolved.sound.parent_lt hentry hparent)
  rw [(represents_of_lower hlower).getElem?_root (by omega)] at hentry
  rw [(Registry.seeded_child hid hentry).1] at hparent
  obtain rfl := Option.some.inj hparent
  rw [hresolved.base] at habove
  exact hname (Option.some.inj habove ▸ rfl)

theorem objectLayout_grows (hlower : lower unit entryPoint = .ok program)
    {id parent : Nat} {entry above : Entry}
    (hentry : program.registry.entries[id]? = some entry) (hparent : entry.parent? = some parent)
    (habove : program.registry.entries[parent]? = some above) :
    above.objectLayout <+: entry.objectLayout := by
  by_cases hname : above.name = baseName
  · -- A child of the base class takes over nothing, but then there is nothing to take over.
    rw [(resolved_of_lower hlower).eq_base_of_name habove hname, Root.objectLayout_base]
    exact List.nil_prefix
  · have hid := rootCount_le_of_parent hlower hentry hparent habove hname
    obtain ⟨decl, -, -, rfl⟩ := exists_resolve_of_parent hlower hid hentry hparent habove
    have hhands : above.handsDown = true := by simpa [Entry.handsDown] using hname
    change _ <+: (Entry.layOut above _).objectLayout
    rw [Entry.objectLayout_layOut hhands]
    exact List.prefix_append _ _

end Upcast

/-- An object starts with the fields of every ancestor of its class, so a field keeps its position
in all descendants. -/
theorem lower_upcast {unit : Source.Unit} {entryPoint : String} {program : Program}
    (hlower : lower unit entryPoint = .ok program) {id ancestor : Nat} {entry above : Entry}
    (hentry : program.registry.entries[id]? = some entry)
    (hextends : Relation.TransGen program.registry.Extends id ancestor)
    (habove : program.registry.entries[ancestor]? = some above) :
    above.objectLayout <+: entry.objectLayout ∧
    ∀ (position : Nat) (field : Field), above.objectFields[position]? = some field →
      ∃ inherited : Field, entry.objectFields[position]? = some inherited ∧
        inherited.outline = field.outline := by
  have hgrows : above.objectLayout <+: entry.objectLayout :=
    Registry.isPrefix_of_extends (f := Entry.objectLayout)
      (objectLayout_grows hlower) hextends hentry habove
  refine ⟨hgrows, fun position field hfield => ?_⟩
  have houtline : above.objectLayout[position]? = some field.outline := by
    rw [Entry.objectLayout, List.getElem?_map, hfield, Option.map_some]
  obtain ⟨hposition, hvalue⟩ := List.getElem?_eq_some_iff.mp houtline
  have hsame := List.prefix_iff_getElem?.mp hgrows position hposition
  rw [hvalue, Entry.objectLayout, List.getElem?_map] at hsame
  exact Option.map_eq_some_iff.mp hsame

def Source.Unit.labels : Source.Unit :=
  ⟨none,
    [((Class.named "Badge").extending "Label").withField ["private"] "long" "size" (some "2")
      |>.withField ["public"] "String" "note" none,
     ((Class.named "Label").extending "String").withField ["public", "static"] "int" "count" none
      |>.withField [] "int" "size" (some "1")
      |>.withField [] "int" "data" none]⟩

/-- A badge is a string first, then a label; its own `size` is left out. -/
theorem lower_upcast_labels :
    ∃ program, lower .labels "main" = .ok program ∧ ∃ badge text,
      program.registry.entries[4]? = some badge ∧ program.registry.entries[1]? = some text ∧
      text.objectLayout = [("data", "std::string", .pub, "")] ∧
      badge.objectLayout = [("data", "std::string", .pub, ""), ("size", "int32_t", .pack, "1"),
        ("note", "String", .pub, "")] ∧
      text.objectLayout <+: badge.objectLayout := by
  obtain ⟨program, hlower, badge, label, text, ⟨hbadge, hlabel⟩, ⟨hthree, htext⟩, hone, hfields⟩ :
      ∃ program, lower .labels "main" = .ok program ∧ ∃ badge label text : Entry,
        (program.registry.entries[4]? = some badge ∧ badge.parent? = some 3) ∧
        (program.registry.entries[3]? = some label ∧ label.parent? = some 1) ∧
        program.registry.entries[1]? = some text ∧
        text.objectLayout = [("data", "std::string", .pub, "")] ∧
        badge.objectLayout = [("data", "std::string", .pub, ""), ("size", "int32_t", .pack, "1"),
          ("note", "String", .pub, "")] := by
    refine ⟨_, by cbv, _, _, _, ⟨rfl, ?_⟩, ⟨rfl, ?_⟩, rfl, ?_, ?_⟩
    all_goals rfl
  have hextends : Relation.TransGen program.registry.Extends 4 1 :=
    .tail (.single ⟨badge, hbadge, hlabel⟩) ⟨label, hthree, htext⟩
  exact ⟨program, hlower, badge, text, hbadge, hone, hfields.1, hfields.2,
    (lower_upcast hlower hbadge hextends hone).1⟩

end ClassLayout
