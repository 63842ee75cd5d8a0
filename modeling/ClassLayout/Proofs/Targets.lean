import ClassLayout.Proofs.Dispatch
import ClassLayout.Proofs.Identity
import ClassLayout.Proofs.SlotBytes

/-!
# Expressions for addresses

The expression that a slot holds names a class and, after two colons, a member of the class. Names are
taken as they come, so an expression need not tell where the one ends and the other begins, and the
member that stands for the identity of a class may also be a method. In one table expressions coincide
in these two ways only: the class has a method named as the member that stands for its identity, or a
method that it leaves alone has a colon in its name, and what comes before reads as the end of the name
of a class (`Target.Swallows`).
-/

namespace ClassLayout

/-! ### Two expressions -/

private theorem Text.append_cases {left right rest others : String}
    (heq : left ++ rest = right ++ others) :
    (∃ more, right = left ++ more ∧ rest = more ++ others) ∨
      ∃ more, left = right ++ more ∧ others = more ++ rest := by
  have hchars := congrArg String.toList heq
  rw [String.toList_append, String.toList_append] at hchars
  rcases List.append_eq_append_iff.mp hchars with ⟨more, hstart, hrest⟩ | ⟨more, hstart, hrest⟩
  · exact .inl ⟨String.ofList more, by simp [← String.toList_inj, hstart, hrest]⟩
  · exact .inr ⟨String.ofList more, by simp [← String.toList_inj, hstart, hrest]⟩

namespace Target

variable {one other : Target} {more : String}

/-- What an expression has before the colons: the class, and before it the cast if there is one. -/
def stem : Target → String
  | own owner _ => "&__" ++ owner
  | forward signature definer _ => "(" ++ signature.pointerType ++ ") &__" ++ definer
  | identity owner => "&__" ++ owner

def member : Target → String
  | own _ method => method
  | forward _ _ method => method
  | identity _ => "__class"

theorem render_eq (target : Target) :
    target.render = "(" ++ (target.stem ++ "::" ++ target.member ++ ")") := by
  cases target <;> simp [render, stem, member, ← String.toList_inj]

/-- The member starts with what the other expression has at the end of its stem. -/
def Swallows (one other : Target) : Prop :=
  ∃ gap, one.member = gap ++ ":" ++ other.member ∧ other.stem ++ ":" = one.stem ++ "::" ++ gap

theorem Swallows.render_eq (hswallows : one.Swallows other) : one.render = other.render := by
  obtain ⟨gap, hmember, hstem⟩ := hswallows
  have hexpr : one.stem ++ "::" ++ one.member = other.stem ++ "::" ++ other.member :=
    calc one.stem ++ "::" ++ one.member
      _ = one.stem ++ "::" ++ gap ++ ":" ++ other.member := by
          rw [hmember]
          simp only [String.append_assoc]
      _ = other.stem ++ ":" ++ ":" ++ other.member := by rw [hstem]
      _ = other.stem ++ "::" ++ other.member := by simp [← String.toList_inj]
  rw [Target.render_eq, Target.render_eq, hexpr]

theorem Swallows.not_avoids (hswallows : one.Swallows other) : ¬ Avoids [':'] one.member := by
  obtain ⟨gap, hmember, -⟩ := hswallows
  intro havoids
  exact havoids ':' (by simp [hmember]) List.mem_cons_self

theorem swallows_of_stem_eq (hstem : other.stem ++ "::" = one.stem ++ "::" ++ more)
    (hmember : one.member = more ++ other.member) :
    one.stem = other.stem ∧ one.member = other.member ∨ one.Swallows other := by
  rcases List.eq_nil_or_concat more.toList with hnil | ⟨gap, last, hmore⟩
  · obtain rfl : more = "" := String.toList_inj.mp hnil
    rw [String.append_empty, String.append_left_inj] at hstem
    exact .inl ⟨hstem.symm, by rw [hmember, String.empty_append]⟩
  · -- The other's colons come later, so what stands between ends in a colon.
    have hchars : other.stem.toList ++ [':'] ++ [':'] =
        one.stem.toList ++ [':', ':'] ++ gap ++ [last] := by
      simpa [hmore] using congrArg String.toList hstem
    obtain ⟨hgap, hlast⟩ := List.append_inj' hchars rfl
    obtain rfl := List.singleton_inj.mp hlast
    obtain rfl : more = String.ofList gap ++ ":" := by
      simp [← String.toList_inj, hmore]
    refine .inr ⟨String.ofList gap, hmember, ?_⟩
    simpa [← String.toList_inj] using hgap

theorem render_eq_iff : one.render = other.render ↔
    one.stem = other.stem ∧ one.member = other.member ∨ one.Swallows other ∨ other.Swallows one := by
  constructor
  · intro heq
    rw [render_eq, render_eq, String.append_right_inj, String.append_left_inj] at heq
    rcases Text.append_cases heq with ⟨more, hstem, hmember⟩ | ⟨more, hstem, hmember⟩
    · exact (swallows_of_stem_eq hstem hmember).imp_right .inl
    · rcases swallows_of_stem_eq hstem hmember with ⟨hsame, hnames⟩ | hswallows
      · exact .inl ⟨hsame.symm, hnames.symm⟩
      · exact .inr (.inr hswallows)
  · rintro (⟨hstem, hmember⟩ | hswallows | hswallows)
    · rw [render_eq, render_eq, hstem, hmember]
    · exact hswallows.render_eq
    · exact hswallows.render_eq.symm

theorem render_own_eq_iff {owner method name : String} :
    (own owner method).render = (own owner name).render ↔ method = name := by
  rw [render, render, String.append_left_inj, String.append_right_inj]

theorem render_identity (owner : String) :
    (identity owner).render = (own owner "__class").render := by
  rw [render_eq, render_eq]
  rfl

theorem render_own_ne_forward (owner method : String) (signature : Signature)
    (definer name : String) :
    (own owner method).render ≠ (forward signature definer name).render := by
  intro heq
  -- A cast is told by its second character.
  rw [render_eq, render_eq, String.append_right_inj, ← String.toList_inj] at heq
  simp [stem] at heq

end Target

/-! ### Expressions of one table -/

namespace Registry.Resolved

variable {registry : Registry} {id parent : Nat} {entry : Entry} {one other slot : Slot}

theorem target_eq (hresolved : registry.Resolved) (hentry : registry.entries[id]? = some entry)
    (hparent : entry.parent? = some parent) (hslot : slot ∈ entry.table.slots)
    (hkind : slot.decl.kind = .method) :
    slot.binding.target = match entry.virtual? slot.name with
      | some _ => .own entry.name slot.name
      | none => .forward slot.decl.signature slot.definer slot.name := by
  obtain ⟨above, habove⟩ := hresolved.sound.exists_above hentry hparent
  have horderly := hresolved.orderly hentry
  have hname := (hresolved.identifies hentry).name_ne horderly hslot hkind
  have hfound := hresolved.slot?_eq hname hentry hparent habove
  rw [horderly.slot?_eq_some hslot] at hfound
  cases hown : entry.virtual? slot.name with
  | some method =>
      rw [hown] at hfound
      obtain rfl := Option.some.inj hfound
      rfl
  | none =>
      rw [hown, Option.map_none, Option.none_or] at hfound
      obtain ⟨before, -, rfl⟩ := Option.map_eq_some_iff.mp hfound.symm
      rfl

theorem render_identity_eq_iff (hresolved : registry.Resolved)
    (hentry : registry.entries[id]? = some entry) (hparent : entry.parent? = some parent)
    (hslot : slot ∈ entry.table.slots) (hkind : slot.decl.kind = .method) :
    (Target.identity entry.name).render = slot.binding.target.render ↔
      slot.name = "__class" ∧ (entry.virtual? "__class").isSome = true := by
  rw [hresolved.target_eq hentry hparent hslot hkind, Target.render_identity]
  cases hown : entry.virtual? slot.name with
  | some method =>
      rw [Target.render_own_eq_iff]
      constructor
      · intro hname
        rw [hname, hown]
        exact ⟨rfl, rfl⟩
      · rintro ⟨hname, -⟩
        exact hname.symm
  | none =>
      refine iff_of_false (Target.render_own_ne_forward _ _ _ _ _) ?_
      rintro ⟨hname, hdeclared⟩
      rw [← hname, hown] at hdeclared
      cases hdeclared

theorem render_method_eq_iff (hresolved : registry.Resolved)
    (hentry : registry.entries[id]? = some entry) (hparent : entry.parent? = some parent)
    (hone : one ∈ entry.table.slots) (hkind : one.decl.kind = .method)
    (hother : other ∈ entry.table.slots) (hsame : other.decl.kind = .method)
    (hne : one.name ≠ other.name) :
    one.binding.target.render = other.binding.target.render ↔
      entry.virtual? one.name = none ∧ entry.virtual? other.name = none ∧
      (one.binding.target.Swallows other.binding.target ∨
        other.binding.target.Swallows one.binding.target) := by
  rw [hresolved.target_eq hentry hparent hone hkind, hresolved.target_eq hentry hparent hother hsame]
  cases hown : entry.virtual? one.name with
  | some method =>
      refine iff_of_false ?_ (by simp)
      cases entry.virtual? other.name with
      | some method => exact fun heq => hne (Target.render_own_eq_iff.mp heq)
      | none => exact Target.render_own_ne_forward _ _ _ _ _
  | none =>
      cases hown' : entry.virtual? other.name with
      | some method =>
          refine iff_of_false ?_ (by simp)
          exact (Target.render_own_ne_forward _ _ _ _ _).symm
      | none =>
          rw [Target.render_eq_iff, or_iff_right (fun hboth => hne hboth.2)]
          simp only [true_and]

theorem render_eq_iff (hresolved : registry.Resolved)
    (hentry : registry.entries[id]? = some entry) (hparent : entry.parent? = some parent) {i j : Nat}
    (hone : entry.table.slots[i]? = some one) (hother : entry.table.slots[j]? = some other)
    (hlt : i < j) :
    one.binding.target.render = other.binding.target.render ↔
      i = 0 ∧ other.name = "__class" ∧ (entry.virtual? "__class").isSome = true ∨
      0 < i ∧ entry.virtual? one.name = none ∧ entry.virtual? other.name = none ∧
        (one.binding.target.Swallows other.binding.target ∨
          other.binding.target.Swallows one.binding.target) := by
  have hidentifies := hresolved.identifies hentry
  have hsame := hidentifies.kind_eq_method (Nat.zero_lt_of_lt hlt) hother
  have hmem := List.mem_of_getElem? hother
  rcases Nat.eq_zero_or_pos i with rfl | hpos
  · obtain rfl := Option.some.inj (hidentifies.getElem?_zero.symm.trans hone)
    refine (hresolved.render_identity_eq_iff hentry hparent hmem hsame).trans ?_
    simp
  · have hne : one.name ≠ other.name := by
      have hnames := List.nodup_iff_getElem?_ne_getElem?.mp (hresolved.orderly hentry).nodup i j hlt
      have hlength := (List.getElem?_eq_some_iff.mp hother).1
      simpa [Table.names, hone, hother] using hnames (by simpa [Table.names] using hlength)
    have hkind := hidentifies.kind_eq_method hpos hone
    rw [hresolved.render_method_eq_iff hentry hparent (List.mem_of_getElem? hone) hkind hmem hsame hne]
    simp [hpos, Nat.ne_of_gt hpos]

theorem nodup_renders (hresolved : registry.Resolved)
    (hentry : registry.entries[id]? = some entry) (hparent : entry.parent? = some parent)
    (hfree : entry.virtual? "__class" = none)
    (hnames : ∀ name ∈ entry.table.names, Avoids [':'] name) :
    (entry.table.slots.map (·.binding.target.render)).Nodup := by
  have hidentifies := hresolved.identifies hentry
  have hmember : ∀ {position : Nat} {slot : Slot}, 0 < position →
      entry.table.slots[position]? = some slot → Avoids [':'] slot.binding.target.member := by
    intro position slot hpos hslot
    have hmem := List.mem_of_getElem? hslot
    rw [hresolved.target_eq hentry hparent hmem (hidentifies.kind_eq_method hpos hslot)]
    have hname := hnames slot.name (List.mem_map_of_mem hmem)
    cases entry.virtual? slot.name <;> exact hname
  refine List.nodup_iff_getElem?_ne_getElem?.mpr fun i j hlt hlength heq => ?_
  rw [List.length_map] at hlength
  have hone := List.getElem?_eq_getElem (Nat.lt_trans hlt hlength)
  have hother := List.getElem?_eq_getElem hlength
  rw [List.getElem?_map, List.getElem?_map, hone, hother] at heq
  rcases (hresolved.render_eq_iff hentry hparent hone hother hlt).mp (Option.some.inj heq) with
    ⟨-, -, hdeclared⟩ | ⟨hpos, -, -, hswallows | hswallows⟩
  · rw [hfree] at hdeclared
    cases hdeclared
  · exact hswallows.not_avoids (hmember hpos hone)
  · exact hswallows.not_avoids (hmember (Nat.lt_trans hpos hlt) hother)

end Registry.Resolved

/-- Two slots of a class hold the same expression in two cases: one is the identity and the other a
method of the class itself with the name that stands for the identity, or both are methods that the
class does not declare and one name swallows the end of the other's stem. -/
theorem lower_targets {unit : Source.Unit} {entryPoint : String} {program : Program}
    (hlower : lower unit entryPoint = .ok program) {id : Nat} {entry : Entry}
    (hid : rootCount ≤ id) (hentry : program.registry.entries[id]? = some entry) :
    (∀ i j one other, entry.table.slots[i]? = some one → entry.table.slots[j]? = some other →
      i < j → (one.binding.target.render = other.binding.target.render ↔
        i = 0 ∧ other.name = "__class" ∧ (entry.virtual? "__class").isSome = true ∨
        0 < i ∧ entry.virtual? one.name = none ∧ entry.virtual? other.name = none ∧
          (one.binding.target.Swallows other.binding.target ∨
            other.binding.target.Swallows one.binding.target))) ∧
    (entry.virtual? "__class" = none → (∀ name ∈ entry.table.names, Avoids [':'] name) →
      (entry.table.slots.map (·.binding.target.render)).Nodup) := by
  have hresolved := resolved_of_lower hlower
  obtain ⟨parent, hparent⟩ := Option.ne_none_iff_exists'.mp (hresolved.parent_ne_none hid hentry)
  refine ⟨fun i j one other hone hother hlt => ?_, fun hfree hnames => ?_⟩
  · exact hresolved.render_eq_iff hentry hparent hone hother hlt
  · exact hresolved.nodup_renders hentry hparent hfree hnames

/-- A dish has a method named like the identity, and two methods that it leaves alone: `item::show` of
`Menu`, and `show` of `Menu::item`. -/
def Source.Unit.menus : Source.Unit :=
  ⟨none,
    [(Class.named "Menu").withMethod ["public"] none "item::show" [],
     ((Class.named "Menu::item").extending "Menu").withMethod ["public"] none "show" [],
     ((Class.named "Dish").extending "Menu::item").withMethod ["public"] none "__class" [],
     (Class.named "Cook").withMethod ["public"] none "serve" [("Dish", "dish")]]⟩

theorem lower_menus :
    ∃ program, lower .menus "main" = .ok program ∧
      ∃ (dish cook : Entry) (itself named inner shown : Slot),
        (program.registry.entries[5]? = some dish ∧ program.registry.entries[6]? = some cook) ∧
        (dish.table.slots[0]? = some itself ∧ dish.table.slots[7]? = some named ∧
          named.name = "__class" ∧ (dish.virtual? "__class").isSome = true) ∧
        (dish.table.slots[5]? = some inner ∧ dish.table.slots[6]? = some shown ∧
          dish.virtual? inner.name = none ∧ dish.virtual? shown.name = none ∧
          inner.binding.target.Swallows shown.binding.target) ∧
        cook.virtual? "__class" = none ∧ ∀ name ∈ cook.table.names, Avoids [':'] name := by
  refine ⟨_, by cbv, _, _, _, _, _, _, ⟨rfl, rfl⟩, ⟨rfl, rfl, ?_, ?_⟩, ⟨rfl, rfl, ?_, ?_, ?_⟩, ?_, ?_⟩
  · rfl
  · rfl
  · rfl
  · rfl
  · exact ⟨"item:", rfl, rfl⟩
  · rfl
  · decide

/-- In the table of a dish two expressions stand twice. -/
theorem shared_targets_menus :
    ∃ program, lower .menus "main" = .ok program ∧ ∃ dish,
      program.registry.entries[5]? = some dish ∧
      (dish.table.slots.map fun slot => (slot.name, slot.binding.target.render)) =
        [("__is_a", "(&__Dish::__class)"),
         ("hashCode", "((int32_t(*)(Dish)) &__Object::hashCode)"),
         ("equals", "((bool(*)(Dish, Object)) &__Object::equals)"),
         ("getClass", "((Class(*)(Dish)) &__Object::getClass)"),
         ("toString", "((String(*)(Dish)) &__Object::toString)"),
         ("item::show", "((void(*)(Dish)) &__Menu::item::show)"),
         ("show", "((void(*)(Dish)) &__Menu::item::show)"),
         ("__class", "(&__Dish::__class)")] ∧
      ¬ (dish.table.slots.map (·.binding.target.render)).Nodup := by
  refine ⟨_, by cbv, _, rfl, ?_, ?_⟩
  · rfl
  · decide

theorem lower_targets_menus :
    ∃ program, lower .menus "main" = .ok program ∧
      ∃ (dish cook : Entry) (itself named inner shown : Slot),
        program.registry.entries[5]? = some dish ∧ program.registry.entries[6]? = some cook ∧
        dish.table.slots[0]? = some itself ∧ dish.table.slots[7]? = some named ∧
        itself.binding.target.render = named.binding.target.render ∧
        dish.table.slots[5]? = some inner ∧ dish.table.slots[6]? = some shown ∧
        inner.binding.target.render = shown.binding.target.render ∧
        itself.binding.target.render ≠ shown.binding.target.render ∧
        (cook.table.slots.map (·.binding.target.render)).Nodup := by
  obtain ⟨program, hlower, dish, cook, itself, named, inner, shown, ⟨hdish, hcook⟩,
    ⟨hitself, hnamed, hname, hdeclared⟩, ⟨hinner, hshown, hleft, hright, hswallows⟩, hfree, hnames⟩ :=
    lower_menus
  obtain ⟨hdishes, -⟩ := lower_targets hlower (by decide) hdish
  obtain ⟨-, hcooks⟩ := lower_targets hlower (by decide) hcook
  refine ⟨program, hlower, dish, cook, itself, named, inner, shown, hdish, hcook, hitself, hnamed, ?_,
    hinner, hshown, ?_, ?_, hcooks hfree hnames⟩
  · exact (hdishes 0 7 itself named hitself hnamed (by decide)).mpr (.inl ⟨rfl, hname, hdeclared⟩)
  · exact (hdishes 5 6 inner shown hinner hshown (by decide)).mpr
      (.inr ⟨by decide, hleft, hright, .inl hswallows⟩)
  · intro heq
    rcases (hdishes 0 6 itself shown hitself hshown (by decide)).mp heq with ⟨-, hsame, -⟩ | ⟨hpos, -⟩
    · rw [hsame] at hright
      rw [hright] at hdeclared
      cases hdeclared
    · exact absurd hpos (by decide)

end ClassLayout
