import ClassLayout.Hierarchy.Dispatch
import Mathlib.Data.List.Basic
import Mathlib.Data.List.Find
import Mathlib.Data.List.Nodup

/-!
# A table made from the parent's

One level of a hierarchy. Slots that are neither static nor private are all passed on, under their
names and at their positions, and the slots of new names follow (`slots_ofParent`). Asked for a
name, the table answers with the class's own method, and with the parent's slot forwarded when the
class has none (`slot?_ofParent`).
-/

namespace ClassLayout

/-- A slot that every child takes over: it is neither static nor private, and if it is an identity
it is named so. -/
def Slot.Heritable (slot : Slot) : Prop :=
  slot.decl.static = false ∧ slot.decl.access ≠ .priv ∧
    (slot.decl.kind = .identity → slot.name = identityName)

instance (slot : Slot) : Decidable slot.Heritable := inferInstanceAs (Decidable (_ ∧ _ ∧ _))

/-- A table with slots that children take over, one for a name. -/
structure Table.Orderly (table : Table) : Prop where
  heritable : ∀ slot ∈ table.slots, slot.Heritable
  nodup : table.names.Nodup

namespace Table

variable {table : Table} {slot : Slot} {name : String}

theorem mem_names_iff : name ∈ table.names ↔ (table.slot? name).isSome = true := by
  rw [names, slot?, List.mem_map, List.find?_isSome]
  simp only [beq_iff_eq]

/-- The slot found for a name is the only one of that name. -/
theorem Orderly.filter_eq (horderly : table.Orderly) (hslot : table.slot? name = some slot) :
    table.slots.filter (·.name == name) = [slot] := by
  obtain ⟨hfound, before, after, hslots, hbefore⟩ := List.find?_eq_some_iff_append.mp hslot
  obtain rfl := beq_iff_eq.mp hfound
  have hnodup := horderly.nodup
  rw [names, hslots, List.map_append, List.map_cons, List.nodup_append, List.nodup_cons] at hnodup
  have hafter : after.filter (·.name == slot.name) = [] := by
    refine List.filter_eq_nil_iff.mpr fun other hother heq => ?_
    exact hnodup.2.1.1 (List.mem_map.mpr ⟨other, hother, beq_iff_eq.mp heq⟩)
  have hbefore : before.filter (·.name == slot.name) = [] :=
    List.filter_eq_nil_iff.mpr fun other hother => by simpa using hbefore other hother
  rw [hslots, List.filter_append, hbefore, List.nil_append, List.filter_cons, if_pos hfound, hafter]

theorem Orderly.slot?_eq_some (horderly : table.Orderly) (hslot : slot ∈ table.slots) :
    table.slot? slot.name = some slot := by
  have hname : slot.name ∈ table.names := List.mem_map_of_mem hslot
  obtain ⟨found, hfound⟩ := Option.isSome_iff_exists.mp (mem_names_iff.mp hname)
  have hsame : found.name = slot.name := by simpa using List.find?_some hfound
  rw [hfound, List.inj_on_of_nodup_map horderly.nodup (List.mem_of_find?_eq_some hfound) hslot hsame]

end Table

namespace Method

variable {methods : List Method} {method : Method} {name owner : String} {taken : List String}

theorem isVirtual_of_overriding? (hmethod : overriding? methods name = some method) :
    method.name = name ∧ method.isVirtual = true := by
  have hfound := List.find?_some hmethod
  rw [Bool.and_eq_true, beq_iff_eq] at hfound
  exact hfound

@[simp] theorem ownSlot_name (owner : String) (method : Method) :
    (method.ownSlot owner).name = method.name := rfl

theorem ownSlot_heritable (hvirtual : method.isVirtual = true) :
    (method.ownSlot owner).Heritable := by
  rw [isVirtual, Bool.and_eq_true, bne_iff_ne] at hvirtual
  exact ⟨rfl, hvirtual.2, by simp [ownSlot, Slot.own]⟩

/-! ### Slots of new names -/

theorem exists_of_mem_newSlots {slot : Slot} (hslot : slot ∈ newSlots owner taken methods) :
    ∃ method ∈ methods, method.isVirtual = true ∧ slot = method.ownSlot owner := by
  induction methods generalizing taken with
  | nil => cases hslot
  | cons method rest ih =>
      rw [newSlots] at hslot
      split at hslot
      · rename_i hnew
        rw [Bool.and_eq_true] at hnew
        rcases List.mem_cons.mp hslot with rfl | hrest
        · exact ⟨method, List.mem_cons_self, hnew.1, rfl⟩
        · obtain ⟨found, hfound, hslot⟩ := ih hrest
          exact ⟨found, List.mem_cons_of_mem _ hfound, hslot⟩
      · obtain ⟨found, hfound, hslot⟩ := ih hslot
        exact ⟨found, List.mem_cons_of_mem _ hfound, hslot⟩

theorem heritable_of_mem_newSlots {slot : Slot} (hslot : slot ∈ newSlots owner taken methods) :
    slot.Heritable := by
  obtain ⟨method, -, hvirtual, rfl⟩ := exists_of_mem_newSlots hslot
  exact ownSlot_heritable hvirtual

/-- The new names are those of virtual methods that are not taken, each where it comes up first. -/
theorem names_newSlots (owner : String) (taken : List String) (methods : List Method) :
    (newSlots owner taken methods).map Slot.name =
      (((methods.filter isVirtual).map Method.name).filter (!taken.contains ·)).eraseDups := by
  induction methods generalizing taken with
  | nil => rfl
  | cons method rest ih =>
      rw [newSlots]
      cases hvirtual : method.isVirtual with
      | false =>
          rw [List.filter_cons_of_neg (by rw [hvirtual]; decide)]
          exact ih taken
      | true =>
          rw [List.filter_cons_of_pos hvirtual, List.map_cons]
          cases htaken : taken.contains method.name with
          | true =>
              rw [List.filter_cons_of_neg (by rw [htaken]; decide)]
              exact ih taken
          | false =>
              rw [List.filter_cons_of_pos (by rw [htaken]; rfl), List.eraseDups_cons,
                List.filter_filter]
              refine congrArg (method.name :: ·) ((ih _).trans ?_)
              congr 2
              funext name
              rw [List.contains_cons, Bool.not_or]

theorem nodup_names_newSlots (owner : String) (taken : List String) (methods : List Method) :
    ((newSlots owner taken methods).map Slot.name).Nodup ∧
      ∀ name ∈ (newSlots owner taken methods).map Slot.name, name ∉ taken := by
  induction methods generalizing taken with
  | nil => exact ⟨List.nodup_nil, by simp [newSlots]⟩
  | cons method rest ih =>
      rw [newSlots]
      split
      · rename_i hnew
        obtain ⟨hnodup, hfree⟩ := ih (method.name :: taken)
        rw [List.map_cons, List.nodup_cons]
        refine ⟨⟨fun hmem => hfree _ hmem List.mem_cons_self, hnodup⟩, fun name hname htaken => ?_⟩
        rcases List.mem_cons.mp hname with rfl | hrest
        · rw [Bool.and_eq_true, Bool.not_eq_true', ← Bool.not_eq_true,
            List.contains_iff_mem] at hnew
          exact hnew.2 htaken
        · exact hfree name hrest (List.mem_cons_of_mem _ htaken)
      · exact ih taken

/-- A name that is not taken has the slot of the first virtual method so named. -/
theorem find?_newSlots (htaken : name ∉ taken) :
    (newSlots owner taken methods).find? (·.name == name) =
      (overriding? methods name).map (ownSlot owner) := by
  induction methods generalizing taken with
  | nil => rfl
  | cons method rest ih =>
      rw [newSlots, overriding?]
      by_cases hname : method.name = name
      · cases hvirtual : method.isVirtual with
        | false =>
            rw [List.find?_cons_of_neg (by rw [hvirtual, Bool.and_false]; decide)]
            exact ih htaken
        | true =>
            have hfree : taken.contains method.name = false := by
              rw [hname, ← Bool.not_eq_true, List.contains_iff_mem]
              exact htaken
            rw [List.find?_cons_of_pos (by rw [hvirtual, hname, beq_self_eq_true]; rfl), hfree,
              Bool.not_false, Bool.and_true, if_pos rfl]
            exact List.find?_cons_of_pos (beq_iff_eq.mpr hname)
      · rw [List.find?_cons_of_neg (by simp [hname])]
        split
        · rw [List.find?_cons_of_neg (by simpa using hname)]
          exact ih (List.not_mem_cons_of_ne_of_not_mem (Ne.symm hname) htaken)
        · exact ih htaken

end Method

/-! ### Slots of the parent's names -/

namespace Slot

variable {slot : Slot} {name owner : String} {methods : List Method}

def inherited (owner : String) (methods : List Method) (slot : Slot) : Slot :=
  if slot.decl.kind = .identity then .identity owner slot.decl.signature.result
  else match Method.overriding? methods slot.name with
  | some method => method.ownSlot owner
  | none => slot.forwarded owner

theorem inherit?_eq (hslot : slot.Heritable) (owner : String) (methods : List Method) :
    (inherit? owner methods slot).map (·.2) = some (slot.inherited owner methods) := by
  obtain ⟨hstatic, haccess, -⟩ := hslot
  rw [inherit?, inherited]
  by_cases hkind : slot.decl.kind = .identity
  · rw [if_pos hkind, if_pos hkind]
    rfl
  · rw [if_neg hkind, if_neg hkind, hstatic, if_neg (by simpa using haccess)]
    cases Method.overriding? methods slot.name <;> rfl

theorem inherited_name (hslot : slot.Heritable) (owner : String) (methods : List Method) :
    (slot.inherited owner methods).name = slot.name := by
  rw [inherited]
  split
  · rename_i hkind
    exact (hslot.2.2 hkind).symm
  · split
    · rename_i method hmethod
      exact (Method.isVirtual_of_overriding? hmethod).1
    · rfl

theorem inherited_heritable (hslot : slot.Heritable) (owner : String) (methods : List Method) :
    (slot.inherited owner methods).Heritable := by
  rw [inherited]
  split
  · exact ⟨rfl, by simp [identity], fun _ => rfl⟩
  · split
    · rename_i method hmethod
      exact Method.ownSlot_heritable (Method.isVirtual_of_overriding? hmethod).2
    · exact ⟨rfl, hslot.2.1, by simp [forwarded, forward]⟩

end Slot

/-! ### The whole table -/

namespace Derivation

variable {parent : Table} {owner name : String} {methods : List Method}

theorem map_snd_inherited (horderly : parent.Orderly) (owner : String) (methods : List Method) :
    (ofParent parent owner methods).inherited.map (·.2) =
      parent.slots.map (Slot.inherited owner methods) := by
  rw [ofParent, List.map_filterMap]
  exact List.filterMap_eq_map_iff_forall_eq_some.mpr fun slot hslot =>
    Slot.inherit?_eq (horderly.heritable slot hslot) owner methods

theorem names_inherited (horderly : parent.Orderly) (owner : String) (methods : List Method) :
    (ofParent parent owner methods).inherited.map (·.2.name) = parent.names := by
  have hslots := congrArg (List.map Slot.name) (map_snd_inherited horderly owner methods)
  rw [List.map_map, List.map_map] at hslots
  refine hslots.trans ?_
  exact List.map_congr_left fun slot hslot =>
    Slot.inherited_name (horderly.heritable slot hslot) owner methods

theorem introduced_ofParent (horderly : parent.Orderly) (owner : String) (methods : List Method) :
    (ofParent parent owner methods).introduced = Method.newSlots owner parent.names methods :=
  congrArg (Method.newSlots owner · methods) (names_inherited horderly owner methods)

theorem slots_ofParent (horderly : parent.Orderly) (owner : String) (methods : List Method) :
    (ofParent parent owner methods).table.slots =
      parent.slots.map (Slot.inherited owner methods) ++
        Method.newSlots owner parent.names methods := by
  rw [table, map_snd_inherited horderly, introduced_ofParent horderly]

theorem names_ofParent (horderly : parent.Orderly) (owner : String) (methods : List Method) :
    (ofParent parent owner methods).table.names =
      parent.names ++ (Method.newSlots owner parent.names methods).map Slot.name := by
  rw [Table.names, table, List.map_append, List.map_map, introduced_ofParent horderly,
    ← names_inherited horderly owner methods]
  rfl

theorem orderly_ofParent (horderly : parent.Orderly) (owner : String) (methods : List Method) :
    (ofParent parent owner methods).table.Orderly := by
  constructor
  · intro slot hslot
    rw [slots_ofParent horderly] at hslot
    rcases List.mem_append.mp hslot with hold | hnew
    · obtain ⟨before, hbefore, rfl⟩ := List.mem_map.mp hold
      exact Slot.inherited_heritable (horderly.heritable before hbefore) owner methods
    · exact Method.heritable_of_mem_newSlots hnew
  · obtain ⟨hnodup, hfree⟩ := Method.nodup_names_newSlots owner parent.names methods
    rw [names_ofParent horderly, List.nodup_append]
    refine ⟨horderly.nodup, hnodup, fun name hname other hother heq => ?_⟩
    exact hfree other hother (heq ▸ hname)

/-- The class's own method comes first, then the parent's slot as the class sees it. -/
theorem slot?_ofParent (horderly : parent.Orderly) (owner : String) (methods : List Method)
    (hname : name ≠ Slot.identityName) :
    (ofParent parent owner methods).table.slot? name =
      ((Method.overriding? methods name).map (Method.ownSlot owner)).or
        ((parent.slot? name).map (Slot.forwarded owner)) := by
  have hold : (parent.slots.map (Slot.inherited owner methods)).find? (·.name == name) =
      (parent.slot? name).map (Slot.inherited owner methods) := by
    rw [List.find?_map, Table.slot?]
    congr 1
    refine List.find?_congr fun slot hslot => ?_
    rw [Function.comp_apply, Slot.inherited_name (horderly.heritable slot hslot)]
  rw [Table.slot?, slots_ofParent horderly, List.find?_append, hold]
  cases hslot : parent.slot? name with
  | none =>
      have htaken : name ∉ parent.names := by
        rw [Table.mem_names_iff, hslot]
        decide
      rw [Method.find?_newSlots htaken, Option.map_none, Option.none_or, Option.map_none,
        Option.or_none]
  | some slot =>
      obtain rfl : slot.name = name := by simpa using List.find?_some hslot
      have hkind : slot.decl.kind ≠ .identity := fun hkind =>
        hname ((horderly.heritable slot (List.mem_of_find?_eq_some hslot)).2.2 hkind)
      rw [Option.map_some, Option.some_or, Slot.inherited, if_neg hkind, Option.map_some]
      cases Method.overriding? methods slot.name <;> rfl

end Derivation

end ClassLayout
