import ClassLayout.Proofs.Resolved

/-!
# The identity of a class

Every table starts with the slot that tells the class of an object. A class may declare methods of
the name that is kept for it, but none of them comes to a slot. The slot passes from parent to child
by its kind, so there is nothing to override, and the scan for new methods finds the name taken. Both
rest on one invariant: the identity comes first, and only methods come after it
(`Table.Identifies`).
-/

namespace ClassLayout

/-- The table starts with the identity of the class, and only methods come after it. -/
def Table.Identifies (table : Table) (owner : String) : Prop :=
  ∃ rest, table.slots = .identity owner metaName :: rest ∧ ∀ slot ∈ rest, slot.decl.kind = .method

namespace Table.Identifies

variable {table : Table} {owner : String} {slot : Slot}

theorem getElem?_zero (hidentifies : table.Identifies owner) :
    table.slots[0]? = some (.identity owner metaName) := by
  obtain ⟨rest, hslots, -⟩ := hidentifies
  rw [hslots, List.getElem?_cons_zero]

theorem kind_eq_method (hidentifies : table.Identifies owner) {position : Nat} (hpos : 0 < position)
    (hslot : table.slots[position]? = some slot) : slot.decl.kind = .method := by
  obtain ⟨rest, hslots, hmethods⟩ := hidentifies
  rw [hslots, List.getElem?_cons, if_neg (Nat.ne_of_gt hpos)] at hslot
  exact hmethods slot (List.mem_of_getElem? hslot)

theorem identityName_mem (hidentifies : table.Identifies owner) :
    Slot.identityName ∈ table.names := by
  obtain ⟨rest, hslots, -⟩ := hidentifies
  rw [names, hslots]
  exact List.mem_cons_self

theorem filter_eq (hidentifies : table.Identifies owner) :
    table.slots.filter (·.decl.kind == .identity) = [.identity owner metaName] := by
  obtain ⟨rest, hslots, hmethods⟩ := hidentifies
  have hrest : rest.filter (·.decl.kind == .identity) = [] := by
    apply List.filter_eq_nil_iff.mpr
    intro slot hslot
    simp [hmethods slot hslot]
  rw [hslots, List.filter_cons_of_pos (by rfl), hrest]

theorem name_ne (hidentifies : table.Identifies owner) (horderly : table.Orderly)
    (hslot : slot ∈ table.slots) (hkind : slot.decl.kind = .method) :
    slot.name ≠ Slot.identityName := by
  obtain ⟨rest, hslots, -⟩ := hidentifies
  have hnodup := horderly.nodup
  rw [names, hslots, List.map_cons, List.nodup_cons] at hnodup
  rw [hslots] at hslot
  rcases List.mem_cons.mp hslot with rfl | hrest
  · cases hkind
  · intro hname
    apply hnodup.1
    exact List.mem_map.mpr ⟨slot, hrest, hname⟩

end Table.Identifies

/-! ### One level -/

theorem Slot.kind_inherited {slot : Slot} (hkind : slot.decl.kind = .method) (owner : String)
    (methods : List Method) : (slot.inherited owner methods).decl.kind = .method := by
  rw [inherited, if_neg (by simp [hkind])]
  cases Method.overriding? methods slot.name <;> rfl

theorem Derivation.identifies_ofParent {parent : Table} {above : String} (horderly : parent.Orderly)
    (hparent : parent.Identifies above) (owner : String) (methods : List Method) :
    (ofParent parent owner methods).table.Identifies owner := by
  obtain ⟨rest, hslots, hmethods⟩ := hparent
  refine ⟨rest.map (Slot.inherited owner methods) ++ Method.newSlots owner parent.names methods,
    ?_, ?_⟩
  · rw [slots_ofParent horderly, hslots, List.map_cons, List.cons_append]
    rfl
  · intro slot hslot
    rcases List.mem_append.mp hslot with hold | hnew
    · obtain ⟨before, hbefore, rfl⟩ := List.mem_map.mp hold
      exact before.kind_inherited (hmethods before hbefore) owner methods
    · obtain ⟨method, -, -, rfl⟩ := Method.exists_of_mem_newSlots hnew
      rfl

/-! ### All levels -/

theorem Registry.Resolved.identifies {registry : Registry} (hresolved : registry.Resolved)
    {id : Nat} {entry : Entry} (hentry : registry.entries[id]? = some entry) :
    entry.table.Identifies entry.name := by
  refine hresolved.climb (motive := fun _ entry => entry.table.Identifies entry.name) ?_ ?_ hentry
  · exact ⟨_, rfl, by decide⟩
  · intro id entry parent above _ _ habove ih htable
    rw [htable]
    exact Derivation.identifies_ofParent (hresolved.orderly habove) ih _ _

/-- Every class, root or not, has one slot of the identity kind: the first one, which calls for
nothing and yields the class. No method has the slot's name. -/
theorem lower_identity {unit : Source.Unit} {entryPoint : String} {program : Program}
    (hlower : lower unit entryPoint = .ok program) {id : Nat} {entry : Entry}
    (hentry : program.registry.entries[id]? = some entry) :
    (∃ slot, entry.table.slots.filter (·.decl.kind == .identity) = [slot] ∧
      entry.table.slots[0]? = some slot ∧ slot.name = "__is_a" ∧
      slot.decl.signature.receiver? = none ∧ slot.decl.signature.params = [] ∧
      slot.decl.signature.result = "Class" ∧ slot.decl.origin? = some entry.name ∧
      slot.binding.target = .identity entry.name) ∧
    ∀ slot ∈ entry.table.slots, slot.decl.kind = .method → slot.name ≠ "__is_a" := by
  have hresolved := resolved_of_lower hlower
  have hidentifies := hresolved.identifies hentry
  refine ⟨⟨.identity entry.name metaName, hidentifies.filter_eq, hidentifies.getElem?_zero,
    rfl, rfl, rfl, rfl, rfl, rfl⟩, ?_⟩
  intro slot hslot hkind
  exact hidentifies.name_ne (hresolved.orderly hentry) hslot hkind

/-- Classes with methods of the name that is kept for the identity. -/
def Source.Unit.masks : Source.Unit :=
  ⟨none,
    [((Class.named "Rogue").extending "Mask").withMethod ["public"] none "__is_a" [("int", "face")],
     (Class.named "Mask").withMethod ["private", "public"] (some "Class") "__is_a" []
      |>.withMethod ["public", "static"] (some "Class") "__is_a" []]⟩

/-- A rogue's own method could be called through a table, but gets no slot. -/
theorem lower_identity_masks :
    ∃ program, lower .masks "main" = .ok program ∧ ∃ rogue slot,
      program.registry.entries[4]? = some rogue ∧ rogue.name = "Rogue" ∧
      (Method.overriding? rogue.members.methods "__is_a").isSome = true ∧
      rogue.table.slots.filter (·.decl.kind == .identity) = [slot] ∧
      rogue.table.slots[0]? = some slot ∧ slot.binding.target = .identity "Rogue" ∧
      ∀ slot ∈ rogue.table.slots, slot.decl.kind = .method → slot.name ≠ "__is_a" := by
  obtain ⟨program, hlower, rogue, hrogue, hname, hmethod⟩ :
      ∃ program, lower .masks "main" = .ok program ∧ ∃ rogue : Entry,
        program.registry.entries[4]? = some rogue ∧ rogue.name = "Rogue" ∧
        (Method.overriding? rogue.members.methods "__is_a").isSome = true := by
    refine ⟨_, by cbv, _, rfl, ?_, ?_⟩
    all_goals rfl
  obtain ⟨⟨slot, hfilter, hfirst, -, -, -, -, -, htarget⟩, hmethods⟩ := lower_identity hlower hrogue
  rw [hname] at htarget
  exact ⟨program, hlower, rogue, slot, hrogue, hname, hmethod, hfilter, hfirst, htarget, hmethods⟩

end ClassLayout
