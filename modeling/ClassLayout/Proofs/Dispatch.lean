import ClassLayout.Proofs.Resolved

/-!
# Dispatch through a hierarchy

Tables are built from the parent's table alone. All the same a table says what a walk up the chain
of parents would say: a name is bound to the first class on the chain that declares a virtual method
of that name. Positions never change from a class to its descendants, and a table grows only by the
names that a class introduces.
-/

namespace ClassLayout

def Entry.virtual? (entry : Entry) (name : String) : Option Method :=
  entry.members.methods.find? fun method =>
    method.name == name && (!method.static && method.access != .priv)

/-- The first class of a chain that declares a virtual method of the given name, with the method. -/
def nearest? (chain : List Entry) (name : String) : Option (Entry × Method) :=
  chain.findSome? fun entry => (entry.virtual? name).map (entry, ·)

/-- The slot through which objects of the class `owner` call a method of the class `definer`. -/
structure Slot.Calls (slot : Slot) (owner definer : Entry) (method : Method) : Prop where
  access : slot.decl.access = method.access
  static : slot.decl.static = false
  receiver : slot.decl.signature.receiver? = some owner.name
  params : slot.decl.signature.params = (method.params.drop 1).map (·.type)
  result : slot.decl.signature.result = method.result
  origin : slot.decl.origin? = some definer.name
  target : slot.binding.target =
    if definer = owner then .own owner.name method.name
    else .forward slot.decl.signature definer.name method.name
  binding : slot.binding.name = slot.decl.name ∧ slot.binding.access = slot.decl.access ∧
    slot.binding.static = slot.decl.static

/-- What a child needs to know of a slot to forward it to the class that defines the method. -/
structure Slot.Offers (slot : Slot) (definer : Entry) (method : Method) : Prop where
  name : slot.name = method.name
  access : slot.decl.access = method.access
  origin : slot.decl.origin?.getD baseName = definer.name
  signature : ∃ receiver, slot.decl.signature =
    .onReceiver receiver (method.explicit.map (·.type)) method.result

/-! ### Slots that offer a method -/

namespace Slot.Offers

variable {slot : Slot} {owner : String} {definer : Entry} {method : Method}

theorem ownSlot (definer : Entry) (method : Method) :
    (method.ownSlot definer.name).Offers definer method :=
  ⟨rfl, rfl, rfl, definer.name, rfl⟩

theorem forwarded_eq (hoffers : slot.Offers definer method) (owner : String) :
    slot.forwarded owner = .forward method.access definer.name method.name
      (.onReceiver owner (method.explicit.map (·.type)) method.result) := by
  obtain ⟨hname, haccess, horigin, receiver, hsignature⟩ := hoffers
  rw [Slot.forwarded, hname, haccess, horigin, hsignature]
  rfl

theorem forwarded (hoffers : slot.Offers definer method) (owner : String) :
    (slot.forwarded owner).Offers definer method := by
  rw [hoffers.forwarded_eq]
  exact ⟨rfl, rfl, rfl, owner, rfl⟩

end Slot.Offers

namespace Slot.Calls

variable {slot : Slot} {owner definer : Entry} {method : Method}

theorem ownSlot (owner : Entry) (method : Method) :
    (method.ownSlot owner.name).Calls owner owner method :=
  ⟨rfl, rfl, rfl, rfl, rfl, rfl, (if_pos rfl).symm, rfl, rfl, rfl⟩

theorem forwarded (hoffers : slot.Offers definer method) (hne : definer ≠ owner) :
    (slot.forwarded owner.name).Calls owner definer method := by
  rw [hoffers.forwarded_eq]
  exact ⟨rfl, rfl, rfl, rfl, rfl, rfl, (if_neg hne).symm, rfl, rfl, rfl⟩

theorem signature_eq (hcalls : slot.Calls owner definer method) : slot.decl.signature =
    ⟨some owner.name, (method.params.drop 1).map (·.type), method.result⟩ := by
  rw [← hcalls.receiver, ← hcalls.params, ← hcalls.result]

end Slot.Calls

/-! ### The nearest declaration -/

section Nearest

variable {entry : Entry} {method : Method} {chain : List Entry} {name : String}

theorem nearest?_cons_of_some (hown : entry.virtual? name = some method) :
    nearest? (entry :: chain) name = some (entry, method) := by
  rw [nearest?, List.findSome?_cons, hown, Option.map_some]

theorem nearest?_cons_of_none (hown : entry.virtual? name = none) :
    nearest? (entry :: chain) name = nearest? chain name := by
  rw [nearest?, List.findSome?_cons, hown, Option.map_none, nearest?]

theorem isSome_nearest?_iff : (nearest? chain name).isSome = true ↔
    ∃ definer ∈ chain, ∃ method ∈ definer.members.methods,
      method.name = name ∧ method.static = false ∧ method.access ≠ .priv := by
  simp only [nearest?, List.findSome?_isSome_iff, Option.isSome_map, Entry.virtual?,
    List.find?_isSome, Bool.and_eq_true, beq_iff_eq, Bool.not_eq_true', bne_iff_ne]

theorem mem_of_nearest? {definer : Entry}
    (hnearest : nearest? chain name = some (definer, method)) : definer ∈ chain := by
  obtain ⟨entry, hentry, hfound⟩ := List.exists_of_findSome?_eq_some hnearest
  obtain ⟨_, -, heq⟩ := Option.map_eq_some_iff.mp hfound
  obtain rfl := (Prod.mk.inj heq).1
  exact hentry

end Nearest

theorem Root.offers_base {name : String} (hname : name ≠ Slot.identityName) :
    Option.Rel (fun slot found => Slot.Offers slot found.1 found.2) (base.table.slot? name)
      (nearest? [base] name) := by
  have hslots : base.table.slots = .identity baseName metaName ::
      base.members.methods.map fun method =>
        plainSlot method.result method.name (method.explicit.map (·.type)) := rfl
  have hmethods : ∀ method ∈ base.members.methods,
      method.access = .pub ∧ (!method.static && method.access != .priv) = true := by decide
  have hidentity : ¬ ((Slot.identity baseName metaName).name == name) = true := by
    simpa [Slot.identity, Slot.name] using hname.symm
  have hfind : base.members.methods.find? ((fun slot : Slot => slot.name == name) ∘ fun method =>
      plainSlot method.result method.name (method.explicit.map (·.type))) = base.virtual? name := by
    refine List.find?_congr fun method hmethod => ?_
    rw [(hmethods method hmethod).2, Bool.and_true]
    rfl
  rw [Table.slot?, hslots,
    List.find?_cons_of_neg (p := fun slot : Slot => slot.name == name) hidentity, List.find?_map,
    hfind]
  cases hmethod : base.virtual? name with
  | none =>
      rw [nearest?_cons_of_none hmethod]
      exact .none
  | some method =>
      have hmem := List.mem_of_find?_eq_some hmethod
      rw [nearest?_cons_of_some hmethod]
      exact .some ⟨rfl, (hmethods method hmem).1.symm, rfl, baseName, rfl⟩

namespace Registry.Resolved

variable {registry : Registry} {id parent : Nat} {entry : Entry} {chain : List Entry}
  {name : String}

theorem slot?_eq (hresolved : registry.Resolved) {above : Entry} (hname : name ≠ Slot.identityName)
    (hentry : registry.entries[id]? = some entry) (hparent : entry.parent? = some parent)
    (habove : registry.entries[parent]? = some above) :
    entry.table.slot? name = ((entry.virtual? name).map (Method.ownSlot entry.name)).or
      ((above.table.slot? name).map (Slot.forwarded entry.name)) := by
  rw [hresolved.table hentry hparent habove]
  exact Derivation.slot?_ofParent (hresolved.orderly habove) _ _ hname

/-- A table has a slot for a name when the walk up the chain finds a method, and the slot offers
that method. -/
theorem offers (hresolved : registry.Resolved) (hname : name ≠ Slot.identityName)
    (hentry : registry.entries[id]? = some entry) (hchain : registry.Lineage id chain) :
    Option.Rel (fun slot found => Slot.Offers slot found.1 found.2) (entry.table.slot? name)
      (nearest? chain name) := by
  induction hchain generalizing entry with
  | top hself hparent =>
      obtain rfl := Option.some.inj (hself.symm.trans hentry)
      obtain rfl := hresolved.top hself hparent
      obtain rfl := Option.some.inj (hresolved.base.symm.trans hself)
      exact Root.offers_base hname
  | child hself hparent hchain ih =>
      obtain rfl := Option.some.inj (hself.symm.trans hentry)
      obtain ⟨above, habove⟩ := hresolved.sound.exists_above hentry hparent
      rw [hresolved.slot?_eq hname hentry hparent habove]
      cases hown : Entry.virtual? _ name with
      | some method =>
          rw [nearest?_cons_of_some hown]
          exact .some (.ownSlot _ method)
      | none =>
          -- The parent's slot answers for the rest of the chain, whoever defined the method.
          rw [nearest?_cons_of_none hown]
          have hoffers := ih habove
          generalize above.table.slot? name = slot, nearest? _ name = found at hoffers ⊢
          cases hoffers with
          | none => exact .none
          | some hoffers => exact .some (hoffers.forwarded _)

theorem mem_names_iff (hresolved : registry.Resolved) (hname : name ≠ Slot.identityName)
    (hentry : registry.entries[id]? = some entry) (hchain : registry.Lineage id chain) :
    name ∈ entry.table.names ↔ ∃ definer ∈ chain, ∃ method ∈ definer.members.methods,
      method.name = name ∧ method.static = false ∧ method.access ≠ .priv := by
  rw [Table.mem_names_iff, ← isSome_nearest?_iff]
  have hoffers := hresolved.offers hname hentry hchain
  generalize entry.table.slot? name = slot, nearest? chain name = found at hoffers ⊢
  cases hoffers <;> simp

theorem exists_calls (hresolved : registry.Resolved) (hname : name ≠ Slot.identityName)
    (hentry : registry.entries[id]? = some entry) (hparent : entry.parent? = some parent)
    (hchain : registry.Lineage parent chain) {definer : Entry} {method : Method}
    (hnearest : nearest? (entry :: chain) name = some (definer, method)) :
    ∃ slot, entry.table.slot? name = some slot ∧ slot.Calls entry definer method := by
  obtain ⟨above, habove⟩ := hresolved.sound.exists_above hentry hparent
  rw [hresolved.slot?_eq hname hentry hparent habove]
  cases hown : entry.virtual? name with
  | some own =>
      obtain ⟨rfl, rfl⟩ : entry = definer ∧ own = method := by
        rw [nearest?_cons_of_some hown] at hnearest
        exact Prod.mk.inj (Option.some.inj hnearest)
      exact ⟨_, rfl, .ownSlot entry own⟩
  | none =>
      rw [nearest?_cons_of_none hown] at hnearest
      -- Parents come first, so a class cannot turn up again further along its own chain.
      have hne : definer ≠ entry := by
        rintro rfl
        exact hchain.not_mem_above hresolved.sound hentry hparent (mem_of_nearest? hnearest)
      have hoffers := hresolved.offers hname habove hchain
      rw [hnearest] at hoffers
      generalize above.table.slot? name = slot at hoffers ⊢
      cases hoffers with
      | some hoffers => exact ⟨_, rfl, .forwarded hoffers hne⟩

end Registry.Resolved

/-- Calls on objects of a class reach the nearest declaration: a name has a slot exactly when some
class on the chain of parents has a virtual method of that name, and the one slot of the name calls
the first of them. -/
theorem lower_dispatch {unit : Source.Unit} {entryPoint : String} {program : Program}
    (hlower : lower unit entryPoint = .ok program) {id : Nat} {entry : Entry}
    (hid : rootCount ≤ id) (hentry : program.registry.entries[id]? = some entry) {name : String}
    (hname : name ≠ "__is_a") :
    (∃ chain, program.registry.Lineage id chain) ∧ ∀ chain, program.registry.Lineage id chain →
      chain.getLast? = some Root.base ∧
      ((∃ slot ∈ entry.table.slots, slot.decl.name = name) ↔
        ∃ definer ∈ chain, ∃ method ∈ definer.members.methods,
          method.name = name ∧ method.static = false ∧ method.access ≠ .priv) ∧
      ∀ definer method, nearest? chain name = some (definer, method) →
        ∃ slot, entry.table.slots.filter (·.decl.name == name) = [slot] ∧
          slot.Calls entry definer method := by
  have hresolved := resolved_of_lower hlower
  refine ⟨hresolved.sound.exists_lineage hentry, fun chain hchain => ⟨?_, ?_, ?_⟩⟩
  · exact hresolved.getLast?_lineage hchain
  · rw [← hresolved.mem_names_iff hname hentry hchain]
    exact List.mem_map.symm
  · intro definer method hnearest
    cases hchain with
    | top hself hparent => exact absurd hparent (hresolved.parent_ne_none hid hself)
    | child hself hparent hchain =>
        obtain rfl := Option.some.inj (hself.symm.trans hentry)
        obtain ⟨slot, hslot, hcalls⟩ := hresolved.exists_calls hname hentry hparent hchain hnearest
        exact ⟨slot, (hresolved.orderly hentry).filter_eq hslot, hcalls⟩

/-- The private method of `Square` is passed over, and a call of `area` ends in `Rect`; a call of
`resize` stays in `Square`. -/
theorem lower_dispatch_shapes :
    ∃ program, lower .shapes "main" = .ok program ∧ ∃ square rect inherited own,
      program.registry.entries[5]? = some square ∧ program.registry.entries[4]? = some rect ∧
      square.table.slots.filter (·.decl.name == "area") = [inherited] ∧
      inherited.Calls square rect (Root.method "Rect" "int32_t" "area" []) ∧
      inherited.binding.target = .forward ⟨some "Square", [], "int32_t"⟩ "Rect" "area" ∧
      square.table.slots.filter (·.decl.name == "resize") = [own] ∧
      own.Calls square square (Root.method "Square" "void" "resize" [("int32_t", "side")]) ∧
      own.decl.signature = ⟨some "Square", ["int32_t"], "void"⟩ ∧
      own.binding.target = .own "Square" "resize" := by
  obtain ⟨program, hlower, square, rect, shape, ⟨hsquare, hrect⟩, ⟨hfour, hshape⟩, ⟨hthree, hbase⟩,
    ⟨hname, htop⟩, hprivate, harea, hresize⟩ := lower_shapes
  have hchain : program.registry.Lineage 5 [square, rect, shape, Root.base] :=
    .child hsquare hrect (.child hfour hshape (.child hthree hbase
      (.top (resolved_of_lower hlower).base rfl)))
  have hne : rect ≠ square := by
    rintro rfl
    exact absurd (htop.symm.trans hname) (by decide)
  obtain ⟨-, hall⟩ := lower_dispatch hlower (by decide) hsquare (by decide : "area" ≠ "__is_a")
  obtain ⟨inherited, hinherited, hcalls⟩ := (hall _ hchain).2.2 _ _
    ((nearest?_cons_of_none hprivate).trans (nearest?_cons_of_some harea))
  obtain ⟨-, hall⟩ := lower_dispatch hlower (by decide) hsquare (by decide : "resize" ≠ "__is_a")
  obtain ⟨own, hown, hstays⟩ := (hall _ hchain).2.2 _ _ (nearest?_cons_of_some hresize)
  have hforward := hcalls.target
  have haddress := hstays.target
  have hsignature := hstays.signature_eq
  rw [if_neg hne, hcalls.signature_eq, hname, htop] at hforward
  rw [if_pos rfl, hname] at haddress
  rw [hname] at hsignature
  exact ⟨program, hlower, square, rect, inherited, own, hsquare, hfour, hinherited, hcalls, hforward,
    hown, hstays, hsignature, haddress⟩

/-! ### Positions -/

/-- The names that a class adds to its parent's table, in the order of their first declaration. -/
def Entry.newNames (above entry : Entry) : List String :=
  (((entry.members.methods.filter Method.isVirtual).map Method.name).filter
    (!above.table.names.contains ·)).eraseDups

namespace Registry.Resolved

variable {registry : Registry} {id parent : Nat} {entry above : Entry}

theorem names_eq (hresolved : registry.Resolved) (hentry : registry.entries[id]? = some entry)
    (hparent : entry.parent? = some parent) (habove : registry.entries[parent]? = some above) :
    entry.table.names = above.table.names ++ Entry.newNames above entry := by
  rw [hresolved.table hentry hparent habove, Entry.derivation,
    Derivation.names_ofParent (hresolved.orderly habove), Method.names_newSlots, Entry.newNames]

theorem names_grow (hresolved : registry.Resolved) {ancestor : Nat}
    (hextends : Relation.TransGen registry.Extends id ancestor)
    (hentry : registry.entries[id]? = some entry)
    (habove : registry.entries[ancestor]? = some above) :
    above.table.names <+: entry.table.names := by
  refine isPrefix_of_extends (f := fun entry => entry.table.names) ?_ hextends hentry habove
  intro child parent low high hlow hparent hhigh
  rw [hresolved.names_eq hlow hparent hhigh]
  exact List.prefix_append _ _

end Registry.Resolved

/-- A slot keeps its position in the tables of all descendants, no name has two slots, and a class
adds to its parent's table one slot for each new name. -/
theorem lower_positions {unit : Source.Unit} {entryPoint : String} {program : Program}
    (hlower : lower unit entryPoint = .ok program) {id : Nat} {entry : Entry}
    (hentry : program.registry.entries[id]? = some entry) :
    (∀ ancestor above, Relation.TransGen program.registry.Extends id ancestor →
      program.registry.entries[ancestor]? = some above →
      above.table.names <+: entry.table.names) ∧
    entry.table.names.Nodup ∧
    (rootCount ≤ id → ∃ parent above, entry.parent? = some parent ∧
      program.registry.entries[parent]? = some above ∧
      entry.table.names = above.table.names ++ Entry.newNames above entry ∧
      entry.table.size = above.table.size + (Entry.newNames above entry).length) := by
  have hresolved := resolved_of_lower hlower
  refine ⟨fun _ _ hextends habove => hresolved.names_grow hextends hentry habove,
    (hresolved.orderly hentry).nodup, fun hid => ?_⟩
  obtain ⟨parent, hparent⟩ := Option.ne_none_iff_exists'.mp (hresolved.parent_ne_none hid hentry)
  obtain ⟨above, habove⟩ := hresolved.sound.exists_above hentry hparent
  have hnames := hresolved.names_eq hentry hparent habove
  refine ⟨parent, above, hparent, habove, hnames, ?_⟩
  simpa [Table.names, Table.size] using congrArg List.length hnames

theorem lower_positions_shapes :
    ∃ program, lower .shapes "main" = .ok program ∧ ∃ square rect shape,
      program.registry.entries[5]? = some square ∧ program.registry.entries[4]? = some rect ∧
      program.registry.entries[3]? = some shape ∧
      shape.table.names <+: square.table.names ∧ square.table.names.Nodup ∧
      square.table.names = rect.table.names ++ Entry.newNames rect square ∧
      square.table.size = rect.table.size + (Entry.newNames rect square).length := by
  obtain ⟨program, hlower, square, rect, shape, ⟨hsquare, hrect⟩, ⟨hfour, hshape⟩,
    ⟨hthree, -⟩, -⟩ := lower_shapes
  have hextends : Relation.TransGen program.registry.Extends 5 3 :=
    .tail (.single ⟨square, hsquare, hrect⟩) ⟨rect, hfour, hshape⟩
  obtain ⟨hgrow, hnodup, hnew⟩ := lower_positions hlower hsquare
  obtain ⟨parent, above, hparent, habove, hnames, hsize⟩ := hnew (by decide)
  obtain rfl := Option.some.inj (hrect.symm.trans hparent)
  obtain rfl := Option.some.inj (hfour.symm.trans habove)
  exact ⟨program, hlower, square, rect, shape, hsquare, hfour, hthree,
    hgrow 3 shape hextends hthree, hnodup, hnames, hsize⟩

end ClassLayout
