import ClassLayout.Log.Lowering
import ClassLayout.Proofs.Dispatch
import ClassLayout.Proofs.Identity
import Mathlib.Algebra.GroupWithZero.Nat
import Mathlib.Data.Finset.Card

/-!
# What the log tells about tables

One event for each class tells how its table came about: how many slots of the parent's table are
overridden, how many are forwarded, and how many are introduced. The numbers are counted while the
table is made, and so are the slots of all tables on the way. A slot that is not passed on would be
counted nowhere, nor would a class that the pass comes to before its parent. There is neither: in a
resolved registry all slots but the identity are methods that children take over, and every parent is
finished in time. So the numbers add up to the sizes of both tables, and to the size of all.
-/

namespace ClassLayout

def Table.methodSlots (table : Table) : List Slot := table.slots.filter (·.decl.kind == .method)

namespace Entry

/-- How many methods of the parent's table the class declares again. -/
def overriddenCount (above entry : Entry) : Nat :=
  above.table.methodSlots.countP fun slot => (entry.virtual? slot.name).isSome

/-- How many methods of the parent's table the class leaves alone. -/
def forwardedCount (above entry : Entry) : Nat :=
  above.table.methodSlots.countP fun slot => (entry.virtual? slot.name).isNone

/-- The names of virtual methods that have no slot in the parent's table. -/
def introducedNames (above entry : Entry) : Finset String :=
  ((entry.members.methods.filter fun method => !method.static && method.access != .priv).map
    Method.name).toFinset \ above.table.names.toFinset

end Entry

/-! ### One table -/

def Slot.fate (methods : List Method) (slot : Slot) : SlotFate :=
  if slot.decl.kind = .identity then .identity
  else if (Method.overriding? methods slot.name).isSome then .overridden
  else .forwarded

theorem Slot.map_fst_inherit? {slot : Slot} (hslot : slot.Heritable) (owner : String)
    (methods : List Method) : (inherit? owner methods slot).map (·.1) = some (slot.fate methods) := by
  obtain ⟨hstatic, haccess, -⟩ := hslot
  rw [inherit?, fate]
  by_cases hkind : slot.decl.kind = .identity
  · rw [if_pos hkind, if_pos hkind]
    rfl
  · rw [if_neg hkind, if_neg hkind, hstatic, if_neg (by simpa using haccess)]
    cases Method.overriding? methods slot.name <;> rfl

theorem Slot.fate_eq_overridden_iff {methods : List Method} {slot : Slot} :
    slot.fate methods = .overridden ↔
      (Method.overriding? methods slot.name).isSome = true ∧ slot.decl.kind = .method := by
  rw [fate]
  cases slot.decl.kind <;> cases Method.overriding? methods slot.name <;> simp

theorem Slot.fate_eq_forwarded_iff {methods : List Method} {slot : Slot} :
    slot.fate methods = .forwarded ↔
      (Method.overriding? methods slot.name).isNone = true ∧ slot.decl.kind = .method := by
  rw [fate]
  cases slot.decl.kind <;> cases Method.overriding? methods slot.name <;> simp

theorem Derivation.count_ofParent {parent : Table} (horderly : parent.Orderly) (owner : String)
    (methods : List Method) (fate : SlotFate) :
    (ofParent parent owner methods).count fate =
      parent.slots.countP fun slot => slot.fate methods == fate := by
  have hfates : (ofParent parent owner methods).inherited.map (·.1) =
      parent.slots.map (Slot.fate methods) := by
    rw [ofParent, List.map_filterMap]
    exact List.filterMap_eq_map_iff_forall_eq_some.mpr fun slot hslot =>
      Slot.map_fst_inherit? (horderly.heritable slot hslot) owner methods
  have hcount := congrArg (List.countP (· == fate)) hfates
  rwa [List.countP_map, List.countP_map] at hcount

namespace Entry

variable {above entry : Entry}

theorem count_derivation (horderly : above.table.Orderly) (meets : Option Method → Bool)
    {fate : SlotFate} (hfate : ∀ slot : Slot, slot.fate entry.members.methods = fate ↔
      meets (entry.virtual? slot.name) = true ∧ slot.decl.kind = .method) :
    (derivation above entry).count fate =
      above.table.methodSlots.countP fun slot => meets (entry.virtual? slot.name) := by
  rw [derivation, Derivation.count_ofParent horderly, Table.methodSlots, List.countP_filter]
  refine List.countP_congr fun slot _ => ?_
  simp only [beq_iff_eq, Bool.and_eq_true]
  exact hfate slot

theorem count_overridden (horderly : above.table.Orderly) (entry : Entry) :
    (derivation above entry).count .overridden = overriddenCount above entry :=
  count_derivation horderly Option.isSome fun _ => Slot.fate_eq_overridden_iff

theorem count_forwarded (horderly : above.table.Orderly) (entry : Entry) :
    (derivation above entry).count .forwarded = forwardedCount above entry :=
  count_derivation horderly Option.isNone fun _ => Slot.fate_eq_forwarded_iff

theorem length_introduced (horderly : above.table.Orderly) (entry : Entry) :
    (derivation above entry).introduced.length = (introducedNames above entry).card := by
  have hnodup := (Method.nodup_names_newSlots entry.name above.table.names entry.members.methods).1
  have hnames : ((Method.newSlots entry.name above.table.names entry.members.methods).map
      Slot.name).toFinset = introducedNames above entry := by
    ext name
    simp [Method.names_newSlots, introducedNames, Method.isVirtual, List.mem_eraseDups]
  rw [derivation, Derivation.introduced_ofParent horderly, ← hnames,
    List.toFinset_card_of_nodup hnodup, List.length_map]

theorem size_above (above entry : Entry) (hidentifies : above.table.Identifies above.name) :
    1 + overriddenCount above entry + forwardedCount above entry = above.table.size := by
  obtain ⟨rest, hslots, hmethods⟩ := hidentifies
  have hrest : above.table.methodSlots = rest := by
    rw [Table.methodSlots, hslots, List.filter_cons_of_neg (by simp [Slot.identity]),
      List.filter_eq_self]
    intro slot hslot
    rw [hmethods slot hslot]
    rfl
  have hsplit := rest.length_eq_countP_add_countP fun slot => (entry.virtual? slot.name).isSome
  have hnone : rest.countP (fun slot => decide ¬ (entry.virtual? slot.name).isSome = true) =
      rest.countP fun slot => (entry.virtual? slot.name).isNone :=
    List.countP_congr fun slot _ => by simp
  rw [overriddenCount, forwardedCount, hrest, Table.size, hslots, List.length_cons, hsplit, hnone]
  omega

end Entry

/-! ### Events of a stage -/

namespace Log

def Event.datum? (event : Event) (name : String) : Option Datum := event.fields.lookup name

def ofStage (name : String) (events : List Event) : List Event :=
  events.filter fun event => event.datum? "stage" == some (.quoted name)

def Within (stages : List String) (events : List Event) : Prop :=
  ∀ event ∈ events, ∃ name ∈ stages, event.datum? "stage" = some (.quoted name)

variable {name : String} {stages : List String} {events : List Event}

theorem ofStage_append (name : String) (one other : List Event) :
    ofStage name (one ++ other) = ofStage name one ++ ofStage name other :=
  List.filter_append ..

theorem ofStage_self (hwithin : Within [name] events) : ofStage name events = events := by
  refine List.filter_eq_self.mpr fun event hevent => ?_
  obtain ⟨found, hfound, hstage⟩ := hwithin event hevent
  rw [hstage, List.mem_singleton.mp hfound, beq_self_eq_true]

theorem Within.ofStage_eq_nil (hwithin : Within stages events) (hname : name ∉ stages) :
    ofStage name events = [] := by
  refine List.filter_eq_nil_iff.mpr fun event hevent hstage => ?_
  obtain ⟨found, hfound, heq⟩ := hwithin event hevent
  rw [heq, beq_iff_eq] at hstage
  exact hname (Datum.quoted.inj (Option.some.inj hstage) ▸ hfound)

theorem within_append {one other : List Event} :
    Within stages (one ++ other) ↔ Within stages one ∧ Within stages other :=
  List.forall_mem_append

theorem within_cons {event : Event} : Within stages (event :: events) ↔
    (∃ name ∈ stages, event.datum? "stage" = some (.quoted name)) ∧ Within stages events :=
  List.forall_mem_cons

theorem within_map {α : Type} {f : α → Event} (name : String) (hname : name ∈ stages)
    (hstage : ∀ x, (f x).datum? "stage" = some (.quoted name)) (l : List α) :
    Within stages (l.map f) :=
  List.forall_mem_map.mpr fun x _ => ⟨name, hname, hstage x⟩

theorem within_flatMap {α : Type} {f : α → List Event} (hevents : ∀ x, Within stages (f x))
    (l : List α) : Within stages (l.flatMap f) := by
  intro event hevent
  obtain ⟨x, -, hx⟩ := List.mem_flatMap.mp hevent
  exact hevents x event hx

theorem within_singleton {event : Event} (name : String) (hname : name ∈ stages)
    (hstage : event.datum? "stage" = some (.quoted name)) : Within stages [event] :=
  List.forall_mem_singleton.mpr ⟨name, hname, hstage⟩

/-- The stages that are not about tables. -/
def otherStages : List String :=
  ["lowering.collect", "lowering.collect.class", "lowering.linearize.append", "lowering.linearize",
    "lowering.fields.shadowed", "lowering.fields.class", "lowering.fields", "lowering.finalize"]

theorem within_declarationEvents (decl : Declaration) :
    Within otherStages (declarationEvents decl) := by
  refine within_append.mpr ⟨?_, within_singleton "lowering.collect.class" (by decide) rfl⟩
  split
  · exact within_singleton "lowering.collect" (by decide) rfl
  · exact List.forall_mem_nil _

theorem within_layoutEvents (parent child : Entry) :
    Within otherStages (layoutEvents parent child) := by
  rw [layoutEvents]
  split
  · refine within_append.mpr ⟨?_, ?_⟩
    · exact within_map "lowering.fields.shadowed" (by decide) (fun _ => rfl) _
    · exact within_singleton "lowering.fields.class" (by decide) rfl
  · exact List.forall_mem_nil _

theorem within_toldPass {name : String} (hname : name ∈ stages) (hclass : name ++ ".class" ∈ stages)
    {events : Entry → Entry → List Event}
    (hevents : ∀ parent child, Within stages (events parent child)) (counter : String)
    (change : Entry → Entry → Entry) (count : Entry → Entry → Nat) (registry : Registry) :
    Within stages (toldPass name counter change count events registry).2 := by
  refine within_append.mpr ⟨?_, within_singleton name hname rfl⟩
  refine Registry.pass_snd_induction (motive := fun account : Account => Within stages account.events)
    registry rootCount (List.forall_mem_nil _) fun account parent? child hwithin => ?_
  cases parent? with
  | some parent => exact within_append.mpr ⟨hwithin, hevents parent child⟩
  | none => exact within_append.mpr ⟨hwithin, within_singleton _ hclass rfl⟩

theorem within_fieldPass (registry : Registry) : Within otherStages (fieldPass registry).2 :=
  within_toldPass (by decide) (by decide) within_layoutEvents _ _ _ registry

theorem within_programEvents (program : Program) (entryPoint : String) :
    Within otherStages (programEvents program entryPoint) := by
  refine within_append.mpr ⟨?_, ?_⟩
  · exact within_map "lowering.finalize" (by decide) (fun _ => rfl) _
  · exact within_singleton "lowering.finalize" (by decide) rfl

def earlierEvents (unit : Source.Unit) (ordered : Linearized) : List Event :=
  (collectedClasses rootNames unit.classes).flatMap (declarationEvents ∘ Declaration.ofSource) ++
    collectedEvent ⟨unit.packageName, unit.classes.map Declaration.ofSource⟩ ::
      (addedEvents rootCount ordered.registry ++ linearizedEvent ordered ::
        (fieldPass ordered.registry).2)

theorem within_earlierEvents (unit : Source.Unit) (ordered : Linearized) :
    Within otherStages (earlierEvents unit ordered) := by
  refine within_append.mpr ⟨within_flatMap (fun _ => within_declarationEvents _) _, ?_⟩
  refine within_cons.mpr ⟨⟨"lowering.collect", by decide, rfl⟩, within_append.mpr ⟨?_, ?_⟩⟩
  · exact within_map "lowering.linearize.append" (by decide) (fun _ => rfl) _
  · exact within_cons.mpr ⟨⟨"lowering.linearize", by decide, rfl⟩, within_fieldPass _⟩

section Lowered

variable {unit : Source.Unit} {entryPoint : String} {program : Program} {ordered : Linearized}

theorem toldPass_fst (name counter : String) (change : Entry → Entry → Entry)
    (count : Entry → Entry → Nat) (events : Entry → Entry → List Event) (registry : Registry) :
    (toldPass name counter change count events registry).1 = registry.derive rootCount change :=
  Registry.pass_fst ..

theorem loweringEvents_eq (hlower : lower unit entryPoint = .ok program)
    (hordered : linearize .seeded (unit.classes.map Declaration.ofSource) = .ok ordered) :
    loweringEvents unit entryPoint = earlierEvents unit ordered ++
      (tablePass ordered.registry.layOutFields).2 ++ programEvents program entryPoint := by
  have hfree := (exists_lower_iff.mp ⟨program, hlower⟩).1
  obtain rfl := Except.ok.inj ((lower_eq_ok hfree hordered).symm.trans hlower)
  have hlaidOut : (fieldPass ordered.registry).1 = ordered.registry.layOutFields :=
    toldPass_fst ..
  have hresolved : (tablePass ordered.registry.layOutFields).1 =
      ordered.registry.layOutFields.buildTables := toldPass_fst ..
  rw [loweringEvents, Declarations.ofUnit_eq_ok hfree, earlierEvents]
  simp only [Source.Unit.work, hordered, hlaidOut, hresolved, List.append_assoc, List.cons_append]

theorem ofStage_loweringEvents (hlower : lower unit entryPoint = .ok program)
    (hordered : linearize .seeded (unit.classes.map Declaration.ofSource) = .ok ordered)
    (hname : name ∉ otherStages) :
    ofStage name (loweringEvents unit entryPoint) =
      ofStage name (tablePass ordered.registry.layOutFields).2 := by
  rw [loweringEvents_eq hlower hordered, ofStage_append, ofStage_append,
    (within_earlierEvents unit ordered).ofStage_eq_nil hname,
    (within_programEvents program entryPoint).ofStage_eq_nil hname, List.nil_append, List.append_nil]

end Lowered

/-! ### Events of classes -/

/-- What is told about the table of a class: the numbers of slots that are overridden, forwarded and
introduced, which make up the parent's table and the class's own. -/
structure Event.TellsTable (event : Event) (above entry : Entry) : Prop where
  owner : event.datum? "class" = some (.bare entry.name)
  parent : event.datum? "parent" = some (.bare above.name)
  slots : event.datum? "slots" = some (.count entry.table.size)
  overridden : event.datum? "overridden" = some (.count (Entry.overriddenCount above entry))
  forwarded : event.datum? "forwarded" = some (.count (Entry.forwardedCount above entry))
  introduced : event.datum? "introduced" = some (.count (Entry.introducedNames above entry).card)
  below : 1 + Entry.overriddenCount above entry + Entry.forwardedCount above entry =
    above.table.size
  whole : 1 + Entry.overriddenCount above entry + Entry.forwardedCount above entry +
    (Entry.introducedNames above entry).card = entry.table.size

theorem tellsTable_tableEvent {above : Entry} (horderly : above.table.Orderly)
    (hidentifies : above.table.Identifies above.name) (child : Entry) :
    (tableEvent above child).TellsTable above (Entry.buildTable above child) := by
  have hoverridden := Entry.count_overridden horderly child
  have hforwarded := Entry.count_forwarded horderly child
  have hintroduced := Entry.length_introduced horderly child
  have hbelow := Entry.size_above above child hidentifies
  refine ⟨rfl, rfl, rfl, ?_, ?_, ?_, hbelow, ?_⟩
  · exact congrArg (fun n => some (Datum.count n)) hoverridden
  · exact congrArg (fun n => some (Datum.count n)) hforwarded
  · exact congrArg (fun n => some (Datum.count n)) hintroduced
  · have hsize : (Entry.buildTable above child).table.size =
        above.table.size + (Entry.derivation above child).introduced.length := by
      rw [Entry.buildTable, Entry.derivation, Table.size, Derivation.slots_ofParent horderly,
        Derivation.introduced_ofParent horderly, List.length_append, List.length_map, Table.size]
    rw [hsize, hintroduced, ← hbelow]
    rfl

/-! ### The pass that makes the tables -/

theorem Account.foldl_add (name : String) (count : Entry → Entry → Nat)
    (events : Entry → Entry → List Event) (families : List (Entry × Entry)) (start : Account) :
    families.foldl (fun account pair => account.add name count events (some pair.1) pair.2) start =
      ⟨start.count + (families.map fun pair => count pair.1 pair.2).sum,
        start.events ++ families.flatMap fun pair => events pair.1 pair.2⟩ := by
  induction families generalizing start with
  | nil => simp
  | cons pair rest ih =>
      rw [List.foldl_cons, ih, List.map_cons, List.sum_cons, List.flatMap_cons, add]
      simp [Nat.add_assoc]

/-- A pass comes to no class without its finished parent, and what it counts is what it tells of. -/
theorem exists_toldPass_eq {unit : Source.Unit} {registry : Registry} (hsound : registry.Sound)
    (hrepresents : registry.Represents unit) (name counter : String)
    (change : Entry → Entry → Entry) (count : Entry → Entry → Nat)
    (events : Entry → Entry → List Event) :
    ∃ families : List (Entry × Entry),
      (toldPass name counter change count events registry).2 =
        (families.flatMap fun pair => events pair.1 pair.2) ++
          [countedEvent name counter registry (families.map fun pair => count pair.1 pair.2).sum] ∧
      List.Forall₂ (fun pair entry => entry = change pair.1 pair.2 ∧
          ∃ parent, pair.2.parent? = some parent ∧
            (registry.derive rootCount change).entries[parent]? = some pair.1)
        families ((registry.derive rootCount change).entries.drop rootCount) := by
  obtain ⟨families, htold, hfamilies⟩ := Registry.exists_pass_families change
    (Account.add (name ++ ".class") count events) {} hsound hrepresents.rootCount_le
    hrepresents.exists_parent
  refine ⟨families, ?_, hfamilies⟩
  simp only [toldPass, htold, Account.foldl_add, Nat.zero_add, List.nil_append]

theorem within_tableEvent (families : List (Entry × Entry)) : Within ["lowering.vtables.class"]
    (families.flatMap fun pair => [tableEvent pair.1 pair.2]) :=
  within_flatMap (fun _ => within_singleton "lowering.vtables.class" (by decide) rfl) families

/-- One event for each table that the pass leaves, and one for the number of their slots. -/
theorem ofStage_tablePass {unit : Source.Unit} {registry : Registry} (hsound : registry.Sound)
    (hrepresents : registry.Represents unit) :
    ∃ families : List (Entry × Entry),
      ofStage "lowering.vtables.class" (tablePass registry).2 =
        families.map (fun pair => tableEvent pair.1 pair.2) ∧
      ofStage "lowering.vtables" (tablePass registry).2 =
        [countedEvent "lowering.vtables" "slot_count" registry
          ((registry.buildTables.entries.drop rootCount).map (·.table.size)).sum] ∧
      List.Forall₂ (fun pair entry => entry = Entry.buildTable pair.1 pair.2 ∧
          ∃ parent, pair.2.parent? = some parent ∧
            registry.buildTables.entries[parent]? = some pair.1)
        families (registry.buildTables.entries.drop rootCount) := by
  obtain ⟨families, htold, hfamilies⟩ := exists_toldPass_eq hsound hrepresents "lowering.vtables"
    "slot_count" Entry.buildTable (fun parent child => (Entry.buildTable parent child).table.size)
    fun parent child => [tableEvent parent child]
  have hentries : registry.buildTables.entries.drop rootCount =
      families.map fun pair => Entry.buildTable pair.1 pair.2 := by
    rw [← List.forall₂_eq_eq_eq]
    exact List.forall₂_map_right_iff.mpr (hfamilies.flip.imp fun _ _ hpair => hpair.1)
  refine ⟨families, ?_, ?_, hfamilies⟩
  · rw [tablePass, htold, ofStage_append, ofStage_self (within_tableEvent families)]
    exact (List.append_nil _).trans List.map_eq_flatMap.symm
  · rw [tablePass, htold, ofStage_append, (within_tableEvent families).ofStage_eq_nil (by decide),
      hentries, List.map_map]
    rfl

end Log

open Log

/-- The log of an accepted unit tells about each class of the unit, in order, how its table came
about, and then the number of slots in all of them. -/
theorem lower_tableEvents {unit : Source.Unit} {entryPoint : String} {program : Program}
    (hlower : lower unit entryPoint = .ok program) :
    List.Forall₂ (fun event entry => ∃ parent above, entry.parent? = some parent ∧
        program.registry.entries[parent]? = some above ∧ event.TellsTable above entry)
      (ofStage "lowering.vtables.class" (loweringEvents unit entryPoint))
      (program.registry.entries.drop rootCount) ∧
    ∃ event, ofStage "lowering.vtables" (loweringEvents unit entryPoint) = [event] ∧
      event.datum? "slot_count" = some (.count
        ((program.registry.entries.drop rootCount).map (·.table.size)).sum) := by
  have hresolved := resolved_of_lower hlower
  obtain ⟨ordered, hordered, hsound, hrepresents, hregistry⟩ := exists_ordered_of_lower hlower
  rw [hregistry] at hresolved
  obtain ⟨families, hclasses, hpass, hfamilies⟩ :=
    ofStage_tablePass hsound.layOutFields (hrepresents.layOutFields hsound)
  rw [ofStage_loweringEvents hlower hordered (by decide),
    ofStage_loweringEvents hlower hordered (by decide), hclasses, hpass, hregistry]
  refine ⟨?_, _, rfl, rfl⟩
  refine List.forall₂_map_left_iff.mpr (hfamilies.imp ?_)
  rintro ⟨above, child⟩ entry ⟨rfl, parent, hparent, habove⟩
  exact ⟨parent, above, hparent, habove,
    tellsTable_tableEvent (hresolved.orderly habove) (hresolved.identifies habove) child⟩

/-- `Square` overrides one of the six methods of `Rect` and introduces one. -/
theorem lower_tableEvents_shapes :
    ∃ program, lower .shapes "main" = .ok program ∧ ∃ square rect event pass,
      program.registry.entries[5]? = some square ∧ program.registry.entries[4]? = some rect ∧
      (ofStage "lowering.vtables.class" (loweringEvents .shapes "main"))[2]? = some event ∧
      event.TellsTable rect square ∧ Entry.overriddenCount rect square = 1 ∧
      Entry.forwardedCount rect square = 5 ∧ Entry.introducedNames rect square = {"side"} ∧
      ofStage "lowering.vtables" (loweringEvents .shapes "main") = [pass] ∧
      pass.datum? "slot_count" = some (.count 22) := by
  obtain ⟨program, hlower, square, rect, hsquare, hparent, hrect, hoverridden, hforwarded,
      hintroduced, htotal⟩ :
      ∃ program, lower .shapes "main" = .ok program ∧ ∃ square rect : Entry,
        program.registry.entries[5]? = some square ∧ square.parent? = some 4 ∧
        program.registry.entries[4]? = some rect ∧ Entry.overriddenCount rect square = 1 ∧
        Entry.forwardedCount rect square = 5 ∧ Entry.introducedNames rect square = {"side"} ∧
        ((program.registry.entries.drop rootCount).map (·.table.size)).sum = 22 := by
    refine ⟨_, by cbv, _, _, rfl, ?_, rfl, ?_, ?_, ?_, ?_⟩
    all_goals rfl
  obtain ⟨hclasses, pass, hpass, hcount⟩ := lower_tableEvents hlower
  obtain ⟨hlength, hget⟩ := List.forall₂_iff_get.mp hclasses
  have hthird : (program.registry.entries.drop rootCount)[2]? = some square := by
    rw [List.getElem?_drop]
    exact hsquare
  obtain ⟨hin, rfl⟩ := List.getElem?_eq_some_iff.mp hthird
  obtain ⟨found, above, hfound, habove, htells⟩ := hget 2 (hlength ▸ hin) hin
  have hevent := List.getElem?_eq_getElem (hlength ▸ hin)
  obtain rfl := Option.some.inj (hparent.symm.trans hfound)
  obtain rfl := Option.some.inj (hrect.symm.trans habove)
  rw [htotal] at hcount
  exact ⟨program, hlower, _, rect, _, pass, hsquare, hrect, hevent, htells, hoverridden,
    hforwarded, hintroduced, hpass, hcount⟩

end ClassLayout
