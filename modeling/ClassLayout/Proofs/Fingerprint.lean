import ClassLayout.Proofs.Identity
import ClassLayout.Proofs.Layout
import ClassLayout.Proofs.Locality
import ClassLayout.Proofs.SlotBytes

/-!
# What a fingerprint tells apart

A fingerprint is taken of the bytes of a table: the name of the class and a run of slots. In units
without unlucky names (`Source.Unit.Legible`) two tables of a class have the same bytes only if their
slots agree in all that the fingerprint is meant to protect. In other units they need not: a
parameter whose type has a comma in its name passes for two.
-/

namespace ClassLayout

/-! ### Tables -/

namespace Table

variable {one other : List Slot} {owner : String}

def runBytes (start : Nat) (slots : List Slot) : List UInt8 :=
  (slots.zipIdx start).flatMap fun entry => entry.1.bytes entry.2

theorem runBytes_cons (start : Nat) (slot : Slot) (rest : List Slot) :
    runBytes start (slot :: rest) = slot.bytes start ++ runBytes (start + 1) rest := rfl

theorem runBytes_congr (hfaces : one.map Slot.face = other.map Slot.face) (start : Nat) :
    runBytes start one = runBytes start other := by
  induction one generalizing other start with
  | nil =>
      cases other with
      | nil => rfl
      | cons => cases hfaces
  | cons first rest ih =>
      cases other with
      | nil => cases hfaces
      | cons second others =>
          obtain ⟨hface, hrest⟩ := List.cons.inj hfaces
          rw [runBytes_cons, runBytes_cons, Slot.bytes_congr hface, ih hrest]

theorem runBytes_inj (hone : ∀ slot ∈ one, slot.decl.kind = .method ∧ slot.Legible owner)
    (hother : ∀ slot ∈ other, slot.decl.kind = .method ∧ slot.Legible owner) {start : Nat}
    (heq : runBytes start one = runBytes start other) :
    one.map Slot.face = other.map Slot.face := by
  induction one generalizing other start with
  | nil =>
      cases other with
      | nil => rfl
      | cons second others =>
          rw [runBytes_cons] at heq
          exact absurd (List.append_eq_nil_iff.mp heq.symm).1 (second.bytes_ne_nil start)
  | cons first rest ih =>
      cases other with
      | nil =>
          rw [runBytes_cons] at heq
          exact absurd (List.append_eq_nil_iff.mp heq).1 (first.bytes_ne_nil start)
      | cons second others =>
          rw [List.forall_mem_cons] at hone hother
          obtain ⟨hface, hrest⟩ := hone.1.2.bytes_inj hother.1.2 hone.1.1 hother.1.1 heq
          rw [List.map_cons, List.map_cons, hface, ih hone.2 hother.2 hrest]

def Legible (table : Table) (owner : String) : Prop :=
  ∀ slot ∈ table.slots, slot.decl.kind = .method → slot.Legible owner

instance (table : Table) (owner : String) : Decidable (table.Legible owner) :=
  inferInstanceAs (Decidable (∀ slot ∈ table.slots, slot.decl.kind = .method → slot.Legible owner))

theorem Legible.exists_rest {table : Table} (hlegible : table.Legible owner)
    (hidentifies : table.Identifies owner) :
    ∃ rest, table.slots = .identity owner metaName :: rest ∧
      ∀ slot ∈ rest, slot.decl.kind = .method ∧ slot.Legible owner := by
  obtain ⟨rest, hslots, hmethods⟩ := hidentifies
  refine ⟨rest, hslots, fun slot hslot => ⟨hmethods slot hslot, ?_⟩⟩
  exact hlegible slot (hslots ▸ List.mem_cons_of_mem _ hslot) (hmethods slot hslot)

theorem bytes_eq (table : Table) (owner : String) :
    table.bytes owner = utf8 owner ++ runBytes 0 table.slots := rfl

theorem bytes_eq_iff {one other : Table} (hone : one.Legible owner) (hother : other.Legible owner)
    (hidentifies : one.Identifies owner) (hsame : other.Identifies owner) :
    one.bytes owner = other.bytes owner ↔ one.slots.map Slot.face = other.slots.map Slot.face := by
  rw [bytes_eq, bytes_eq]
  constructor
  · intro heq
    obtain ⟨rest, hslots, hrest⟩ := hone.exists_rest hidentifies
    obtain ⟨others, hslots', hothers⟩ := hother.exists_rest hsame
    rw [hslots, hslots', runBytes_cons, runBytes_cons] at heq
    have hrun := List.append_cancel_left (List.append_cancel_left heq)
    rw [hslots, hslots', List.map_cons, List.map_cons, runBytes_inj hrest hothers hrun]
  · intro hfaces
    rw [runBytes_congr hfaces]

end Table

/-! ### Tables of legible units -/

/-- A method with no name that contains what ends it. -/
def Method.Legible (method : Method) : Prop :=
  Avoids ['\x02'] method.name ∧ Avoids ['('] method.result ∧
    ∀ param ∈ method.explicit, Avoids [',', ')'] param.type

instance (method : Method) : Decidable method.Legible := inferInstanceAs (Decidable (_ ∧ _ ∧ _))

/-- A class whose name contains no colon and whose virtual methods are legible. -/
def Source.Class.Legible (decl : Class) : Prop :=
  Avoids [':'] decl.name ∧
    ∀ method ∈ Declaration.methods decl.name decl.members, method.isVirtual = true → method.Legible

instance (decl : Source.Class) : Decidable decl.Legible := inferInstanceAs (Decidable (_ ∧ _))

def Source.Unit.Legible (unit : Unit) : Prop := ∀ decl ∈ unit.classes, decl.Legible

instance (unit : Source.Unit) : Decidable unit.Legible :=
  inferInstanceAs (Decidable (∀ decl ∈ unit.classes, decl.Legible))

theorem Method.Legible.ownSlot {method : Method} (hmethod : method.Legible) {owner : String}
    (howner : Avoids [':'] owner) : (method.ownSlot owner).Legible owner := by
  obtain ⟨hname, hresult, hparams⟩ := hmethod
  refine ⟨rfl, .inl rfl, hname, ⟨hresult, ?_⟩, howner⟩
  exact List.forall_mem_map.mpr hparams

theorem Slot.Legible.forwarded {slot : Slot} {above : String} (hslot : slot.Legible above)
    (owner : String) : (slot.forwarded owner).Legible owner := by
  refine ⟨?_, .inr rfl, hslot.name, ⟨hslot.signature.result, hslot.signature.params⟩, hslot.definer⟩
  change slot.decl.signature.receiver?.map _ = _
  rw [hslot.receiver, Option.map_some]

theorem Derivation.legible_ofParent {parent : Table} {above owner : String} {methods : List Method}
    (horderly : parent.Orderly) (hparent : parent.Legible above) (howner : Avoids [':'] owner)
    (hmethods : ∀ method ∈ methods, method.isVirtual = true → method.Legible) :
    (ofParent parent owner methods).table.Legible owner := by
  intro slot hslot hkind
  rw [slots_ofParent horderly] at hslot
  rcases List.mem_append.mp hslot with hold | hnew
  · obtain ⟨before, hbefore, rfl⟩ := List.mem_map.mp hold
    rw [Slot.inherited] at hkind ⊢
    split at hkind
    · cases hkind
    · rename_i hmethod
      rw [if_neg hmethod]
      split
      · rename_i method hfound
        have hvirtual := (Method.isVirtual_of_overriding? hfound).2
        exact (hmethods method (List.mem_of_find?_eq_some hfound) hvirtual).ownSlot howner
      · refine (hparent before hbefore ?_).forwarded owner
        cases hcase : before.decl.kind with
        | identity => exact absurd hcase hmethod
        | method => rfl
  · obtain ⟨method, hmethod, hvirtual, rfl⟩ := Method.exists_of_mem_newSlots hnew
    exact (hmethods method hmethod hvirtual).ownSlot howner

theorem legible_of_lower {unit : Source.Unit} {entryPoint : String} {program : Program}
    (hlower : lower unit entryPoint = .ok program) (hunit : unit.Legible) {id : Nat} {entry : Entry}
    (hentry : program.registry.entries[id]? = some entry) : entry.table.Legible entry.name := by
  have hresolved := resolved_of_lower hlower
  refine climb_of_lower (motive := fun entry => entry.table.Legible entry.name) hlower ?_ ?_ hentry
  · decide
  · intro decl hdecl parent above habove _ ih
    obtain ⟨hname, hmethods⟩ := hunit decl hdecl
    rw [Declaration.table_resolve_ofSource, Declaration.name_resolve]
    exact Derivation.legible_ofParent (hresolved.orderly habove) ih hname hmethods

/-- In programs of legible units, two classes of one name have tables of the same bytes exactly when
the tables have the same names, kinds, signatures and targets at the same positions. -/
theorem lower_bytes_eq_iff {one other : Source.Unit} {onePoint otherPoint : String}
    {program rival : Program} (hone : lower one onePoint = .ok program)
    (hother : lower other otherPoint = .ok rival) (hlegible : one.Legible) (hsame : other.Legible)
    {id place : Nat} {entry twin : Entry} (hentry : program.registry.entries[id]? = some entry)
    (htwin : rival.registry.entries[place]? = some twin) (hname : entry.name = twin.name) :
    entry.table.bytes entry.name = twin.table.bytes twin.name ↔
      entry.table.slots.map Slot.face = twin.table.slots.map Slot.face := by
  have hidentifies := (resolved_of_lower hother).identifies htwin
  have hreadable := legible_of_lower hother hsame htwin
  rw [← hname] at hidentifies hreadable ⊢
  exact Table.bytes_eq_iff (legible_of_lower hone hlegible hentry) hreadable
    ((resolved_of_lower hone).identifies hentry) hidentifies

/-- A cache with a method whose parameters have the given types. -/
def Source.Unit.cache (types : List String) : Source.Unit :=
  ⟨none, [(Class.named "Cache").withMethod ["public"] none "put"
    (types.map fun type => (type, "o"))]⟩

def Table.cache (types : List String) : Table :=
  (Derivation.ofParent Root.base.table "Cache" [Declaration.method "Cache" ⟨["public"], none, "put",
    Source.params (types.map fun type => (type, "o"))⟩]).table

theorem lower_cache (types : List String) :
    ∃ (program : Program) (id : Nat) (entry : Entry), lower (.cache types) "main" = .ok program ∧
      program.registry.entries[id]? = some entry ∧ entry.name = "Cache" ∧
      entry.table = .cache types := by
  obtain ⟨program, hlower⟩ : ∃ program, lower (.cache types) "main" = .ok program := ⟨_, by cbv⟩
  obtain ⟨id, parent, above, habove, hparent, hentry⟩ :=
    exists_resolve_of_mem hlower List.mem_cons_self
  obtain rfl := (resolved_of_lower hlower).eq_base_of_name habove hparent
  refine ⟨program, id, _, hlower, hentry, ?_, ?_⟩
  · rw [Declaration.name_resolve]
    rfl
  · rw [Declaration.table_resolve_ofSource]
    rfl

/-- The order of two parameters shows in the bytes. -/
theorem lower_bytes_eq_iff_cache :
    ∃ (program rival : Program) (id place : Nat) (entry twin : Entry),
      lower (.cache ["Key", "Value"]) "main" = .ok program ∧
      lower (.cache ["Value", "Key"]) "main" = .ok rival ∧
      (Source.Unit.cache ["Key", "Value"]).Legible ∧ (Source.Unit.cache ["Value", "Key"]).Legible ∧
      program.registry.entries[id]? = some entry ∧ rival.registry.entries[place]? = some twin ∧
      entry.name = twin.name ∧ entry.table.bytes entry.name ≠ twin.table.bytes twin.name := by
  obtain ⟨program, id, entry, hone, hentry, hname, htable⟩ := lower_cache ["Key", "Value"]
  obtain ⟨rival, place, twin, hother, htwin, hsame, htable'⟩ := lower_cache ["Value", "Key"]
  have hlegible : (Source.Unit.cache ["Key", "Value"]).Legible := by decide
  have hlegible' : (Source.Unit.cache ["Value", "Key"]).Legible := by decide
  have hnames : entry.name = twin.name := hname.trans hsame.symm
  refine ⟨program, rival, id, place, entry, twin, hone, hother, hlegible, hlegible', hentry, htwin,
    hnames, ?_⟩
  rw [Ne, lower_bytes_eq_iff hone hother hlegible hlegible' hentry htwin hnames, htable, htable']
  decide

/-- Two parameters and one whose type is named like both are called in different ways, and all the
same the tables have the same bytes and the same fingerprint. -/
theorem shared_bytes_cache :
    ∃ (program rival : Program) (id place : Nat) (entry twin : Entry),
      lower (.cache ["Key", "Value"]) "main" = .ok program ∧
      lower (.cache ["Key, Value"]) "main" = .ok rival ∧
      program.registry.entries[id]? = some entry ∧ rival.registry.entries[place]? = some twin ∧
      entry.name = twin.name ∧ entry.table.slots.map Slot.face ≠ twin.table.slots.map Slot.face ∧
      entry.table.bytes entry.name = twin.table.bytes twin.name ∧
      entry.table.fingerprint entry.name = twin.table.fingerprint twin.name := by
  obtain ⟨program, id, entry, hone, hentry, hname, htable⟩ := lower_cache ["Key", "Value"]
  obtain ⟨rival, place, twin, hother, htwin, hsame, htable'⟩ := lower_cache ["Key, Value"]
  have hbytes : (Table.cache ["Key", "Value"]).bytes "Cache" =
      (Table.cache ["Key, Value"]).bytes "Cache" := by cbv
  refine ⟨program, rival, id, place, entry, twin, hone, hother, hentry, htwin,
    hname.trans hsame.symm, ?_, ?_, ?_⟩
  · rw [htable, htable']
    decide
  · rw [hname, hsame, htable, htable', hbytes]
  · rw [hname, hsame, htable, htable', Table.fingerprint, Table.fingerprint, hbytes]

end ClassLayout
