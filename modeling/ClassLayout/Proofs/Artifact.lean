import ClassLayout.Artifact
import ClassLayout.Proofs.Emission
import ClassLayout.Proofs.Json.Reading

/-!
# Artifacts read back

No record of an artifact has a key twice, so its indented text holds the artifact and nothing else.
The artifact in turn tells all of a program that is written out. Of a slot it has the declaration
and the target only; what else the binding says is what the declaration says, in every table of a
resolved registry (`Slot.Agrees`).
-/

namespace ClassLayout

open Json

/-! ### Keys -/

section Keys

attribute [local simp] Value.Keyed.null Value.Keyed.bool Value.Keyed.number Value.Keyed.text
  Value.keyed_texts Value.keyed_orNull

theorem Param.keyed_toJson (param : Param) : param.toJson.Keyed :=
  .record (by simp) (by simp)

theorem keyed_paramsToJson (params : List Param) : (paramsToJson params).Keyed :=
  Value.keyed_list_map fun param _ => param.keyed_toJson

theorem Field.keyed_toJson (field : Field) : field.toJson.Keyed := by
  cases horigin : field.origin? <;> simp only [toJson, horigin, optionalEntry] <;>
    exact .record (by simp) (by simp)

theorem Constructor.keyed_toJson (constructor : Constructor) : constructor.toJson.Keyed :=
  .record (by simp) (by simp [keyed_paramsToJson])

theorem Method.keyed_toJson (method : Method) : method.toJson.Keyed :=
  .record (by simp) (by simp [keyed_paramsToJson])

theorem Signature.keyed_toJson (signature : Signature) : signature.toJson.Keyed :=
  .record (by simp) (by simp)

theorem Target.keyed_toJson (target : Target) : target.toJson.Keyed := by
  cases target <;> exact .record (by simp) (by simp [Signature.keyed_toJson])

theorem Slot.keyed_toJson (index : Nat) (slot : Slot) : (slot.toJson index).Keyed := by
  cases horigin : slot.decl.origin? <;>
    simp only [toJson, SlotDecl.toEntries, horigin, optionalEntry] <;>
    exact .record (by simp) (by simp [Signature.keyed_toJson, Target.keyed_toJson])

theorem Entry.keyed_toJson (entry : Entry) (parent? : Option String) :
    (entry.toJson parent?).Keyed := by
  have hfields := Value.keyed_list_map fun field (_ : field ∈ entry.members.fields) =>
    field.keyed_toJson
  have hconstructors := Value.keyed_list_map
    fun constructor (_ : constructor ∈ entry.members.constructors) => constructor.keyed_toJson
  have hmethods := Value.keyed_list_map fun method (_ : method ∈ entry.members.methods) =>
    method.keyed_toJson
  have htable : entry.table.toJson.Keyed := Value.keyed_list_map fun slot _ => slot.1.keyed_toJson _
  exact .record (by simp [Members.toEntries])
    (by simp [Members.toEntries, hfields, hconstructors, hmethods, htable])

theorem Program.keyed_toJson (program : Program) (classes : List (Entry × Option String)) :
    (program.toJson classes).Keyed := by
  have hclasses := Value.keyed_list_map fun pair (_ : pair ∈ classes) => pair.1.keyed_toJson pair.2
  cases hentry : program.entryClass? <;> simp only [toJson, hentry, optionalEntry] <;>
    exact .record (by simp) (by simp [hclasses])

end Keys

/-! ### What an artifact tells -/

namespace Json

@[simp] theorem Value.orNull_inj {one other : Option String} :
    Value.orNull one = .orNull other ↔ one = other := by
  cases one <;> cases other <;> simp [orNull]

@[simp] theorem Value.texts_inj {one other : List String} :
    Value.texts one = .texts other ↔ one = other := by
  rw [texts, texts, Value.list.injEq]
  exact List.map_inj_right fun _ _ => Value.text.inj

@[simp] theorem optionalEntry_inj {key : String} {one other : Option String} :
    optionalEntry key one = optionalEntry key other ↔ one = other := by
  cases one <;> cases other <;> simp [optionalEntry]

/-- An entry that may be left out is known from what follows it, which has another key. -/
theorem optionalEntry_append_inj {key next : String} (hkey : key ≠ next) {one other : Option String}
    {value rival : Value} {rest others : List (String × Value)} :
    optionalEntry key one ++ (next, value) :: rest =
        optionalEntry key other ++ (next, rival) :: others ↔
      one = other ∧ value = rival ∧ rest = others := by
  cases one <;> cases other <;> simp [optionalEntry, hkey, hkey.symm]

end Json

@[simp] theorem Access.keyword_inj {one other : Access} :
    one.keyword = other.keyword ↔ one = other := by
  cases one <;> cases other <;> simp [keyword]

@[simp] theorem FieldKind.label_inj {one other : FieldKind} :
    one.label = other.label ↔ one = other := by
  cases one <;> cases other <;> simp [label]

@[simp] theorem SlotKind.label_inj {one other : SlotKind} :
    one.label = other.label ↔ one = other := by
  cases one <;> cases other <;> simp [label]

@[simp] theorem Param.toJson_inj {one other : Param} : one.toJson = other.toJson ↔ one = other := by
  cases one
  cases other
  simp [toJson]

@[simp] theorem paramsToJson_inj {one other : List Param} :
    paramsToJson one = paramsToJson other ↔ one = other := by
  rw [paramsToJson, paramsToJson, Value.list.injEq]
  exact List.map_inj_right fun _ _ => Param.toJson_inj.mp

@[simp] theorem Field.toJson_inj {one other : Field} : one.toJson = other.toJson ↔ one = other := by
  cases one
  cases other
  simp [toJson]

@[simp] theorem Constructor.toJson_inj {one other : Constructor} :
    one.toJson = other.toJson ↔ one = other := by
  cases one
  cases other
  simp [toJson]

@[simp] theorem Method.toJson_inj {one other : Method} :
    one.toJson = other.toJson ↔ one = other := by
  cases one
  cases other
  simp [toJson]

theorem Members.toEntries_inj {one other : Members} :
    one.toEntries = other.toEntries ↔ one = other := by
  cases one
  cases other
  simp [toEntries, List.map_inj_right fun _ _ => Field.toJson_inj.mp,
    List.map_inj_right fun _ _ => Constructor.toJson_inj.mp,
    List.map_inj_right fun _ _ => Method.toJson_inj.mp]

@[simp] theorem Signature.toJson_inj {one other : Signature} :
    one.toJson = other.toJson ↔ one = other := by
  cases one
  cases other
  simp [toJson]

@[simp] theorem Target.toJson_inj {one other : Target} : one.toJson = other.toJson ↔ one = other := by
  cases one <;> cases other <;> simp [toJson]

/-- The declaration of a slot, told apart from what follows it in the record of the slot. -/
theorem SlotDecl.eq_of_toEntries_append_eq {one other : SlotDecl} {value rival : Value}
    {rest others : List (String × Value)}
    (heq : one.toEntries ++ ("pointer_type", value) :: rest =
      other.toEntries ++ ("pointer_type", rival) :: others) : one = other ∧ rest = others := by
  cases one
  cases other
  have hkey : "inherited_from" ≠ "pointer_type" := by decide
  simp only [toEntries, List.cons_append, List.nil_append, List.cons.injEq,
    optionalEntry_append_inj hkey] at heq
  simp_all

/-! ### Slots that agree with themselves -/

namespace Slot

/-- The binding of a slot repeats what the declaration says. -/
def Agrees (slot : Slot) : Prop :=
  slot.binding = ⟨slot.decl.access, slot.decl.static, slot.decl.name, slot.binding.target⟩

instance (slot : Slot) : Decidable slot.Agrees := inferInstanceAs (Decidable (_ = _))

theorem eq_of_toJson_eq {one other : Slot} (hone : one.Agrees) (hother : other.Agrees)
    {index place : Nat} (heq : one.toJson index = other.toJson place) : one = other := by
  simp only [toJson, Value.record.injEq, List.cons_append, List.cons.injEq] at heq
  obtain ⟨hdecl, hrest⟩ := SlotDecl.eq_of_toEntries_append_eq heq.2
  have htarget : one.binding.target = other.binding.target := by simp_all
  rw [Agrees, hdecl, htarget, ← hother] at hone
  obtain ⟨decl, binding⟩ := one
  obtain rfl : decl = other.decl := hdecl
  obtain rfl : binding = other.binding := hone
  rfl

theorem agrees_inherited (owner : String) (methods : List Method) (slot : Slot) :
    (slot.inherited owner methods).Agrees := by
  rw [inherited]
  split
  · rfl
  · split <;> rfl

end Slot

def Table.Agrees (table : Table) : Prop := ∀ slot ∈ table.slots, slot.Agrees

theorem Registry.Resolved.agrees {registry : Registry} (hresolved : registry.Resolved) {id : Nat}
    {entry : Entry} (hentry : registry.entries[id]? = some entry) : entry.table.Agrees := by
  refine hresolved.climb (motive := fun _ entry => entry.table.Agrees) ?_ ?_ hentry
  · unfold Table.Agrees
    decide
  · intro id entry parent above _ _ habove _ htable slot hslot
    rw [htable, Entry.derivation, Derivation.slots_ofParent (hresolved.orderly habove)] at hslot
    rcases List.mem_append.mp hslot with hold | hnew
    · obtain ⟨before, -, rfl⟩ := List.mem_map.mp hold
      exact before.agrees_inherited _ _
    · obtain ⟨method, -, -, rfl⟩ := Method.exists_of_mem_newSlots hnew
      rfl

/-! ### Classes -/

/-- Lists that are written alike are related item by item, if items that are written alike are. -/
private theorem forall₂_of_map_eq {α β : Type} {write : α → β} {related : α → α → Prop}
    {left right : List α}
    (hrelated : ∀ one ∈ left, ∀ other ∈ right, write one = write other → related one other)
    (heq : left.map write = right.map write) : List.Forall₂ related left right := by
  induction left generalizing right with
  | nil =>
      rw [List.map_nil, eq_comm, List.map_eq_nil_iff] at heq
      rw [heq]
      exact .nil
  | cons one rest ih =>
      cases right with
      | nil => cases heq
      | cons other others =>
          rw [List.map_cons, List.map_cons, List.cons.injEq] at heq
          refine .cons (hrelated one List.mem_cons_self other List.mem_cons_self heq.1) ?_
          exact ih (fun one hone other hother =>
            hrelated one (List.mem_cons_of_mem _ hone) other (List.mem_cons_of_mem _ hother)) heq.2

theorem Table.eq_of_toJson_eq {one other : Table} (hone : one.Agrees) (hother : other.Agrees)
    (heq : one.toJson = other.toJson) : one = other := by
  have hslots : List.Forall₂ (· = ·) (one.slots.zipIdx.map Prod.fst)
      (other.slots.zipIdx.map Prod.fst) := by
    refine List.forall₂_map_left_iff.mpr (List.forall₂_map_right_iff.mpr ?_)
    exact forall₂_of_map_eq (fun pair hpair rival hrival =>
      Slot.eq_of_toJson_eq (hone _ (List.fst_mem_of_mem_zipIdx hpair))
        (hother _ (List.fst_mem_of_mem_zipIdx hrival))) (Value.list.inj heq)
  rw [List.forall₂_eq_eq_eq, List.zipIdx_map_fst, List.zipIdx_map_fst] at hslots
  cases one
  exact congrArg Table.mk hslots

theorem Entry.eq_of_toJson_eq {one other : Entry} (hone : one.table.Agrees)
    (hother : other.table.Agrees) {parent? rival? : Option String}
    (heq : one.toJson parent? = other.toJson rival?) :
    one.name = other.name ∧ one.members = other.members ∧ one.table = other.table ∧
      parent? = rival? := by
  simp only [toJson, Value.record.injEq, List.cons_append, List.nil_append, List.cons.injEq,
    Prod.mk.injEq, Value.text.injEq, Value.orNull_inj, true_and] at heq
  obtain ⟨hname, hparent, hrest⟩ := heq
  obtain ⟨hmembers, htail⟩ := List.append_inj hrest rfl
  have htable : one.table.toJson = other.table.toJson := by simp_all
  exact ⟨hname, Members.toEntries_inj.mp hmembers, Table.eq_of_toJson_eq hone hother htable, hparent⟩

/-! ### Programs -/

namespace Program

/-- The class above an entry: its link leads there, and the program answers with it. -/
def Below (program : Program) (entry above : Entry) : Prop :=
  program.parentOf entry = .ok (some above) ∧
    ∃ parent, entry.parent? = some parent ∧ program.registry.entries[parent]? = some above

/-- Classes of two programs that are the same, though they and their parents may stand at different
positions. -/
structure Shares (program rival : Program) (entry twin : Entry) : Prop where
  name : entry.name = twin.name
  members : entry.members = twin.members
  table : entry.table = twin.table
  parent : ∃ above high, program.Below entry above ∧ rival.Below twin high ∧ above.name = high.name

/-- A class and the name that it is written with as its parent's. -/
structure Publishes (program : Program) (pair : Entry × Option String) : Prop where
  agrees : pair.1.table.Agrees
  parent : ∃ above, program.Below pair.1 above ∧ pair.2 = some above.name

theorem shares_of_toJson_eq {program rival : Program} {pair other : Entry × Option String}
    (hpair : program.Publishes pair) (hother : rival.Publishes other)
    (heq : pair.1.toJson pair.2 = other.1.toJson other.2) :
    program.Shares rival pair.1 other.1 := by
  obtain ⟨hagrees, above, hbelow, hname⟩ := hpair
  obtain ⟨hrival, high, hrivalBelow, hrivalName⟩ := hother
  obtain ⟨hsame, hmembers, htable, hparent⟩ := Entry.eq_of_toJson_eq hagrees hrival heq
  rw [hname, hrivalName] at hparent
  exact ⟨hsame, hmembers, htable, above, high, hbelow, hrivalBelow, Option.some.inj hparent⟩

theorem eq_of_toJson_eq {program rival : Program} {classes rivals : List (Entry × Option String)}
    (hclasses : ∀ pair ∈ classes, program.Publishes pair)
    (hrivals : ∀ pair ∈ rivals, rival.Publishes pair)
    (heq : program.toJson classes = rival.toJson rivals) :
    program.package = rival.package ∧ program.entryClass? = rival.entryClass? ∧
      List.Forall₂ (program.Shares rival) (classes.map Prod.fst) (rivals.map Prod.fst) := by
  have hkey : "entry_class" ≠ "classes" := by decide
  simp only [toJson, Value.record.injEq, List.cons_append, List.nil_append, List.cons.injEq,
    Prod.mk.injEq, Value.text.injEq, optionalEntry_append_inj hkey, Value.list.injEq, true_and,
    and_true] at heq
  obtain ⟨hpackage, hentry, hlist⟩ := heq
  refine ⟨hpackage, hentry, List.forall₂_map_left_iff.mpr (List.forall₂_map_right_iff.mpr ?_)⟩
  exact forall₂_of_map_eq (fun pair hpair other hother =>
    shares_of_toJson_eq (hclasses pair hpair) (hrivals other hother)) hlist

section Lowered

variable {unit : Source.Unit} {entryPoint : String} {program : Program}

theorem exists_below_of_lower (hlower : lower unit entryPoint = .ok program) {entry : Entry}
    (hentry : entry ∈ program.classes) :
    ∃ above, program.Below entry above ∧ program.Publishes (entry, some above.name) := by
  obtain ⟨id, parent, above, -, hplace, hlink, habove, hparent, -⟩ :=
    exists_link_of_mem_classes hlower hentry
  have hbelow : program.Below entry above := ⟨hparent, parent, hlink, habove⟩
  exact ⟨above, hbelow, (resolved_of_lower hlower).agrees hplace, above, hbelow, rfl⟩

/-- Every class that is written out has a parent, so none is lost on the way. -/
theorem exists_lineage_of_lower (hlower : lower unit entryPoint = .ok program) :
    ∃ classes, program.lineage = .ok classes ∧ classes.map Prod.fst = program.classes ∧
      ∀ pair ∈ classes, program.Publishes pair := by
  have hbelow : ∀ entry ∈ program.classes, ∃ above, program.Below entry above ∧
      program.Publishes (entry, some above.name) :=
    fun entry => exists_below_of_lower hlower
  rw [lineage]
  generalize program.classes = entries at hbelow ⊢
  induction entries with
  | nil => exact ⟨[], rfl, rfl, List.forall_mem_nil _⟩
  | cons entry rest ih =>
      obtain ⟨above, ⟨hparent, -⟩, hpublishes⟩ := hbelow entry List.mem_cons_self
      obtain ⟨classes, hclasses, hrest, hall⟩ :=
        ih fun entry hentry => hbelow entry (List.mem_cons_of_mem _ hentry)
      refine ⟨(entry, some above.name) :: classes, ?_, by simp [hrest],
        List.forall_mem_cons.mpr ⟨hpublishes, hall⟩⟩
      rw [List.mapM_cons, hparent, hclasses]
      rfl

theorem exists_artifact_of_lower (hlower : lower unit entryPoint = .ok program) :
    ∃ classes, program.artifact = .ok (program.toJson classes) ∧
      classes.map Prod.fst = program.classes ∧ ∀ pair ∈ classes, program.Publishes pair := by
  obtain ⟨classes, hlineage, hclasses, hpublishes⟩ := exists_lineage_of_lower hlower
  refine ⟨classes, ?_, hclasses, hpublishes⟩
  rw [artifact, hlineage]
  rfl

end Lowered

end Program

/-- The text of an artifact is read back as the artifact, and programs with the same text have the
same package, the same entry class and, in the same order, the same classes to write out. -/
theorem lower_artifact {unit : Source.Unit} {entryPoint : String} {program : Program}
    (hlower : lower unit entryPoint = .ok program) :
    ∃ value, program.artifact = .ok value ∧ value.Keyed ∧
      Value.ofText? value.indented = some value ∧
      ∀ other otherPoint rival rivalValue,
        lower other otherPoint = .ok rival → rival.artifact = .ok rivalValue →
        rivalValue.indented = value.indented →
        rival.package = program.package ∧ rival.entryClass? = program.entryClass? ∧
          List.Forall₂ (rival.Shares program) rival.classes program.classes := by
  obtain ⟨classes, hartifact, hclasses, hpublishes⟩ := Program.exists_artifact_of_lower hlower
  have hkeyed := program.keyed_toJson classes
  have hread := hkeyed.ofText?_indented
  refine ⟨program.toJson classes, hartifact, hkeyed, hread, ?_⟩
  intro other otherPoint rival rivalValue hother hrival hsame
  obtain ⟨rivals, hvalue, hrivals, hrivalPublishes⟩ := Program.exists_artifact_of_lower hother
  obtain rfl := Except.ok.inj (hvalue.symm.trans hrival)
  have heq : rival.toJson rivals = program.toJson classes := by
    have hback := (rival.keyed_toJson rivals).ofText?_indented
    rw [hsame, hread] at hback
    exact (Option.some.inj hback).symm
  rw [← hclasses, ← hrivals]
  exact Program.eq_of_toJson_eq hrivalPublishes hpublishes heq

def Source.Class.piece : Source.Class :=
  (named "Piece").withField ["private"] "int" "row" (some "1")

def Source.Class.pawn : Source.Class :=
  ((named "Pawn").extending "Piece").withMethod ["public"] none "advance" [("int", "rows")]

/-- A piece and a pawn after an entry class, which is not written out. -/
def Source.Unit.opening : Source.Unit :=
  ⟨some ["chess"],
    [(Class.named "Game").withMethod ["public", "static"] none "main" [], .piece, .pawn]⟩

/-- The same piece and pawn, the other way round, before another entry class of that name. -/
def Source.Unit.endgame : Source.Unit :=
  ⟨some ["chess"],
    [.pawn, .piece, (Class.named "Game").withField [] "Pawn" "last" none
      |>.withMethod ["public", "static"] none "main" []]⟩

/-- The two units are written alike, though the parent of the pawn stands at different positions. -/
theorem lower_artifact_chess :
    ∃ program rival value piece pawn twin, lower .opening "main" = .ok program ∧
      lower .endgame "main" = .ok rival ∧
      program.artifact = .ok value ∧ rival.artifact = .ok value ∧
      Value.ofText? value.indented = some value ∧
      program.classes = [piece, pawn] ∧ rival.classes = [piece, twin] ∧
      rival.Shares program twin pawn ∧ pawn.parent? = some 4 ∧ twin.parent? = some 3 ∧
      twin.name = "Pawn" ∧
      twin.members.fields.map (fun field => (field.name, field.origin?)) =
        [("row", some "Piece")] ∧
      twin.table.slots.map Slot.name =
        ["__is_a", "hashCode", "equals", "getClass", "toString", "advance"] := by
  obtain ⟨program, rival, piece, pawn, twin, hlower, hother, hlineage, hrivalLineage, hjson, hclasses,
      hrivals, htwin⟩ :
      ∃ program rival piece pawn twin, lower .opening "main" = .ok program ∧
        lower .endgame "main" = .ok rival ∧
        program.lineage = .ok [(piece, some "Object"), (pawn, some "Piece")] ∧
        rival.lineage = .ok [(piece, some "Object"), (twin, some "Piece")] ∧
        program.toJson [(piece, some "Object"), (pawn, some "Piece")] =
          rival.toJson [(piece, some "Object"), (twin, some "Piece")] ∧
        program.classes = [piece, pawn] ∧ rival.classes = [piece, twin] ∧
        pawn.parent? = some 4 ∧ twin.parent? = some 3 ∧ twin.name = "Pawn" ∧
        twin.members.fields.map (fun field => (field.name, field.origin?)) =
          [("row", some "Piece")] ∧
        twin.table.slots.map Slot.name =
          ["__is_a", "hashCode", "equals", "getClass", "toString", "advance"] := by
    refine ⟨_, _, _, _, _, by cbv, by cbv, rfl, rfl, ?_, ?_, ?_, ?_, ?_, ?_, ?_, ?_⟩
    all_goals rfl
  obtain ⟨value, hvalue, -, hread, hagree⟩ := lower_artifact hlower
  have hrival : rival.artifact = .ok value := by
    rw [← hvalue, Program.artifact, Program.artifact, hlineage, hrivalLineage, Except.map, Except.map,
      hjson]
  obtain ⟨-, -, hshares⟩ := hagree _ _ _ _ hother hrival rfl
  rw [hclasses, hrivals] at hshares
  obtain ⟨-, _ | ⟨hpawn, -⟩⟩ := List.forall₂_cons.mp hshares
  exact ⟨program, rival, value, piece, pawn, twin, hlower, hother, hvalue, hrival, hread, hclasses,
    hrivals, hpawn, htwin⟩

end ClassLayout
