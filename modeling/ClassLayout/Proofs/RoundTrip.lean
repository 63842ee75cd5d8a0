import ClassLayout.Lowering
import ClassLayout.Proofs.Json.Reading
import ClassLayout.Source.Encode
import Mathlib.Data.List.Permutation

/-!
# Units read back

A unit written in its canonical form is read back as it was. Members are the only part that is not
read on the way: each is taken in whole first, so nothing in it may be nested too deep or too large
for a number.
-/

namespace ClassLayout.Source

open Json

/-! ### Types that can be written -/

/-- The number of dimensions is one of 64 bits. -/
def TypeExpr.Fits (type : TypeExpr) : Prop := type.dimensions < wordLimit

def Member.Fits : Member → Prop
  | .field decl => decl.type.Fits
  | .constructor decl => ∀ param ∈ decl.params, param.type.Fits
  | .method decl => (∀ type ∈ decl.result?, type.Fits) ∧ ∀ param ∈ decl.params, param.type.Fits

def Class.Fits (decl : Class) : Prop :=
  (∀ type ∈ decl.parent?, type.Fits) ∧ ∀ member ∈ decl.members, member.Fits

/-- Every type of the unit can be written. -/
def Unit.Fits (unit : Unit) : Prop := ∀ decl ∈ unit.classes, decl.Fits

/-! ### Records, from the inside out -/

attribute [local simp] Shape.read_record Shape.ofEntries Shape.readEntries FieldReader.part
  Entries.ofList need readText bind Except.bind pure Except.pure Except.map

theorem typeShape_read (timing : Timing) {type : TypeExpr} (hfits : type.Fits) :
    typeShape.read timing type.toJson.tree = .ok type := by
  simp [typeShape, TypeExpr.toJson, Value.tree, entryTrees, readCount_ofNat hfits]

theorem paramShape_record {param : Param} {type : Tree}
    (htype : typeShape.read .buffered type = .ok param.type) :
    paramShape.read .buffered (.record (.ofList [("modifiers", (Value.texts param.modifiers).tree),
      ("type", type), ("name", .text (some param.name))])) = .ok param := by
  have hmodifiers := readList_texts param.modifiers
  simp [paramShape, hmodifiers, htype]

theorem paramShape_read {param : Param} (hfits : param.type.Fits) :
    paramShape.read .buffered param.toJson.tree = .ok param :=
  paramShape_record (typeShape_read .buffered hfits)

theorem declaratorShape_record {declarator : Declarator} {initial : Tree}
    (hinitial : readOptional ((Shape.sole "Expression" "text" readText).read .buffered) initial =
      .ok declarator.initial?) :
    declaratorShape.read .buffered (.record (.ofList [("name", .text (some declarator.name)),
      ("initializer", initial)])) = .ok declarator := by
  simp [declaratorShape, hinitial]

theorem declaratorShape_read (declarator : Declarator) :
    declaratorShape.read .buffered declarator.toJson.tree = .ok declarator := by
  apply declaratorShape_record
  cases declarator.initial? <;> rfl

theorem fieldShape_record {decl : FieldDecl} {type declarators : Tree}
    (htype : typeShape.read .buffered type = .ok decl.type)
    (hdeclarators : readList (declaratorShape.read .buffered) declarators = .ok decl.declarators) :
    fieldShape.read .buffered (.record (.ofList [("modifiers", (Value.texts decl.modifiers).tree),
      ("type", type), ("declarators", declarators)])) = .ok decl := by
  have hmodifiers := readList_texts decl.modifiers
  simp [fieldShape, hmodifiers, htype, hdeclarators]

theorem fieldShape_read {decl : FieldDecl} (hfits : decl.type.Fits) :
    fieldShape.read .buffered (Value.record (Member.field decl).fieldsToJson).tree = .ok decl :=
  fieldShape_record (typeShape_read .buffered hfits)
    (readList_itemTrees fun declarator _ => declaratorShape_read declarator)

theorem readParams {params : List Param} (hfits : ∀ param ∈ params, param.type.Fits) :
    readList (paramShape.read .buffered) (Value.list (params.map Param.toJson)).tree = .ok params :=
  readList_itemTrees fun param hparam => paramShape_read (hfits param hparam)

theorem constructorShape_record {decl : ConstructorDecl} {params : Tree}
    (hparams : readList (paramShape.read .buffered) params = .ok decl.params) :
    constructorShape.read .buffered (.record (.ofList [
      ("modifiers", (Value.texts decl.modifiers).tree), ("name", .text (some decl.name)),
      ("parameters", params)])) = .ok decl := by
  have hmodifiers := readList_texts decl.modifiers
  simp [constructorShape, hmodifiers, hparams]

theorem constructorShape_read {decl : ConstructorDecl}
    (hfits : ∀ param ∈ decl.params, param.type.Fits) :
    constructorShape.read .buffered (Value.record (Member.constructor decl).fieldsToJson).tree =
      .ok decl :=
  constructorShape_record (readParams hfits)

theorem readResult_type {type : TypeExpr} {tree : Tree}
    (htype : typeShape.read .buffered tree = .ok type) :
    readResult (.record (.ofList [("type", tree)])) = .ok (some type) := by
  simp [readResult, htype]

theorem readResult_tree {result? : Option TypeExpr}
    (hfits : ∀ type ∈ result?, type.Fits) :
    readResult (resultToJson result?).tree = .ok result? := by
  cases result? with
  | none => rfl
  | some type => exact readResult_type (typeShape_read .buffered (hfits type rfl))

theorem methodShape_record {decl : MethodDecl} {result params : Tree}
    (hresult : readResult result = .ok decl.result?)
    (hparams : readList (paramShape.read .buffered) params = .ok decl.params) :
    methodShape.read .buffered (.record (.ofList [("modifiers", (Value.texts decl.modifiers).tree),
      ("result", result), ("name", .text (some decl.name)), ("parameters", params)])) =
      .ok decl := by
  have hmodifiers := readList_texts decl.modifiers
  simp [methodShape, hmodifiers, hresult, hparams]

theorem methodShape_read {decl : MethodDecl}
    (hresult : ∀ type ∈ decl.result?, type.Fits)
    (hfits : ∀ param ∈ decl.params, param.type.Fits) :
    methodShape.read .buffered (Value.record (Member.method decl).fieldsToJson).tree = .ok decl :=
  methodShape_record (readResult_tree hresult) (readParams hfits)

/-! ### Members, taken in whole -/

theorem TypeExpr.plain_toJson (depth : Nat) {type : TypeExpr}
    (hfits : type.Fits) : type.toJson.Plain (depth + 1) := by
  apply Value.plain_record
  simp [Value.plain_text, Value.plain_number depth hfits]

theorem Param.plain_toJson (depth : Nat) {param : Param}
    (hfits : param.type.Fits) : param.toJson.Plain (depth + 2) := by
  apply Value.plain_record
  simp [Value.plain_text, Value.plain_texts, TypeExpr.plain_toJson depth hfits]

theorem Declarator.plain_toJson (depth : Nat) (declarator : Declarator) :
    declarator.toJson.Plain (depth + 2) := by
  have hinitial : (initialToJson declarator.initial?).Plain (depth + 1) := by
    cases declarator.initial? with
    | none => exact Value.plain_null _
    | some text =>
        apply Value.plain_record
        simp [Value.plain_text]
  apply Value.plain_record
  simp [Value.plain_text, hinitial]

theorem plain_resultToJson (depth : Nat) {result? : Option TypeExpr}
    (hfits : ∀ type ∈ result?, type.Fits) :
    (resultToJson result?).Plain (depth + 2) := by
  cases result? with
  | none => exact Value.plain_text _ _
  | some type =>
      apply Value.plain_record
      simp [TypeExpr.plain_toJson depth (hfits type rfl)]

theorem plain_params (depth : Nat) {params : List Param}
    (hfits : ∀ param ∈ params, param.type.Fits) :
    (Value.list (params.map Param.toJson)).Plain (depth + 3) :=
  Value.plain_list_map fun param hparam => Param.plain_toJson depth (hfits param hparam)

/-- The entries of a member, its kind apart. -/
def Member.fieldTrees (member : Member) : List (String × Tree) :=
  member.fieldsToJson.map fun field => (field.1, field.2.tree)

theorem Member.plain_fieldTrees {member : Member} (hfits : member.Fits) :
    ∀ field ∈ member.fieldTrees, field.1 ≠ kindKey ∧ field.2.isPlain memberRoom = true := by
  have hplain : ∀ field ∈ member.fieldsToJson, field.1 ≠ kindKey ∧ field.2.Plain 3 := by
    cases member with
    | field decl =>
        have htype := TypeExpr.plain_toJson 2 hfits
        have hdeclarators : (Value.list (decl.declarators.map Declarator.toJson)).Plain 3 :=
          Value.plain_list_map fun declarator _ => Declarator.plain_toJson 0 declarator
        simp [fieldsToJson, kindKey, Value.plain_texts, htype, hdeclarators]
    | constructor decl =>
        have hparams := plain_params 0 hfits
        simp [fieldsToJson, kindKey, Value.plain_text, Value.plain_texts, hparams]
    | method decl =>
        have hresult := plain_resultToJson 1 hfits.1
        have hparams := plain_params 0 hfits.2
        simp [fieldsToJson, kindKey, Value.plain_text, Value.plain_texts, hresult, hparams]
  intro field hfield
  obtain ⟨entry, hentry, rfl⟩ := List.mem_map.mp hfield
  obtain ⟨hkey, hdepth⟩ := hplain entry hentry
  exact ⟨hkey, hdepth memberRoom (by decide)⟩

theorem takeKind_append {before after left : List (String × Tree)}
    (hbefore : ∀ entry ∈ before, entry.1 ≠ kindKey ∧ entry.2.isPlain memberRoom = true)
    {kind? found? : Option MemberKind}
    (hafter : takeKind kind? (.ofList after) = .ok (found?, .ofList left)) :
    takeKind kind? (.ofList (before ++ after)) = .ok (found?, .ofList (before ++ left)) := by
  induction before with
  | nil => exact hafter
  | cons entry rest ih =>
      obtain ⟨hkey, hplain⟩ := hbefore entry List.mem_cons_self
      have hrest := ih fun entry hentry => hbefore entry (List.mem_cons_of_mem _ hentry)
      rw [List.cons_append, Entries.ofList, takeKind]
      simp [hkey, hplain, hrest]

/-- The kind of a member may stand anywhere among its entries. -/
theorem readMember_record {kind : MemberKind} {name : Tree} (hkind : readKind name = .ok kind)
    {before after : List (String × Tree)}
    (hbefore : ∀ entry ∈ before, entry.1 ≠ kindKey ∧ entry.2.isPlain memberRoom = true)
    (hafter : ∀ entry ∈ after, entry.1 ≠ kindKey ∧ entry.2.isPlain memberRoom = true) :
    readMember (.record (.ofList (before ++ (kindKey, name) :: after))) =
      readMemberAs kind (.record (.ofList (before ++ after))) := by
  have hend : takeKind (some kind) (.ofList []) = .ok (some kind, .ofList []) := rfl
  have htail : takeKind (some kind) (.ofList after) = .ok (some kind, .ofList after) := by
    simpa using takeKind_append hafter hend
  have hkind : takeKind none (.ofList ((kindKey, name) :: after)) =
      .ok (some kind, .ofList after) := by
    rw [Entries.ofList, takeKind]
    simp [hkind, htail]
  rw [readMember, takeKind_append hbefore hkind]

def Member.kind : Member → MemberKind
  | .field _ => .field
  | .constructor _ => .constructor
  | .method _ => .method

theorem readKind_kindName (member : Member) :
    readKind (.text (some member.kindName)) = .ok member.kind := by
  cases member <;> rfl

theorem readMemberAs_fieldTrees {member : Member} (hfits : member.Fits) :
    readMemberAs member.kind (.record (.ofList member.fieldTrees)) = .ok member := by
  cases member with
  | field decl => exact map_eq_ok_iff.mpr ⟨decl, fieldShape_read hfits, rfl⟩
  | constructor decl => exact map_eq_ok_iff.mpr ⟨decl, constructorShape_read hfits, rfl⟩
  | method decl => exact map_eq_ok_iff.mpr ⟨decl, methodShape_read hfits.1 hfits.2, rfl⟩

theorem readMember_tree {member : Member} (hfits : member.Fits) :
    readMember member.toJson.tree = .ok member := by
  rw [Member.toJson, Value.tree, entryTrees_eq_ofList]
  exact (readMember_record (readKind_kindName member) (List.forall_mem_nil _)
    (Member.plain_fieldTrees hfits)).trans (readMemberAs_fieldTrees hfits)

/-! ### Classes and units -/

theorem classShape_record {decl : Class} {parent members : Tree}
    (hparent : readOptional ((Shape.sole "Extension" "type" (typeShape.read .direct)).read .direct)
      parent = .ok decl.parent?)
    (hmembers : readList readMember members = .ok decl.members) :
    classShape.read .direct (.record (.ofList [("modifiers", (Value.texts decl.modifiers).tree),
      ("name", .text (some decl.name)), ("extension", parent), ("members", members)])) =
      .ok decl := by
  have hmodifiers := readList_texts decl.modifiers
  simp [classShape, hmodifiers, hparent, hmembers]

theorem readParent_tree {parent? : Option TypeExpr} (hfits : ∀ type ∈ parent?, type.Fits) :
    readOptional ((Shape.sole "Extension" "type" (typeShape.read .direct)).read .direct)
      (parentToJson parent?).tree = .ok parent? := by
  cases parent? with
  | none => rfl
  | some type =>
      have htype := Shape.sole_record "Extension" "type" .direct
        (typeShape_read .direct (hfits type rfl))
      exact map_eq_ok_iff.mpr ⟨type, htype, rfl⟩

theorem classShape_read {decl : Class} (hfits : decl.Fits) :
    classShape.read .direct decl.toJson.tree = .ok decl :=
  classShape_record (readParent_tree hfits.1)
    (readList_itemTrees fun member hmember => readMember_tree (hfits.2 member hmember))

theorem unitShape_record {unit : Unit} {package classes : Tree}
    (hpackage : readOptional
      ((Shape.sole "PackageDeclaration" "segments" (readList readText)).read .direct) package =
      .ok unit.package?)
    (hclasses : readList (classShape.read .direct) classes = .ok unit.classes) :
    unitShape.read .direct (.record (.ofList [("package", package), ("classes", classes)])) =
      .ok unit := by
  simp [unitShape, hpackage, hclasses]

theorem readPackage_tree (package? : Option (List String)) :
    readOptional ((Shape.sole "PackageDeclaration" "segments" (readList readText)).read .direct)
      (packageToJson package?).tree = .ok package? := by
  cases package? with
  | none => rfl
  | some segments =>
      have hsegments := Shape.sole_record "PackageDeclaration" "segments" .direct
        (readList_texts segments)
      exact map_eq_ok_iff.mpr ⟨segments, hsegments, rfl⟩

theorem unitShape_read {unit : Unit} (hfits : unit.Fits) :
    unitShape.read .direct unit.toJson.tree = .ok unit :=
  unitShape_record (readPackage_tree unit.package?)
    (readList_itemTrees fun decl hdecl => classShape_read (hfits decl hdecl))

theorem Unit.ofJson_spelled {unit : Unit} {tree : Tree} {text : String}
    (hwhole : tree.isWhole = true) (hspelled : Spelled tree.tokens text.toList)
    (hread : unitShape.read .direct tree = .ok unit) : Unit.ofJson text = .ok unit := by
  rw [ofJson, Document.read_spelled hwhole hspelled, ofDocument, hread]
  rfl

theorem Unit.ofJson_toJson {unit : Unit} (hfits : unit.Fits) :
    Unit.ofJson unit.toJson.compact = .ok unit := by
  rw [ofJson, Document.read_compact, ofDocument, unitShape_read hfits]
  rfl

end ClassLayout.Source

namespace ClassLayout

/-- A unit whose numbers are of 64 bits is read back from its canonical text as it was, and so the
program of the text is that of the unit under the entry policy. -/
theorem lowerSource_toJson {unit : Source.Unit} (hfits : unit.Fits) :
    Source.Unit.ofJson unit.toJson.compact = .ok unit ∧
      ∀ options : LoweringOptions,
        lowerSource unit.toJson.compact options = do
          let program ← (lower unit options.entryPoint).mapError .hierarchy
          (options.check program).mapError .entryPoint
          return program := by
  have hread := Source.Unit.ofJson_toJson hfits
  refine ⟨hread, fun options => ?_⟩
  simp only [lowerSource, hread]
  cases lower unit options.entryPoint with
  | error e => rfl
  | ok program =>
      simp only [Except.mapError, bind, Except.bind]
      cases options.check program <;> rfl

/-- A unit whose texts need every kind of escape. -/
def Source.Unit.notes : Source.Unit :=
  ⟨some ["no\"tes", ""],
    [⟨[], "\n𝄞", some ⟨"String", 0⟩,
      [.constructor ⟨["public"], "\n𝄞", []⟩,
       .field ⟨["static"], ⟨"int", 2⟩, [⟨"\x00\x7f", none⟩, ⟨"back\\slash", some "\x7b\t\x7d"⟩]⟩,
       .method ⟨[], some ⟨"long", 0⟩, "", [⟨["final"], ⟨"String", 1⟩, "é"⟩]⟩,
       .method ⟨["static"], none, "main", []⟩]⟩]⟩

theorem lowerSource_toJson_notes :
    Source.Unit.notes.Fits ∧
      Source.Unit.ofJson Source.Unit.notes.toJson.compact = .ok .notes ∧
      ∃ program, lower .notes "main" = .ok program ∧ program.entryClass? = some "\n𝄞" ∧
        lowerSource Source.Unit.notes.toJson.compact ⟨"main", .required⟩ = .ok program := by
  have hfits : Source.Unit.notes.Fits := by
    simp [Source.Unit.Fits, Source.Unit.notes, Source.Class.Fits, Source.Member.Fits,
      Source.TypeExpr.Fits, Json.wordLimit]
  obtain ⟨hread, hsource⟩ := lowerSource_toJson hfits
  obtain ⟨program, hlower, hclass, hcheck⟩ :
      ∃ program, lower .notes "main" = .ok program ∧ program.entryClass? = some "\n𝄞" ∧
        LoweringOptions.check ⟨"main", .required⟩ program = .ok () := ⟨_, by cbv, rfl, rfl⟩
  refine ⟨hfits, hread, program, hlower, hclass, ?_⟩
  rw [hsource, hlower]
  simp only [Except.mapError, bind, Except.bind, hcheck]
  rfl

end ClassLayout
