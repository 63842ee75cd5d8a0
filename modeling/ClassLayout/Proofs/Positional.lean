import ClassLayout.Proofs.Json.AnyOrder
import ClassLayout.Proofs.RoundTrip

/-!
# Units by position

A record may be written as the list of its fields, in the order of its shape. What is read from
the list is what is read from the entries under the keys of the shape (`read_list_of_record`), so
nothing is to be shown for lists that has not been shown for records. A unit that is written
without any keys, but for that of a method's result, is read back as it was.
-/

namespace ClassLayout.Json.Shape

/-! ### Lists and records -/

variable {ρ α : Type} {shape : Shape ρ α}

theorem find?_key (hkeys : (shape.fields.map (·.key)).Nodup) {field : FieldReader ρ}
    (hfield : field ∈ shape.fields) :
    shape.fields.find? (·.key == field.key) = some field := by
  cases hfind : shape.fields.find? (·.key == field.key) with
  | none =>
      have habsent := List.find?_eq_none.mp hfind field hfield
      simp at habsent
  | some other =>
      have hsame : other.key = field.key := by simpa using List.find?_some hfind
      rw [List.inj_on_of_nodup_map hkeys (List.mem_of_find?_eq_some hfind) hfield hsame]

theorem readItems_of_readEntries (hkeys : (shape.fields.map (·.key)).Nodup)
    {fields : List (FieldReader ρ)} (hfields : fields ⊆ shape.fields) {trees : List Tree}
    (hlength : fields.length = trees.length) {parts last : ρ}
    (hread : shape.readEntries parts (.ofList ((fields.map (·.key)).zip trees)) = .ok last) :
    readItems fields parts (.ofList trees) = .ok (last, .done) := by
  induction fields generalizing trees parts with
  | nil =>
      obtain rfl := List.length_eq_zero_iff.mp hlength.symm
      rw [readItems, Except.ok.inj hread, Items.ofList]
  | cons field rest ih =>
      obtain ⟨tree, others, rfl⟩ := List.exists_cons_of_length_eq_add_one hlength.symm
      obtain ⟨next, htakes, hrest⟩ := readEntries_cons_eq_ok_iff.mp hread
      have hfind := find?_key hkeys (hfields List.mem_cons_self)
      cases htakes with
      | other hfind' => simp [hfind] at hfind'
      | field hfind' _ hnext =>
          obtain rfl := Option.some.inj (hfind.symm.trans hfind')
          rw [Items.ofList, readItems, hnext]
          exact ih (fun field hfield => hfields (List.mem_cons_of_mem _ hfield))
            (by simpa using hlength) hrest

/-- A list is read as the record of its items under the keys of the shape. -/
theorem read_list_of_record (hkeys : (shape.fields.map (·.key)).Nodup) {timing : Timing}
    {values : List Value} (hlength : shape.fields.length = values.length) {value : α}
    (hread : shape.read timing
      (.record (.ofList ((shape.fields.map (·.key)).zip (values.map Value.tree)))) = .ok value) :
    shape.read timing (Value.list values).tree = .ok value := by
  obtain ⟨parts, hparts, hbuild⟩ := read_record_eq_ok_iff.mp hread
  have hitems := readItems_of_readEntries hkeys (List.Subset.refl _) (by simpa using hlength) hparts
  rw [Value.tree, itemTrees_eq_ofList, read, ofItems, hitems]
  simp [hbuild, endItems, Except.map]

end ClassLayout.Json.Shape

namespace ClassLayout.Source

open Json

/-! ### Units without keys -/

def TypeExpr.positional (type : TypeExpr) : Value :=
  .list [.text type.name, .number type.dimensions]

/-- The result of a method is a choice and not a record, so it keeps its key. -/
def positionalResult (result? : Option TypeExpr) : Value :=
  match result? with
  | none => .text "void"
  | some type => .record [("type", type.positional)]

def Param.positional (param : Param) : Value :=
  .list [.texts param.modifiers, param.type.positional, .text param.name]

def positionalInitial (initial? : Option String) : Value :=
  match initial? with
  | none => .null
  | some text => .list [.text text]

def Declarator.positional (declarator : Declarator) : Value :=
  .list [.text declarator.name, positionalInitial declarator.initial?]

def Member.positionalFields : Member → List Value
  | .field decl =>
    [.texts decl.modifiers, decl.type.positional,
      .list (decl.declarators.map Declarator.positional)]
  | .constructor decl =>
    [.texts decl.modifiers, .text decl.name, .list (decl.params.map Param.positional)]
  | .method decl =>
    [.texts decl.modifiers, positionalResult decl.result?, .text decl.name,
      .list (decl.params.map Param.positional)]

def Member.positional (member : Member) : Value :=
  .list (.text member.kindName :: member.positionalFields)

def positionalParent (parent? : Option TypeExpr) : Value :=
  match parent? with
  | none => .null
  | some type => .list [type.positional]

def Class.positional (decl : Class) : Value :=
  .list [.texts decl.modifiers, .text decl.name, positionalParent decl.parent?,
    .list (decl.members.map Member.positional)]

def positionalPackage (package? : Option (List String)) : Value :=
  match package? with
  | none => .null
  | some segments => .list [.texts segments]

def Unit.positional (unit : Unit) : Value :=
  .list [positionalPackage unit.package?, .list (unit.classes.map Class.positional)]

/-! ### Parts of members -/

theorem typeShape_positional (timing : Timing) {type : TypeExpr} (hfits : type.Fits) :
    typeShape.read timing type.positional.tree = .ok type :=
  Shape.read_list_of_record (by decide) rfl (typeShape_read timing hfits)

theorem readParams_positional {params : List Param} (hfits : ∀ param ∈ params, param.type.Fits) :
    readList (paramShape.read .buffered) (Value.list (params.map Param.positional)).tree =
      .ok params :=
  readList_itemTrees fun param hparam => Shape.read_list_of_record (by decide) rfl
    (paramShape_record (typeShape_positional .buffered (hfits param hparam)))

theorem declaratorShape_positional (declarator : Declarator) :
    declaratorShape.read .buffered declarator.positional.tree = .ok declarator := by
  refine Shape.read_list_of_record (by decide) rfl (declaratorShape_record ?_)
  cases declarator.initial? <;> rfl

theorem readResult_positional {result? : Option TypeExpr} (hfits : ∀ type ∈ result?, type.Fits) :
    readResult (positionalResult result?).tree = .ok result? := by
  cases result? with
  | none => rfl
  | some type => exact readResult_type (typeShape_positional .buffered (hfits type rfl))

theorem readMemberAs_positional {member : Member} (hfits : member.Fits) :
    readMemberAs member.kind (Value.list member.positionalFields).tree = .ok member := by
  cases member with
  | field decl =>
      have hdeclarators := readList_itemTrees fun declarator (_ : declarator ∈ decl.declarators) =>
        declaratorShape_positional declarator
      exact map_eq_ok_iff.mpr ⟨decl, Shape.read_list_of_record (by decide) rfl
        (fieldShape_record (typeShape_positional .buffered hfits) hdeclarators), rfl⟩
  | constructor decl =>
      exact map_eq_ok_iff.mpr ⟨decl, Shape.read_list_of_record (by decide) rfl
        (constructorShape_record (readParams_positional hfits)), rfl⟩
  | method decl =>
      exact map_eq_ok_iff.mpr ⟨decl, Shape.read_list_of_record (by decide) rfl
        (methodShape_record (readResult_positional hfits.1) (readParams_positional hfits.2)), rfl⟩

/-! ### Members, taken in whole -/

theorem TypeExpr.plain_positional (depth : Nat) {type : TypeExpr} (hfits : type.Fits) :
    type.positional.Plain (depth + 1) := by
  apply Value.plain_list
  simp [Value.plain_text, Value.plain_number depth hfits]

theorem plain_positionalParams (depth : Nat) {params : List Param}
    (hfits : ∀ param ∈ params, param.type.Fits) :
    (Value.list (params.map Param.positional)).Plain (depth + 3) := by
  apply Value.plain_list_map
  intro param hparam
  apply Value.plain_list
  simp [Value.plain_text, Value.plain_texts, TypeExpr.plain_positional depth (hfits param hparam)]

theorem Declarator.plain_positional (depth : Nat) (declarator : Declarator) :
    declarator.positional.Plain (depth + 2) := by
  have hinitial : (positionalInitial declarator.initial?).Plain (depth + 1) := by
    cases declarator.initial? with
    | none => exact Value.plain_null _
    | some text =>
        apply Value.plain_list
        simp [Value.plain_text]
  apply Value.plain_list
  simp [Value.plain_text, hinitial]

theorem plain_positionalResult (depth : Nat) {result? : Option TypeExpr}
    (hfits : ∀ type ∈ result?, type.Fits) : (positionalResult result?).Plain (depth + 2) := by
  cases result? with
  | none => exact Value.plain_text _ _
  | some type =>
      apply Value.plain_record
      simp [TypeExpr.plain_positional depth (hfits type rfl)]

theorem Member.plain_positionalFields {member : Member} (hfits : member.Fits) :
    ∀ value ∈ member.positionalFields, value.Plain 3 := by
  cases member with
  | field decl =>
      have htype := TypeExpr.plain_positional 2 hfits
      have hdeclarators : (Value.list (decl.declarators.map Declarator.positional)).Plain 3 :=
        Value.plain_list_map fun declarator _ => Declarator.plain_positional 0 declarator
      simp [positionalFields, Value.plain_texts, htype, hdeclarators]
  | constructor decl =>
      have hparams := plain_positionalParams 0 hfits
      simp [positionalFields, Value.plain_text, Value.plain_texts, hparams]
  | method decl =>
      have hresult := plain_positionalResult 1 hfits.1
      have hparams := plain_positionalParams 0 hfits.2
      simp [positionalFields, Value.plain_text, Value.plain_texts, hresult, hparams]

theorem readMember_positional {member : Member} (hfits : member.Fits) :
    readMember member.positional.tree = .ok member := by
  have hplain : (itemTrees member.positionalFields).isPlain memberRoom = true :=
    Value.isPlain_itemTrees fun value hvalue =>
      Member.plain_positionalFields hfits value hvalue memberRoom (by decide)
  rw [Member.positional, Value.tree, itemTrees, Value.tree, readMember, readKind_kindName]
  exact (if_pos hplain).trans (readMemberAs_positional hfits)

/-! ### Classes and units -/

theorem readParent_positional {parent? : Option TypeExpr} (hfits : ∀ type ∈ parent?, type.Fits) :
    readOptional ((Shape.sole "Extension" "type" (typeShape.read .direct)).read .direct)
      (positionalParent parent?).tree = .ok parent? := by
  cases parent? with
  | none => rfl
  | some type =>
      have htype := Shape.sole_record "Extension" "type" .direct
        (typeShape_positional .direct (hfits type rfl))
      exact map_eq_ok_iff.mpr
        ⟨type, Shape.read_list_of_record (by decide) rfl htype, rfl⟩

theorem classShape_positional {decl : Class} (hfits : decl.Fits) :
    classShape.read .direct decl.positional.tree = .ok decl :=
  Shape.read_list_of_record (by decide) rfl (classShape_record (readParent_positional hfits.1)
    (readList_itemTrees fun member hmember => readMember_positional (hfits.2 member hmember)))

theorem readPackage_positional (package? : Option (List String)) :
    readOptional ((Shape.sole "PackageDeclaration" "segments" (readList readText)).read .direct)
      (positionalPackage package?).tree = .ok package? := by
  cases package? with
  | none => rfl
  | some segments =>
      have hsegments := Shape.sole_record "PackageDeclaration" "segments" .direct
        (readList_texts segments)
      exact map_eq_ok_iff.mpr
        ⟨segments, Shape.read_list_of_record (by decide) rfl hsegments, rfl⟩

theorem unitShape_positional {unit : Unit} (hfits : unit.Fits) :
    unitShape.read .direct unit.positional.tree = .ok unit :=
  Shape.read_list_of_record (by decide) rfl (unitShape_record (readPackage_positional unit.package?)
    (readList_itemTrees fun decl hdecl => classShape_positional (hfits decl hdecl)))

/-- A text without keys holds the unit that a text with them holds. -/
theorem Unit.ofJson_positional {unit : Unit} (hfits : unit.Fits) {text : String}
    (hspelled : Spelled unit.positional.tree.tokens text.toList) :
    ofJson text = .ok unit ∧
      ∀ {keyed : String}, Spelled unit.toJson.tree.tokens keyed.toList →
        ofJson keyed = ofJson text := by
  have hread := ofJson_spelled (Value.isWhole_tree _) hspelled (unitShape_positional hfits)
  refine ⟨hread, fun hkeyed => ?_⟩
  rw [hread]
  exact ofJson_spelled (Value.isWhole_tree _) hkeyed (unitShape_read hfits)

def Unit.duet : Unit :=
  ⟨some ["pit", "stage"],
    [⟨["final"], "Duet", some ⟨"Piece", 0⟩,
      [.field ⟨["static"], ⟨"Voice", 1⟩, [⟨"first", none⟩, ⟨"second", some "first"⟩]⟩,
       .constructor ⟨[], "Duet", []⟩,
       .method ⟨["public"], some ⟨"Voice", 0⟩, "sing", [⟨["final"], ⟨"int", 2⟩, "bars"⟩]⟩]⟩]⟩

theorem Unit.ofJson_positional_duet :
    duet.Fits ∧ ofJson duet.positional.indented = .ok duet ∧
      ofJson duet.toJson.compact = ofJson duet.positional.indented ∧
      duet.positional.compact = "[[[\"pit\",\"stage\"]],[[[\"final\"],\"Duet\",[[\"Piece\",0]]," ++
        "[[\"field\",[\"static\"],[\"Voice\",1],[[\"first\",null],[\"second\",[\"first\"]]]]," ++
        "[\"constructor\",[],\"Duet\",[]]," ++
        "[\"method\",[\"public\"],\x7b\"type\":[\"Voice\",0]\x7d,\"sing\"," ++
        "[[[\"final\"],[\"int\",2],\"bars\"]]]]]]]" := by
  have hfits : duet.Fits := by
    simp [Fits, duet, Class.Fits, Member.Fits, TypeExpr.Fits, wordLimit]
  obtain ⟨hread, hkeyed⟩ := ofJson_positional hfits duet.positional.spelled_indented
  exact ⟨hfits, hread, hkeyed duet.toJson.spelled_compact, by decide +kernel⟩

end ClassLayout.Source
