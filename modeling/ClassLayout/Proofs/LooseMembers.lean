import ClassLayout.Proofs.Json.AnyOrder
import ClassLayout.Proofs.RoundTrip

/-!
# Members written loosely

The entries of a member may come in any order, its kind wherever one likes among them. An empty list
of modifiers or parameters may be left out, and entries of other keys may be added, whatever they
hold: also keys that another kind of member has, and the same key again. All these records are read
as the same member (`readMember_loose`), in any text of the unit around it.
-/

namespace ClassLayout.Source

open Json

/-! ### Loose records -/

/-- The record stands for the member. Of the 127 containers that may be open at once, five are open
around a value of it. -/
inductive Member.Loose (member : Member) : Tree → Prop
  | record (keeps : String → Bool) {others entries : List (String × Tree)}
      (hkeeps : ∀ field ∈ member.fieldTrees, keeps field.1 = false →
        field = ("modifiers", .list .done) ∨ field = ("parameters", .list .done))
      (hothers : ∀ other ∈ others, other.1 ≠ "kind" ∧ other.1 ∉ member.fieldTrees.map Prod.fst ∧
        other.2.Nested (127 - 5))
      (hentries : entries.Perm (("kind", .text (some member.kindName)) ::
        (member.fieldTrees.filter (keeps ·.1) ++ others))) :
      Loose member (.record (.ofList entries))

/-- The class in its canonical form, but for its members. -/
def Class.Loose (decl : Class) (tree : Tree) : Prop :=
  ∃ members, List.Forall₂ Member.Loose decl.members members ∧
    tree = .record (.ofList [("modifiers", (Value.texts decl.modifiers).tree),
      ("name", .text (some decl.name)), ("extension", (parentToJson decl.parent?).tree),
      ("members", .list (.ofList members))])

def Unit.Loose (unit : Unit) (tree : Tree) : Prop :=
  ∃ classes, List.Forall₂ Class.Loose unit.classes classes ∧
    tree = .record (.ofList [("package", (packageToJson unit.package?).tree),
      ("classes", .list (.ofList classes))])

/-! ### The fields of a member -/

section Lawful

attribute [local simp] FieldReader.Apart FieldReader.marks_part FieldReader.passes_part

theorem fieldShape_lawful : fieldShape.Lawful := ⟨by simp [fieldShape], by simp [fieldShape]⟩

theorem constructorShape_lawful : constructorShape.Lawful :=
  ⟨by simp [constructorShape], by simp [constructorShape]⟩

theorem methodShape_lawful : methodShape.Lawful := ⟨by simp [methodShape], by simp [methodShape]⟩

end Lawful

section Idle

variable {entry : String × Tree}

theorem fieldShape_idle
    (hentry : entry = ("modifiers", .list .done) ∨ entry = ("parameters", .list .done)) :
    fieldShape.Idle entry := by
  rcases hentry with rfl | rfl
  · apply Shape.idle_part
    · exact rfl
    · exact rfl
    · intro parts hmodifiers
      simp_all [fieldShape]
  · exact Shape.idle_other rfl _

theorem constructorShape_idle
    (hentry : entry = ("modifiers", .list .done) ∨ entry = ("parameters", .list .done)) :
    constructorShape.Idle entry := by
  rcases hentry with rfl | rfl <;>
  · apply Shape.idle_part
    · exact rfl
    · exact rfl
    · intro parts hempty
      simp_all [constructorShape]

theorem methodShape_idle
    (hentry : entry = ("modifiers", .list .done) ∨ entry = ("parameters", .list .done)) :
    methodShape.Idle entry := by
  rcases hentry with rfl | rfl <;>
  · apply Shape.idle_part
    · exact rfl
    · exact rfl
    · intro parts hempty
      simp_all [methodShape]

end Idle

theorem readMemberAs_loose {member : Member} (hfits : member.Fits)
    {kept idle others entries : List (String × Tree)}
    (hfields : member.fieldTrees.Perm (kept ++ idle))
    (hidle : ∀ entry ∈ idle,
      entry = ("modifiers", .list .done) ∨ entry = ("parameters", .list .done))
    (hothers : ∀ other ∈ others,
      other.1 ∉ member.fieldTrees.map Prod.fst ∧ other.2.isWhole = true)
    (hentries : (kept ++ others).Perm entries) :
    readMemberAs member.kind (.record (.ofList entries)) = .ok member := by
  have hread := readMemberAs_fieldTrees hfits
  cases member with
  | field decl =>
      obtain ⟨_, hdecl, ⟨⟩⟩ := map_eq_ok_iff.mp hread
      exact map_eq_ok_iff.mpr ⟨_, fieldShape_lawful.read_loose hdecl hfields
        (fun entry hentry => fieldShape_idle (hidle entry hentry)) hothers hentries, rfl⟩
  | constructor decl =>
      obtain ⟨_, hdecl, ⟨⟩⟩ := map_eq_ok_iff.mp hread
      exact map_eq_ok_iff.mpr ⟨_, constructorShape_lawful.read_loose hdecl hfields
        (fun entry hentry => constructorShape_idle (hidle entry hentry)) hothers hentries, rfl⟩
  | method decl =>
      obtain ⟨_, hdecl, ⟨⟩⟩ := map_eq_ok_iff.mp hread
      exact map_eq_ok_iff.mpr ⟨_, methodShape_lawful.read_loose hdecl hfields
        (fun entry hentry => methodShape_idle (hidle entry hentry)) hothers hentries, rfl⟩

/-! ### Members -/

theorem Member.Loose.isWhole {member : Member} {tree : Tree} (hloose : member.Loose tree) :
    tree.isWhole = true := by
  cases hloose with
  | record keeps _ hothers hentries =>
      rw [Tree.isWhole, Entries.isWhole_ofList, List.all_eq_true]
      intro entry hentry
      rcases List.mem_cons.mp (hentries.mem_iff.mp hentry) with rfl | hentry
      · rfl
      rcases List.mem_append.mp hentry with hfield | hother
      · obtain ⟨field, -, rfl⟩ := List.mem_map.mp (List.mem_of_mem_filter hfield)
        exact field.2.isWhole_tree
      · exact (hothers entry hother).2.2.isWhole

theorem readMember_loose {member : Member} (hfits : member.Fits) {tree : Tree}
    (hloose : member.Loose tree) : readMember tree = .ok member := by
  cases hloose with
  | @record keeps others entries hkeeps hothers hentries =>
      have hkind : (kindKey, Tree.text (some member.kindName)) ∈ entries :=
        hentries.mem_iff.mpr List.mem_cons_self
      obtain ⟨before, after, rfl⟩ := List.append_of_mem hkind
      have hrest : (before ++ after).Perm (member.fieldTrees.filter (keeps ·.1) ++ others) :=
        (List.perm_middle.symm.trans hentries).cons_inv
      have hplain : ∀ entry ∈ before ++ after,
          entry.1 ≠ kindKey ∧ entry.2.isPlain memberRoom = true := by
        intro entry hentry
        rcases List.mem_append.mp (hrest.mem_iff.mp hentry) with hfield | hother
        · exact Member.plain_fieldTrees hfits entry (List.mem_of_mem_filter hfield)
        · obtain ⟨hkey, -, hnested⟩ := hothers entry hother
          exact ⟨hkey, hnested.isPlain⟩
      rw [readMember_record (readKind_kindName member)
        (fun entry hentry => hplain entry (List.mem_append_left _ hentry))
        (fun entry hentry => hplain entry (List.mem_append_right _ hentry))]
      have hfields := (List.filter_append_perm (keeps ·.1) member.fieldTrees).symm
      refine readMemberAs_loose hfits hfields ?_ ?_ hrest.symm
      · intro entry hentry
        obtain ⟨hmem, hleft⟩ := List.mem_filter.mp hentry
        exact hkeeps entry hmem (by simpa using hleft)
      · intro other hother
        obtain ⟨-, hkey, hnested⟩ := hothers other hother
        exact ⟨hkey, hnested.isWhole⟩

/-! ### Classes and units -/

theorem Class.Loose.isWhole {decl : Class} {tree : Tree} (hloose : decl.Loose tree) :
    tree.isWhole = true := by
  obtain ⟨members, hmembers, rfl⟩ := hloose
  have hlist := Items.isWhole_ofList_of_forall₂ hmembers Member.Loose.isWhole
  simp [Tree.isWhole, Entries.ofList, Entries.isWhole, Value.isWhole_tree, hlist]

theorem Unit.Loose.isWhole {unit : Unit} {tree : Tree} (hloose : unit.Loose tree) :
    tree.isWhole = true := by
  obtain ⟨classes, hclasses, rfl⟩ := hloose
  have hlist := Items.isWhole_ofList_of_forall₂ hclasses Class.Loose.isWhole
  simp [Tree.isWhole, Entries.ofList, Entries.isWhole, Value.isWhole_tree, hlist]

theorem classShape_loose {decl : Class} (hfits : decl.Fits) {tree : Tree}
    (hloose : decl.Loose tree) : classShape.read .direct tree = .ok decl := by
  obtain ⟨members, hmembers, rfl⟩ := hloose
  refine classShape_record (readParent_tree hfits.1) (readList_ofList ?_)
  have hboth := (List.forall₂_and_left _ _).mpr ⟨hfits.2, hmembers⟩
  exact hboth.imp fun _ _ h => readMember_loose h.1 h.2

theorem unitShape_loose {unit : Unit} (hfits : unit.Fits) {tree : Tree}
    (hloose : unit.Loose tree) : unitShape.read .direct tree = .ok unit := by
  obtain ⟨classes, hclasses, rfl⟩ := hloose
  refine unitShape_record (readPackage_tree unit.package?) (readList_ofList ?_)
  have hboth := (List.forall₂_and_left _ _).mpr ⟨hfits, hclasses⟩
  exact hboth.imp fun _ _ h => classShape_loose h.1 h.2

/-- Whatever the order of its entries, whatever else stands among them, a member is read as what it
is, in every text of the unit. -/
theorem Unit.ofJson_loose {unit : Unit} (hfits : unit.Fits) {tree : Tree} (hloose : unit.Loose tree)
    {text : String} (hspelled : Spelled tree.tokens text.toList) : ofJson text = .ok unit :=
  ofJson_spelled hloose.isWhole hspelled (unitShape_loose hfits hloose)

def Unit.stage : Unit := ⟨none, [⟨[], "Stage", none, [.method ⟨[], none, "play", []⟩]⟩]⟩

/-- The method is written without its empty lists, and with two values under a key that fields
have. -/
def Unit.stageTree : Tree :=
  .record (.ofList [("package", .null), ("classes", .list (.ofList [.record (.ofList [
    ("modifiers", .list .done), ("name", .text (some "Stage")), ("extension", .null),
    ("members", .list (.ofList [.record (.ofList [
      ("declarators", .number ⟨true, [1], [5], some 3⟩), ("kind", .text (some "method")),
      ("result", .text (some "void")), ("name", .text (some "play")),
      ("declarators", .list (.ofList [.record (.ofList [("kind", .text (some "𝄞"))])]))])]))])]))])

def Unit.stageText : String :=
  "\x7b\"package\":null,\"classes\":[\x7b\"modifiers\":[],\"name\":\"Stage\"," ++
    "\"extension\":null,\"members\":[\x7b\"declarators\":-1.5E+03 ,\"kind\":\"method\"," ++
    "\"result\":\"void\",\"name\":\"play\",\"declarators\":[\x7b\"kind\":\"\\ud834\\uDD1E\"\x7d]" ++
    "\x7d]\x7d]\x7d"

theorem Unit.stage_loose : stage.Loose stageTree := by
  refine ⟨_, .cons ⟨_, .cons (.record (fun key => key == "result" || key == "name") ?_ ?_
    ((@List.perm_middle _ _ [_] _).trans (.cons _ (@List.perm_middle _ _ [_, _] [_]).symm))) .nil,
    rfl⟩ .nil, rfl⟩
  · simp [Member.fieldTrees, Member.fieldsToJson, Value.texts, Value.tree, itemTrees]
  · have hnumber : Tree.Nested (127 - 5) (.number ⟨true, [1], [5], some 3⟩) :=
      .number (by decide +kernel)
    have hclef : Tree.Nested (127 - 5)
        (.list (.ofList [.record (.ofList [("kind", .text (some "𝄞"))])])) :=
      .list (by simpa using .record (by simpa using .text "𝄞"))
    simp [Member.fieldTrees, Member.fieldsToJson, hnumber, hclef]

theorem Unit.spelled_stageText : Spelled stageTree.tokens stageText.toList := by
  have hnumber : (⟨true, [1], [5], some 3⟩ : Numeral).Spelled
      ['-', '1', '.', '5', 'E', '+', '0', '3'] :=
    .mk true ⟨by simp, by simp, by simp⟩ (by simp)
      (.present (Or.inr rfl) .plus (by simp : [0, 3] ≠ []) (by simp))
  have hclef : StringSpelled "𝄞".toList
      ['\\', 'u', 'd', '8', '3', '4', '\\', 'u', 'D', 'D', '1', 'E'] :=
    .pair (.mk rfl rfl rfl rfl) (.mk rfl rfl rfl rfl) (by decide) (by decide) (by decide) .done
  have hspelled : Spelled stageTree.tokens _ :=
    .char rfl <| .quoted "package" <| .char rfl <| .word rfl <| .char rfl <| .quoted "classes" <|
    .char rfl <| .char rfl <| .char rfl <| .quoted "modifiers" <| .char rfl <| .char rfl <|
    .char rfl <| .char rfl <| .quoted "name" <| .char rfl <| .quoted "Stage" <| .char rfl <|
    .quoted "extension" <| .char rfl <| .word rfl <| .char rfl <| .quoted "members" <| .char rfl <|
    .char rfl <| .char rfl <| .quoted "declarators" <| .char rfl <|
    .number hnumber (by simp [Ends, Scanner.isMark]) <| .blank (c := ' ') rfl <| .char rfl <|
    .quoted "kind" <| .char rfl <| .quoted "method" <| .char rfl <| .quoted "result" <| .char rfl <|
    .quoted "void" <| .char rfl <| .quoted "name" <| .char rfl <| .quoted "play" <| .char rfl <|
    .quoted "declarators" <| .char rfl <| .char rfl <| .char rfl <| .quoted "kind" <| .char rfl <|
    .string hclef <| .char rfl <| .char rfl <| .char rfl <| .char rfl <| .char rfl <| .char rfl <|
    .char rfl .done
  have hlines (a b c d : String) :
      (a ++ b ++ c ++ d).toList = a.toList ++ b.toList ++ c.toList ++ d.toList := by
    simp only [String.toList_append]
  convert hspelled using 1
  exact (hlines _ _ _ _).trans (by decide +kernel)

theorem Unit.ofJson_loose_stage :
    stage.Fits ∧ stage.Loose stageTree ∧ Spelled stageTree.tokens stageText.toList ∧
      ofJson stageText = .ok stage := by
  have hfits : stage.Fits := by simp [Fits, stage, Class.Fits, Member.Fits]
  exact ⟨hfits, stage_loose, spelled_stageText, ofJson_loose hfits stage_loose spelled_stageText⟩

end ClassLayout.Source
