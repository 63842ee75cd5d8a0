import ClassLayout.Proofs.MemberSpelling
import ClassLayout.Proofs.Outcome

/-!
# Units built by hand

A builder takes types and package names as they are written. Both are taken apart and can be put
together again. A type loses all its brackets at the end, so its name has none left there, and the
types that come back from their spellings are those with such names. A package name may have points
anywhere: what stands between them, and be it nothing, is a segment. So it does not show in what is
collected whether a class was built or read.
-/

namespace ClassLayout

namespace Source

/-! ### Types -/

namespace TypeExpr

variable {text : List Char}

theorem brackets_succ (n : Nat) : brackets (n + 1) = brackets n ++ ['[', ']'] := by
  induction n with
  | zero => rfl
  | succ n ih => exact congrArg (fun tail => '[' :: ']' :: tail) ih

/-- What is left and the brackets that were stripped make up the text, which is read backwards. -/
theorem reverse_stripBrackets (text : List Char) :
    (stripBrackets text).2.reverse ++ brackets (stripBrackets text).1 = text.reverse := by
  fun_induction stripBrackets text with
  | case1 rest n name hstrip ih =>
      rw [hstrip] at ih
      rw [brackets_succ, ← List.append_assoc, ih]
      simp
  | case2 => exact List.append_nil _

theorem not_prefix_stripBrackets (text : List Char) : ¬ [']', '['] <+: (stripBrackets text).2 := by
  fun_induction stripBrackets text with
  | case1 rest n name hstrip ih => rwa [hstrip] at ih
  | case2 text hends =>
      rintro ⟨rest, rfl⟩
      exact hends rest rfl

theorem stripBrackets_reverse_brackets (n : Nat) (hends : ¬ [']', '['] <+: text) :
    stripBrackets ((brackets n).reverse ++ text) = (n, text) := by
  induction n with
  | zero =>
      change stripBrackets text = (0, text)
      rw [stripBrackets]
      rintro rest rfl
      exact hends (List.prefix_append [']', '['] rest)
  | succ n ih =>
      -- the last pair of the spelling is the first that is stripped
      rw [brackets_succ, List.reverse_append]
      exact congrArg (fun stripped => (stripped.1 + 1, stripped.2)) ih

theorem ofSpelling_eq (spelling : String) :
    ofSpelling spelling =
      ⟨String.ofList (stripBrackets spelling.toList.reverse).2.reverse,
        (stripBrackets spelling.toList.reverse).1⟩ := rfl

private theorem reverse_prefix_iff : [']', '['] <+: text.reverse ↔ ['[', ']'] <:+ text := by
  rw [← List.reverse_prefix]
  rfl

theorem spelling_ofSpelling (spelling : String) : (ofSpelling spelling).spelling = spelling := by
  rw [ofSpelling_eq, TypeExpr.spelling, String.toList_ofList, reverse_stripBrackets,
    List.reverse_reverse, String.ofList_toList]

theorem not_suffix_ofSpelling (spelling : String) :
    ¬ ['[', ']'] <:+ (ofSpelling spelling).name.toList := by
  rw [ofSpelling_eq, String.toList_ofList, ← reverse_prefix_iff, List.reverse_reverse]
  exact not_prefix_stripBrackets _

theorem ofSpelling_spelling {type : TypeExpr} (hname : ¬ ['[', ']'] <:+ type.name.toList) :
    ofSpelling type.spelling = type := by
  have hstrip := stripBrackets_reverse_brackets type.dimensions (mt reverse_prefix_iff.mp hname)
  rw [ofSpelling_eq, TypeExpr.spelling, String.toList_ofList, List.reverse_append, hstrip,
    List.reverse_reverse, String.ofList_toList]

end TypeExpr

/-! ### Members -/

def spelledParams (params : List Param) : List (String × String) :=
  params.map fun param => (param.type.spelling, param.name)

/-- One more member by the means of a builder, which takes types by their spellings and one name for
each field. -/
def Class.build (decl : Class) : Member → Class
  | .field field => field.declarators.foldl (fun decl declarator =>
      decl.withField field.modifiers field.type.spelling declarator.name declarator.initial?) decl
  | .constructor make => decl.withConstructor make.modifiers (spelledParams make.params)
  | .method method => decl.withMethod method.modifiers (method.result?.map TypeExpr.spelling)
      method.name (spelledParams method.params)

def Class.rebuilt (decl : Class) : Class :=
  decl.members.foldl Class.build { decl with members := [] }

end Source

open Source

namespace Declaration

theorem ofSource_withMember (decl : Source.Class) (member : Source.Member) :
    ofSource (decl.withMember member) =
      { ofSource decl with members := addMember decl.name (ofSource decl).members member } := by
  simp only [ofSource, Class.withMember, List.foldl_append, List.foldl_cons, List.foldl_nil]

theorem params_spelledParams (owner : String) (list : List Source.Param) :
    params owner (Source.params (spelledParams list)) = params owner list := by
  simp [params, Source.params, spelledParams, TypeExpr.spelling_ofSpelling]

theorem ofSource_build_field (decl : Source.Class) (field : FieldDecl) :
    ofSource (decl.build (.field field)) =
      { ofSource decl with members := addMember decl.name (ofSource decl).members (.field field) } := by
  obtain ⟨modifiers, type, declarators⟩ := field
  -- both sides now add one declared name after the other
  rw [← foldl_singles]
  induction declarators generalizing decl with
  | nil => rfl
  | cons first rest ih =>
      simp only [Class.build, FieldDecl.singles, List.foldl_cons, List.map_cons] at ih ⊢
      rw [ih, Class.withField, ofSource_withMember]
      simp only [Class.withMember, addMember, fields, TypeExpr.spelling_ofSpelling]

theorem ofSource_build (decl : Source.Class) (member : Source.Member) :
    ofSource (decl.build member) =
      { ofSource decl with members := addMember decl.name (ofSource decl).members member } := by
  cases member with
  | field field => exact ofSource_build_field decl field
  | constructor make =>
      rw [Class.build, Class.withConstructor, ofSource_withMember, addMember, addMember, constructor,
        constructor, params_spelledParams]
  | method method =>
      rw [Class.build, Class.withMethod, ofSource_withMember, addMember, addMember,
        Declaration.method, Declaration.method, params_spelledParams]
      cases method.result? <;> simp [TypeExpr.spelling_ofSpelling]

theorem ofSource_foldl_build (decl : Source.Class) (members : List Source.Member) :
    ofSource (members.foldl Class.build decl) =
      { ofSource decl with members := members.foldl (addMember decl.name) (ofSource decl).members } := by
  induction members generalizing decl with
  | nil => rfl
  | cons first rest ih =>
      have hname : (decl.build first).name = decl.name := congrArg name (ofSource_build decl first)
      rw [List.foldl_cons, ih, hname, ofSource_build, List.foldl_cons]

/-- It does not show whether the members of a class were built. -/
theorem ofSource_rebuilt (decl : Source.Class) : ofSource decl.rebuilt = ofSource decl :=
  ofSource_foldl_build { decl with members := [] } decl.members

end Declaration

/-- A type that is made from a spelling has that spelling, and its name does not end in brackets.
A type is made from its own spelling exactly when its name does not end in brackets. And whatever
types a class has, all that is collected of it is the same when its members are built from their
spellings. -/
theorem Source.TypeExpr.ofSpelling_inverse :
    (∀ spelling : String, (ofSpelling spelling).spelling = spelling ∧
      ¬ ['[', ']'] <:+ (ofSpelling spelling).name.toList) ∧
    (∀ type : TypeExpr, ofSpelling type.spelling = type ↔ ¬ ['[', ']'] <:+ type.name.toList) ∧
    ∀ decl : Class, Declaration.ofSource decl.rebuilt = Declaration.ofSource decl := by
  refine ⟨fun spelling => ⟨spelling_ofSpelling spelling, not_suffix_ofSpelling spelling⟩, ?_,
    Declaration.ofSource_rebuilt⟩
  refine fun type => ⟨fun hback => ?_, ofSpelling_spelling⟩
  rw [← hback]
  exact not_suffix_ofSpelling type.spelling

example : TypeExpr.ofSpelling "][[][]" = ⟨"][", 2⟩ ∧ TypeExpr.ofSpelling "[]" = ⟨"", 1⟩ := by decide

namespace Source

/-! ### Packages -/

theorem splitPoints_eq_splitOn (text : List Char) : splitPoints text = text.splitOn '.' := by
  induction text with
  | nil => simp [splitPoints]
  | cons c rest ih =>
      rw [splitPoints, List.splitOn, List.splitOnP_cons_eq_if_modifyHead, ← List.splitOn, ih]
      cases hsplit : rest.splitOn '.' with
      | nil => exact absurd hsplit (List.splitOn_ne_nil _ _)
      | cons segment segments => simp

theorem point_not_mem_of_mem_splitPoints {text segment : List Char}
    (hsegment : segment ∈ splitPoints text) : '.' ∉ segment := by
  fun_induction splitPoints text generalizing segment with
  | case1 =>
      rw [List.mem_singleton.mp hsegment]
      exact List.not_mem_nil
  | case2 rest ih =>
      rcases List.mem_cons.mp hsegment with rfl | hsegment
      · exact List.not_mem_nil
      · exact ih hsegment
  | case3 c rest hc first others hsplit ih =>
      rw [hsplit] at ih
      rcases List.mem_cons.mp hsegment with rfl | hsegment
      · exact List.not_mem_cons_of_ne_of_not_mem (Ne.symm hc) (ih List.mem_cons_self)
      · exact ih (List.mem_cons_of_mem first hsegment)
  | case4 c rest hc hsplit =>
      rw [splitPoints_eq_splitOn] at hsplit
      exact absurd hsplit (List.splitOn_ne_nil _ _)

theorem joinPoints_splitPoints (text : String) :
    joinPoints ((splitPoints text.toList).map String.ofList) = text := by
  have hmap : ((splitPoints text.toList).map String.ofList).map String.toList =
      splitPoints text.toList := by
    rw [List.map_map]
    exact List.map_id'' (fun _ => String.toList_ofList) _
  rw [joinPoints, hmap, splitPoints_eq_splitOn, List.intercalate_splitOn, String.ofList_toList]

namespace Unit

theorem packageName_inPackage (package : String) : (inPackage package).packageName = package := by
  rw [inPackage, packageName]
  by_cases hempty : package.isEmpty = true
  · simp only [if_pos hempty]
    exact (String.isEmpty_iff.mp hempty).symm
  · simp only [if_neg hempty]
    exact joinPoints_splitPoints package

theorem foldl_withClass (unit : Unit) (classes : List Class) :
    classes.foldl withClass unit = { unit with classes := unit.classes ++ classes } := by
  induction classes generalizing unit with
  | nil => rw [List.foldl_nil, List.append_nil]
  | cons first rest ih => rw [List.foldl_cons, ih, withClass, List.append_assoc, List.singleton_append]

theorem point_not_mem_of_inPackage {package : String} {segments : List String}
    (hpackage : (inPackage package).package? = some segments) {segment : String}
    (hsegment : segment ∈ segments) : '.' ∉ segment.toList := by
  obtain ⟨-, heq⟩ := Option.ite_none_left_eq_some.mp hpackage
  obtain rfl := Option.some.inj heq
  obtain ⟨text, htext, rfl⟩ := List.mem_map.mp hsegment
  rw [String.toList_ofList]
  exact point_not_mem_of_mem_splitPoints htext

end Unit

end Source

/-- A package name comes back from its segments, none of which has a point in it. Classes that are
added are collected unless a name is repeated, and what is collected has the package name. -/
theorem Source.Unit.inPackage_kept (package : String) :
    (inPackage package).packageName = package ∧
    (∀ segments, (inPackage package).package? = some segments →
      ∀ segment ∈ segments, '.' ∉ segment.toList) ∧
    ∀ (classes : List Class) (decls : Declarations),
      Declarations.ofUnit (classes.foldl withClass (inPackage package)) = .ok decls ↔
        (∀ place, ¬ Clashes rootNames classes place) ∧
          decls = ⟨package, classes.map Declaration.ofSource⟩ := by
  have hname := packageName_inPackage package
  refine ⟨hname, fun _ hpackage _ => point_not_mem_of_inPackage hpackage, fun classes decls => ?_⟩
  -- the builder starts without classes, so the added ones are all that the unit has
  have hunit : classes.foldl withClass (inPackage package) = { inPackage package with classes } :=
    foldl_withClass (inPackage package) classes
  have hkept : ({ inPackage package with classes } : Unit).packageName = package := hname
  rw [hunit, Declarations.ofUnit_eq_ok_iff, hkept]
  rfl

/-- Points at both ends and two in a row, and two classes. -/
theorem Source.Unit.inPackage_kept_points :
    (inPackage ".a..b.").package? = some ["", "a", "", "b", ""] ∧
      (inPackage ".a..b.").packageName = ".a..b." ∧ '.' ∉ "a".toList ∧
      ∃ decls, Declarations.ofUnit
        (([.named "Dish", .named "Menu"] : List Class).foldl withClass (inPackage ".a..b.")) =
          .ok decls ∧ decls.package = ".a..b." := by
  obtain ⟨hname, hsegments, hcollect⟩ := inPackage_kept ".a..b."
  have hpackage : (inPackage ".a..b.").package? = some ["", "a", "", "b", ""] := by decide
  refine ⟨hpackage, hname, hsegments _ hpackage "a" (by decide), _, (hcollect _ _).mpr ⟨?_, rfl⟩, rfl⟩
  exact Declaration.not_clashes_of_collect rfl

end ClassLayout
