import ClassLayout.Program
import ClassLayout.Proofs.Declaration
import ClassLayout.Proofs.Order
import Mathlib.Data.List.Find

/-!
# What becomes of a unit

A unit is refused for a repeated name, then for a parent that nobody declares, then for parents that
never lead to a root; otherwise it has a program. The conditions speak of the unit as a whole. What
the passes leave behind when they are stuck is exactly the classes that are not grounded, in source
order, so the search for a reason among them finds what is first in the unit.
-/

namespace ClassLayout

namespace Source.Unit

/-- The class at a place has the name of a root or of a class before it. -/
def Repeats (unit : Unit) (place : Nat) : Prop := Clashes rootNames unit.classes place

/-- Whether the class extends a name that is neither a root's nor declared. -/
def dangles (unit : Unit) (decl : Class) : Bool :=
  decl.parent?.any fun parent => !(rootNames ++ unit.classes.map Class.name).contains parent.name

/-- Following parents from a name leads to a root. -/
inductive Grounded (unit : Unit) : String → Prop
  | root {name : String} (hroot : name ∈ rootNames) : Grounded unit name
  | child {decl : Class} (hdecl : decl ∈ unit.classes) (hparent : Grounded unit decl.parentName) :
      Grounded unit decl.name

/-- The work at the start: only the roots are placed. -/
def work (unit : Unit) : Worklist := ⟨.seeded, unit.classes.map Declaration.ofSource⟩

variable {unit : Unit} {last : Worklist}

theorem names_work (unit : Unit) : unit.work.names = rootNames ++ unit.classes.map Class.name := by
  rw [Worklist.names, work, List.map_map]
  rfl

theorem nodup_names_work (hfree : ∀ place, ¬ unit.Repeats place) : unit.work.names.Nodup := by
  rw [names_work]
  exact nodup_of_not_clashes (by decide) hfree

theorem eq_of_name_eq (hnodup : unit.work.names.Nodup) {one other : Class}
    (hone : one ∈ unit.classes) (hother : other ∈ unit.classes) (hname : one.name = other.name) :
    one = other := by
  rw [names_work] at hnodup
  exact List.inj_on_of_nodup_map (List.nodup_append.mp hnodup).2.1 hone hother hname

/-! ### Grounded names are the placed ones -/

theorem Grounded.mem_names {name : String} (hgrounded : unit.Grounded name) :
    name ∈ rootNames ++ unit.classes.map Class.name := by
  cases hgrounded with
  | root hroot => exact List.mem_append_left _ hroot
  | child hdecl _ => exact List.mem_append_right _ (List.mem_map_of_mem hdecl)

theorem Grounded.of_headings {other : Unit}
    (hheadings : unit.classes.map Class.heading = other.classes.map Class.heading) {name : String}
    (hgrounded : unit.Grounded name) : other.Grounded name := by
  induction hgrounded with
  | root hroot => exact .root hroot
  | @child decl hdecl _ ih =>
      have hmem := List.mem_map_of_mem (f := Class.heading) hdecl
      rw [hheadings] at hmem
      obtain ⟨twin, htwin, hsame⟩ := List.mem_map.mp hmem
      obtain ⟨hname, hparent⟩ := Prod.mk.inj hsame
      rw [← hname]
      exact .child htwin (hparent ▸ ih)

theorem Grounded.parent (hnodup : unit.work.names.Nodup) {decl : Class}
    (hdecl : decl ∈ unit.classes) (hgrounded : unit.Grounded decl.name) :
    unit.Grounded decl.parentName := by
  generalize hname : decl.name = name at hgrounded
  cases hgrounded with
  | root hroot =>
      rw [names_work] at hnodup
      exact absurd hname
        ((List.nodup_append.mp hnodup).2.2 _ hroot _ (List.mem_map_of_mem hdecl)).symm
  | child hother hparent =>
      rw [eq_of_name_eq hnodup hdecl hother hname]
      exact hparent

theorem grounded_work_iff {name : String} : unit.work.Grounded name ↔ unit.Grounded name := by
  constructor
  · intro hgrounded
    induction hgrounded with
    | placed hroot => exact .root hroot
    | child hdecl _ ih =>
        obtain ⟨source, hsource, rfl⟩ := List.mem_map.mp hdecl
        exact .child hsource ih
  · intro hgrounded
    induction hgrounded with
    | root hroot => exact .placed hroot
    | @child decl hdecl _ ih =>
        have hwaits : Declaration.ofSource decl ∈ unit.work.pending := List.mem_map_of_mem hdecl
        exact .child hwaits ih

theorem grounded_of_mem_names (hnodup : unit.work.names.Nodup) (hrun : unit.work.Run last)
    {name : String} (hname : name ∈ last.registry.names) : unit.Grounded name :=
  grounded_work_iff.mp (hrun.grounded_of_mem_names (Worklist.fresh_of_nodup_names hnodup) hname)

theorem grounded_iff (hnodup : unit.work.names.Nodup) (hrun : unit.work.Run last)
    (hstuck : last.Stuck) {name : String} :
    unit.Grounded name ↔ name ∈ last.registry.names := by
  rw [← grounded_work_iff]
  exact hrun.grounded_iff (Worklist.fresh_of_nodup_names hnodup) hstuck

end Source.Unit

/-! ### The reason that is found among what waits -/

namespace Declaration

def orphaned (known : String → Bool) (decl : Declaration) : Bool :=
  decl.parent?.any fun parent => !known parent

theorem orphaned_eq {known : String → Bool} {decl : Declaration} {parent : String}
    (hparent : decl.parent? = some parent) : orphaned known decl = !known parent := by
  rw [orphaned, hparent, Option.any_some]

theorem orphan?_eq (registry : Registry) (links : List (String × String))
    (decls : List Declaration) :
    orphan? registry links decls =
      (decls.find? (orphaned fun parent =>
        registry.contains parent || (links.lookup parent).isSome)).bind
      fun decl => decl.parent?.map (decl.name, ·) := by
  induction decls with
  | nil => rfl
  | cons decl rest ih =>
      rw [orphan?]
      cases hparent : decl.parent? with
      | none => rw [List.find?_cons_of_neg (by simp [orphaned, hparent]), ← ih]
      | some parent =>
          by_cases hknown : (registry.contains parent || (links.lookup parent).isSome) = true
          · rw [List.find?_cons_of_neg (by rw [orphaned_eq hparent, hknown]; decide), ← ih]
            exact if_pos hknown
          · rw [List.find?_cons_of_pos
              (by rw [orphaned_eq hparent, eq_false_of_ne_true hknown]; rfl),
              Option.bind_some, hparent]
            exact if_neg hknown

theorem lookup_links_isSome {decls : List Declaration}
    (hparents : ∀ decl ∈ decls, ∃ parent, decl.parent? = some parent) (name : String) :
    ((links decls).lookup name).isSome = true ↔ name ∈ decls.map Declaration.name := by
  rw [List.lookup_isSome_iff]
  constructor
  · rintro ⟨link, hlink, hname⟩
    rw [links, List.mem_reverse, List.mem_filterMap] at hlink
    obtain ⟨decl, hdecl, hlink⟩ := hlink
    obtain ⟨parent, -, rfl⟩ := Option.map_eq_some_iff.mp hlink
    exact List.mem_map.mpr ⟨decl, hdecl, (eq_of_beq hname).symm⟩
  · intro hname
    obtain ⟨decl, hdecl, rfl⟩ := List.mem_map.mp hname
    obtain ⟨parent, hparent⟩ := hparents decl hdecl
    refine ⟨(decl.name, parent), ?_, beq_self_eq_true _⟩
    rw [links, List.mem_reverse, List.mem_filterMap]
    exact ⟨decl, hdecl, by rw [hparent, Option.map_some]⟩

theorem diagnose_ne_duplicateClass (registry : Registry) (waiting : List Declaration)
    (name : String) : diagnose registry waiting ≠ .duplicateClass name := by
  unfold diagnose
  dsimp only
  split <;> simp

end Declaration

namespace Worklist

theorem Stuck.exists_parent {work : Worklist} (hstuck : work.Stuck)
    (hbase : baseName ∈ work.registry.names) {decl : Declaration} (hdecl : decl ∈ work.pending) :
    ∃ parent, decl.parent? = some parent := by
  cases hparent : decl.parent? with
  | none =>
      have hnone := hstuck decl hdecl
      rw [Declaration.parentName, hparent] at hnone
      exact absurd hbase hnone
  | some parent => exact ⟨parent, rfl⟩

theorem Stuck.known_iff {work : Worklist} (hstuck : work.Stuck)
    (hbase : baseName ∈ work.registry.names) (name : String) :
    (work.registry.contains name || ((Declaration.links work.pending).lookup name).isSome) =
      work.names.contains name := by
  rw [Bool.eq_iff_iff, Bool.or_eq_true, Registry.contains_iff_mem,
    Declaration.lookup_links_isSome fun _ => hstuck.exists_parent hbase, List.contains_iff_mem,
    names,
    List.mem_append]

end Worklist

namespace Source.Unit

variable {unit : Unit} {last : Worklist}

theorem dangles_eq_orphaned (decl : Class) :
    unit.dangles decl = Declaration.orphaned (unit.work.names.contains ·) (.ofSource decl) := by
  rw [dangles, names_work, Declaration.orphaned, Declaration.ofSource, Option.any_map]

theorem not_grounded_of_dangles (hnodup : unit.work.names.Nodup) {decl : Class}
    (hdecl : decl ∈ unit.classes) (hdangles : unit.dangles decl = true) :
    ¬ unit.Grounded decl.name := by
  intro hgrounded
  have hknown := (hgrounded.parent hnodup hdecl).mem_names
  rw [dangles, Option.any_eq_true] at hdangles
  obtain ⟨parent, hparent, hunknown⟩ := hdangles
  rw [Class.parentName, hparent, Option.map_some, Option.getD_some,
    ← List.contains_iff_mem] at hknown
  rw [hknown] at hunknown
  cases hunknown

/-- In a stuck run the first orphan among what waits is the first dangling class of the unit. -/
theorem find?_orphaned_pending (hnodup : unit.work.names.Nodup) (hrun : unit.work.Run last)
    (hstuck : last.Stuck) :
    last.pending.find? (Declaration.orphaned (last.names.contains ·)) =
      (unit.classes.find? unit.dangles).map Declaration.ofSource := by
  have hknown : (last.names.contains ·) = (unit.work.names.contains ·) := by
    funext name
    rw [Bool.eq_iff_iff, List.contains_iff_mem, List.contains_iff_mem, hrun.names_perm.mem_iff]
  rw [hknown, hrun.pending_eq (Worklist.fresh_of_nodup_names hnodup), List.find?_filter]
  change (unit.classes.map Declaration.ofSource).find? _ = _
  rw [List.find?_map]
  congr 1
  refine List.find?_congr fun decl hdecl => ?_
  rw [Function.comp_apply, ← dangles_eq_orphaned, Bool.decide_and, Bool.decide_eq_true,
    Bool.decide_eq_true, Declaration.ofSource_name]
  cases hdangles : unit.dangles decl with
  | false => exact Bool.and_false _
  | true =>
      have hunplaced := not_grounded_of_dangles hnodup hdecl hdangles
      rw [grounded_iff hnodup hrun hstuck, ← Registry.contains_iff_mem] at hunplaced
      rw [eq_false_of_ne_true hunplaced]
      rfl

theorem diagnose_eq (hnodup : unit.work.names.Nodup) (hrun : unit.work.Run last)
    (hstuck : last.Stuck) :
    (∀ decl parent, unit.classes.find? unit.dangles = some decl → decl.parent? = some parent →
      Declaration.diagnose last.registry last.pending = .unresolvedParent decl.name parent.name) ∧
    (unit.classes.find? unit.dangles = none →
      ∃ cycle, Declaration.diagnose last.registry last.pending = .circularInheritance cycle) := by
  have hbase : baseName ∈ last.registry.names := hrun.names_grow.subset (List.mem_cons_self ..)
  have horphan : Declaration.orphan? last.registry (Declaration.links last.pending) last.pending =
      (unit.classes.find? unit.dangles).bind fun decl =>
        decl.parent?.map fun parent => (decl.name, parent.name) := by
    have hknown := funext (hstuck.known_iff hbase)
    rw [Declaration.orphan?_eq, hknown, find?_orphaned_pending hnodup hrun hstuck, Option.bind_map]
    congr 1
    funext decl
    exact Option.map_map ..
  unfold Declaration.diagnose
  constructor
  · intro decl parent hfirst hparent
    rw [hfirst, Option.bind_some, hparent, Option.map_some] at horphan
    simp only [horphan]
  · intro hnone
    rw [hnone, Option.bind_none] at horphan
    simp only [horphan]
    exact ⟨_, rfl⟩

end Source.Unit

/-! ### The outcome -/

section Outcome

variable {unit : Source.Unit} {entryPoint : String}

theorem Declarations.ofUnit_eq_ok (hfree : ∀ place, ¬ unit.Repeats place) :
    ofUnit unit = .ok ⟨unit.packageName, unit.work.pending⟩ := by
  rw [ofUnit, Declaration.collect_eq_ok hfree]
  rfl

theorem Declarations.not_repeats_of_ofUnit {decls : Declarations} (hunit : ofUnit unit = .ok decls)
    (place : Nat) : ¬ unit.Repeats place := by
  rw [ofUnit] at hunit
  cases hcollect : Declaration.collect rootNames unit.classes with
  | error e => rw [hcollect] at hunit; cases hunit
  | ok classes => exact Declaration.not_clashes_of_collect hcollect place

theorem Declarations.ofUnit_eq_ok_iff {decls : Declarations} :
    ofUnit unit = .ok decls ↔ (∀ place, ¬ unit.Repeats place) ∧
      decls = ⟨unit.packageName, unit.classes.map Declaration.ofSource⟩ := by
  constructor
  · intro hunit
    have hfree := not_repeats_of_ofUnit hunit
    rw [ofUnit_eq_ok hfree] at hunit
    exact ⟨hfree, (Except.ok.inj hunit).symm⟩
  · rintro ⟨hfree, rfl⟩
    exact ofUnit_eq_ok hfree

theorem lower_of_repeats {place : Nat} {decl : Source.Class}
    (hdecl : unit.classes[place]? = some decl) (hrepeats : unit.Repeats place)
    (hbefore : ∀ other < place, ¬ unit.Repeats other) :
    lower unit entryPoint = .error (.duplicateClass decl.name) := by
  rw [lower, Declarations.ofUnit, Declaration.collect_eq_error hdecl hrepeats hbefore]
  rfl

theorem lower_eq_ok (hfree : ∀ place, ¬ unit.Repeats place) {ordered : Linearized}
    (hordered : linearize unit.work.registry unit.work.pending = .ok ordered) :
    lower unit entryPoint =
      .ok (.ofRegistry ordered.registry.layOutFields.buildTables unit.packageName entryPoint) := by
  change linearize .seeded unit.work.pending = .ok ordered at hordered
  rw [lower, Declarations.ofUnit_eq_ok hfree]
  simp only [hordered]

theorem lower_eq_error (hfree : ∀ place, ¬ unit.Repeats place) {setback : Setback}
    (hsetback : linearize unit.work.registry unit.work.pending = .error setback) :
    lower unit entryPoint = .error setback.cause := by
  change linearize .seeded unit.work.pending = .error setback at hsetback
  rw [lower, Declarations.ofUnit_eq_ok hfree]
  simp only [hsetback]

/-- Without repeated names a unit has a program when all its classes are grounded, and otherwise the
reason for the refusal is the one found at the end of a stuck run. -/
theorem lower_cases (entryPoint : String) (hfree : ∀ place, ¬ unit.Repeats place) :
    ((∀ decl ∈ unit.classes, unit.Grounded decl.name) ∧
      ∃ program, lower unit entryPoint = .ok program) ∨
    ∃ last, unit.work.Run last ∧ last.Stuck ∧ (∃ decl ∈ unit.classes, ¬ unit.Grounded decl.name) ∧
      lower unit entryPoint = .error (Declaration.diagnose last.registry last.pending) := by
  have hnodup := Source.Unit.nodup_names_work hfree
  rcases unit.work.linearize_cases hnodup with ⟨result, hresult, hrun⟩ | hfailed
  · left
    refine ⟨fun decl hdecl => ?_, _, lower_eq_ok hfree hresult⟩
    have hname : decl.name ∈ unit.work.names := by
      rw [Source.Unit.names_work]
      exact List.mem_append_right _ (List.mem_map_of_mem hdecl)
    rw [← hrun.names_perm.mem_iff, Worklist.names, List.map_nil, List.append_nil] at hname
    exact Source.Unit.grounded_of_mem_names hnodup hrun hname
  · right
    obtain ⟨last, hlast, hrun, hwait, hstuck⟩ := hfailed
    refine ⟨last, hrun, hstuck, ?_, lower_eq_error hfree hlast⟩
    obtain ⟨waiting, hwaiting⟩ := List.exists_mem_of_ne_nil _ hwait
    have hfresh := Worklist.fresh_of_nodup_names hnodup
    obtain ⟨decl, hdecl, rfl⟩ := List.mem_map.mp (hrun.pending_subset hfresh hwaiting)
    refine ⟨decl, hdecl, fun hgrounded => ?_⟩
    rw [Source.Unit.grounded_iff hnodup hrun hstuck] at hgrounded
    exact (hrun.fresh hfresh).unplaced _ hwaiting hgrounded

theorem exists_lower_iff : (∃ program, lower unit entryPoint = .ok program) ↔
    (∀ place, ¬ unit.Repeats place) ∧ ∀ decl ∈ unit.classes, unit.Grounded decl.name := by
  constructor
  · rintro ⟨program, hlower⟩
    have hfree : ∀ place, ¬ unit.Repeats place := by
      cases hunit : Declarations.ofUnit unit with
      | error e => rw [lower, hunit] at hlower; cases hlower
      | ok decls => exact Declarations.not_repeats_of_ofUnit hunit
    rcases lower_cases entryPoint hfree with ⟨hall, -⟩ | ⟨last, -, -, -, herror⟩
    · exact ⟨hfree, hall⟩
    · rw [herror] at hlower
      cases hlower
  · rintro ⟨hfree, hall⟩
    rcases lower_cases entryPoint hfree with ⟨-, hok⟩ | ⟨last, -, -, ⟨decl, hdecl, hnot⟩, -⟩
    · exact hok
    · exact absurd (hall decl hdecl) hnot

theorem exists_lower_congr {other : Source.Unit} {otherPoint : String}
    (hheadings : unit.classes.map Source.Class.heading = other.classes.map Source.Class.heading) :
    (∃ program, lower unit entryPoint = .ok program) ↔
      ∃ program, lower other otherPoint = .ok program := by
  have hnames : unit.classes.map Source.Class.name = other.classes.map Source.Class.name := by
    have hfirst := congrArg (List.map Prod.fst) hheadings
    rw [List.map_map, List.map_map] at hfirst
    exact hfirst
  rw [exists_lower_iff, exists_lower_iff]
  refine and_congr ?_ ?_
  · exact forall_congr' fun place => not_congr (Source.clashes_congr hnames)
  · rw [← List.forall_mem_map, hnames, List.forall_mem_map]
    have hgrounded : ∀ name, unit.Grounded name ↔ other.Grounded name := fun name =>
      ⟨.of_headings hheadings, .of_headings hheadings.symm⟩
    simp only [hgrounded]

end Outcome

/-- The outcome of lowering, case by case, and what the order of declarations never reports. -/
theorem lower_outcome (unit : Source.Unit) (entryPoint : String) :
    (∀ place decl, unit.classes[place]? = some decl → unit.Repeats place →
      (∀ other < place, ¬ unit.Repeats other) →
      lower unit entryPoint = .error (.duplicateClass decl.name)) ∧
    ((∀ place, ¬ unit.Repeats place) →
      (∀ decl, unit.classes.find? unit.dangles = some decl →
        ∃ parent, decl.parent? = some parent ∧
          lower unit entryPoint = .error (.unresolvedParent decl.name parent.name)) ∧
      (unit.classes.find? unit.dangles = none →
        ((∃ decl ∈ unit.classes, ¬ unit.Grounded decl.name) →
          ∃ cycle, lower unit entryPoint = .error (.circularInheritance cycle)) ∧
        ((∀ decl ∈ unit.classes, unit.Grounded decl.name) →
          ∃ program, lower unit entryPoint = .ok program))) ∧
    ∀ decls setback name, Declarations.ofUnit unit = .ok decls →
      linearize .seeded decls.classes = .error setback → setback.cause ≠ .duplicateClass name := by
  refine ⟨fun place decl => lower_of_repeats, fun hfree => ?_, ?_⟩
  · have hnodup := Source.Unit.nodup_names_work hfree
    rcases lower_cases entryPoint hfree with ⟨hall, hok⟩ | ⟨last, hrun, hstuck, hsome, herror⟩
    · refine ⟨fun decl hfirst => ?_, fun _ => ⟨fun ⟨decl, hdecl, hnot⟩ => ?_, fun _ => hok⟩⟩
      · have hdecl := List.mem_of_find?_eq_some hfirst
        exact absurd (hall decl hdecl)
          (Source.Unit.not_grounded_of_dangles hnodup hdecl (List.find?_some hfirst))
      · exact absurd (hall decl hdecl) hnot
    · obtain ⟨hunresolved, hcycle⟩ := Source.Unit.diagnose_eq hnodup hrun hstuck
      refine ⟨fun decl hfirst => ?_, fun hnone => ⟨fun _ => ?_, fun hall => ?_⟩⟩
      · have hdangles := List.find?_some hfirst
        rw [Source.Unit.dangles, Option.any_eq_true] at hdangles
        obtain ⟨parent, hparent, -⟩ := hdangles
        exact ⟨parent, hparent, herror.trans (congrArg _ (hunresolved decl parent hfirst hparent))⟩
      · obtain ⟨cycle, hcycle⟩ := hcycle hnone
        exact ⟨cycle, herror.trans (congrArg _ hcycle)⟩
      · obtain ⟨decl, hdecl, hnot⟩ := hsome
        exact absurd (hall decl hdecl) hnot
  · intro decls setback name hunit hsetback
    have hfree := Declarations.not_repeats_of_ofUnit hunit
    rw [Declarations.ofUnit_eq_ok hfree] at hunit
    obtain rfl := Except.ok.inj hunit
    rcases unit.work.linearize_cases (Source.Unit.nodup_names_work hfree) with
      ⟨result, hresult, -⟩ | ⟨last, hlast, -⟩
    · exact absurd (hresult.symm.trans hsetback) (by simp)
    · obtain rfl := Except.error.inj (hlast.symm.trans hsetback)
      exact Declaration.diagnose_ne_duplicateClass _ _ _

end ClassLayout
