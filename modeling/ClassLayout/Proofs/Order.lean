import ClassLayout.Hierarchy.Order
import ClassLayout.Proofs.Registry

/-!
# Runs of placements

Putting declarations in order is a run of single steps: a waiting declaration whose parent is in
the registry is added to its end. What a step keeps, a run keeps, however the steps are gathered in
passes. A run ends with nothing left to place, or it is stuck: no parent of a waiting declaration is
in the registry. Either way it has placed what is grounded (`Run.grounded_iff`). All that is asked of
the names is that those which wait are new; nothing is asked of the registry.
-/

namespace ClassLayout

theorem Registry.getElem?_of_push? {registry next : Registry} {added entry : Entry} {id : Nat}
    (hpush : registry.push? added = some next) (hentry : next.entries[id]? = some entry) :
    registry.entries[id]? = some entry ∨ id = registry.size ∧ entry = added := by
  obtain ⟨-, rfl⟩ := push?_eq_some_iff.mp hpush
  rw [List.getElem?_append] at hentry
  split at hentry
  · exact Or.inl hentry
  · rw [List.getElem?_singleton] at hentry
    split at hentry
    · refine Or.inr ⟨?_, (Option.some.inj hentry).symm⟩
      rw [size]
      omega
    · simp at hentry

/-- The class that the declaration extends. -/
def Declaration.extended (decl : Declaration) : String := decl.parent?.getD "Object"

/-- The entry has the name and the members of the declaration and no table yet, and its parent is
the one that the index has for the name of the class that the declaration extends. -/
structure Declaration.PlacedIn (registry : Registry) (decl : Declaration) (entry : Entry) : Prop where
  name : entry.name = decl.name
  members : entry.members = decl.members
  table : entry.table.slots = []
  parent : ∃ parent, entry.parent? = some parent ∧
    registry.index.find? (·.1 == decl.extended) = some (decl.extended, parent)

theorem Declaration.placedIn_toEntry {registry : Registry} {decl : Declaration} {parent : Nat}
    (hparent : registry.lookup? decl.parentName = some parent) :
    decl.PlacedIn registry (decl.toEntry parent) :=
  ⟨rfl, rfl, rfl, parent, rfl, Registry.find?_index_iff.mpr hparent⟩

namespace Declaration.PlacedIn

variable {registry next : Registry} {decl : Declaration} {entry : Entry}

theorem exists_eq_toEntry (hplaced : decl.PlacedIn registry entry) :
    ∃ parent, entry = decl.toEntry parent ∧ registry.lookup? decl.parentName = some parent := by
  obtain ⟨hname, hmembers, htable, parent, hparent, hfound⟩ := hplaced
  refine ⟨parent, ?_, Registry.find?_index_iff.mp hfound⟩
  obtain ⟨name, link, members, ⟨slots⟩⟩ := entry
  subst hname hmembers htable hparent
  rfl

theorem of_isPrefix (hplaced : decl.PlacedIn registry entry)
    (hgrow : registry.index <+: next.index) : decl.PlacedIn next entry := by
  obtain ⟨hname, hmembers, htable, parent, hparent, hfound⟩ := hplaced
  exact ⟨hname, hmembers, htable, parent, hparent, Registry.find?_index_of_isPrefix hgrow hfound⟩

end Declaration.PlacedIn

/-- A registry and the declarations that wait to be added to it. -/
structure Worklist where
  registry : Registry
  pending : List Declaration

namespace Worklist

open Relation

def names (work : Worklist) : List String :=
  work.registry.names ++ work.pending.map Declaration.name

/-- One placement: a waiting declaration whose parent is in the registry is added. -/
inductive Places : Worklist → Worklist → Prop
  | intro {registry next : Registry} {before after : List Declaration} {decl : Declaration}
      {parent : Nat} (hparent : registry.lookup? decl.parentName = some parent)
      (hpush : registry.push? (decl.toEntry parent) = some next) :
      Places ⟨registry, before ++ decl :: after⟩ ⟨next, before ++ after⟩

abbrev Run : Worklist → Worklist → Prop := ReflTransGen Places

/-- No parent of a waiting declaration is in the registry. -/
def Stuck (work : Worklist) : Prop :=
  ∀ decl ∈ work.pending, decl.parentName ∉ work.registry.names

structure Fresh (work : Worklist) : Prop where
  nodup : (work.pending.map Declaration.name).Nodup
  unplaced : ∀ decl ∈ work.pending, decl.name ∉ work.registry.names

/-- Following parents from a name leads to one that is placed. -/
inductive Grounded (work : Worklist) : String → Prop
  | placed {name : String} (hplaced : name ∈ work.registry.names) : Grounded work name
  | child {decl : Declaration} (hdecl : decl ∈ work.pending)
      (hparent : Grounded work decl.parentName) : Grounded work decl.name

variable {first last : Worklist}

theorem fresh_of_nodup_names (hnodup : first.names.Nodup) : first.Fresh := by
  obtain ⟨-, hpending, hapart⟩ := List.nodup_append.mp hnodup
  refine ⟨hpending, fun decl hdecl hplaced => ?_⟩
  exact hapart _ hplaced _ (List.mem_map_of_mem hdecl) rfl

namespace Fresh

theorem eq_of_name_eq (hfresh : first.Fresh) {one other : Declaration} (hone : one ∈ first.pending)
    (hother : other ∈ first.pending) (hname : one.name = other.name) : one = other :=
  List.inj_on_of_nodup_map hfresh.nodup hone hother hname

theorem not_contains (hfresh : first.Fresh) {decl : Declaration} (hdecl : decl ∈ first.pending) :
    (!first.registry.contains decl.name) = true := by
  rw [Bool.not_eq_true', ← Bool.not_eq_true, Registry.contains_iff_mem]
  exact hfresh.unplaced decl hdecl

end Fresh

/-! ### What one placement keeps -/

namespace Places

theorem names_perm (hplaces : Places first last) : last.names.Perm first.names := by
  obtain ⟨hparent, hpush⟩ := hplaces
  obtain ⟨-, rfl⟩ := Registry.push?_eq_some_iff.mp hpush
  simp only [names, Registry.names_push, List.map_append, List.map_cons, List.append_assoc,
    List.singleton_append]
  exact List.perm_middle.symm.append_left _

theorem index_grow (hplaces : Places first last) :
    first.registry.index <+: last.registry.index := by
  obtain ⟨hparent, hpush⟩ := hplaces
  obtain ⟨-, rfl⟩ := Registry.push?_eq_some_iff.mp hpush
  exact List.prefix_append _ _

theorem names_grow (hplaces : Places first last) :
    first.registry.names <+: last.registry.names :=
  hplaces.index_grow.map Prod.fst

theorem entries_grow (hplaces : Places first last) :
    first.registry.entries <+: last.registry.entries := by
  obtain ⟨hparent, hpush⟩ := hplaces
  obtain ⟨-, rfl⟩ := Registry.push?_eq_some_iff.mp hpush
  exact List.prefix_append _ _

theorem sound (hplaces : Places first last) (hsound : first.registry.Sound) :
    last.registry.Sound := by
  obtain @⟨registry, next, before, after, decl, position, hparent, hpush⟩ := hplaces
  have hposition : position < registry.size := by
    obtain ⟨above, habove, -⟩ := hsound.lookup?_iff.mp hparent
    exact (List.getElem?_eq_some_iff.mp habove).1
  have hnext := Registry.push?_eq_some_iff.mp hpush
  constructor
  · rw [hnext.2, List.map_append, List.map_singleton, List.zipIdx_append, List.length_map,
      ← hsound.index_eq, Nat.zero_add]
    rfl
  · rw [hnext.2, Registry.names_push]
    refine List.nodup_append.mpr ⟨hsound.nodup, List.nodup_singleton _, ?_⟩
    rintro name hname other hother rfl
    exact hnext.1 (List.mem_singleton.mp hother ▸ hname)
  · intro id parent entry hentry hlink
    rcases Registry.getElem?_of_push? hpush hentry with hold | ⟨rfl, rfl⟩
    · exact hsound.parent_lt hold hlink
    · obtain rfl : position = parent := Option.some.inj hlink
      exact hposition

theorem fresh (hplaces : Places first last) (hfresh : first.Fresh) : last.Fresh := by
  obtain @⟨registry, next, before, after, decl, position, hparent, hpush⟩ := hplaces
  obtain ⟨hfree, rfl⟩ := Registry.push?_eq_some_iff.mp hpush
  have hnodup : (decl.name :: (before ++ after).map Declaration.name).Nodup := by
    rw [← List.map_cons]
    exact (List.perm_middle.map _).nodup_iff.mp hfresh.nodup
  refine ⟨(List.nodup_cons.mp hnodup).2, fun other hother hplaced => ?_⟩
  rw [Registry.names_push] at hplaced
  rcases List.mem_append.mp hplaced with hold | hnew
  · have hsame : other ∈ before ++ decl :: after :=
      List.perm_middle.mem_iff.mpr (List.mem_cons_of_mem _ hother)
    exact hfresh.unplaced other hsame hold
  · have hname : other.name = decl.name := List.mem_singleton.mp hnew
    apply (List.nodup_cons.mp hnodup).1
    rw [← hname]
    exact List.mem_map_of_mem hother

theorem pending_eq (hplaces : Places first last) (hfresh : first.Fresh) :
    last.pending = first.pending.filter fun decl => !last.registry.contains decl.name := by
  have hlast := hplaces.fresh hfresh
  obtain @⟨registry, next, before, after, decl, position, hparent, hpush⟩ := hplaces
  have hstay : ∀ other ∈ before ++ after, (!next.contains other.name) = true :=
    fun other => hlast.not_contains
  have hgone : next.contains decl.name = true := by
    rw [Registry.contains_iff_mem, (Registry.push?_eq_some_iff.mp hpush).2, Registry.names_push]
    exact List.mem_append_right _ (List.mem_singleton_self _)
  change before ++ after = (before ++ decl :: after).filter fun other => !next.contains other.name
  rw [List.filter_append, List.filter_cons_of_neg (by simp [hgone]), ← List.filter_append,
    List.filter_eq_self.mpr hstay]

end Places

/-! ### What a run keeps -/

namespace Run

theorem names_perm (hrun : Run first last) : last.names.Perm first.names := by
  induction hrun with
  | refl => exact List.Perm.refl _
  | tail _ hplaces ih => exact hplaces.names_perm.trans ih

theorem names_grow (hrun : Run first last) :
    first.registry.names <+: last.registry.names := by
  induction hrun with
  | refl => exact List.prefix_refl _
  | tail _ hplaces ih => exact ih.trans hplaces.names_grow

theorem entries_grow (hrun : Run first last) :
    first.registry.entries <+: last.registry.entries := by
  induction hrun with
  | refl => exact List.prefix_refl _
  | tail _ hplaces ih => exact ih.trans hplaces.entries_grow

theorem sound (hrun : Run first last) (hsound : first.registry.Sound) : last.registry.Sound := by
  induction hrun with
  | refl => exact hsound
  | tail _ hplaces ih => exact hplaces.sound ih

theorem fresh (hrun : Run first last) (hfresh : first.Fresh) : last.Fresh := by
  induction hrun with
  | refl => exact hfresh
  | tail _ hplaces ih => exact hplaces.fresh ih

/-- What waits is what is not in the registry, in the order of the start. -/
theorem pending_eq (hrun : Run first last) (hfresh : first.Fresh) :
    last.pending = first.pending.filter fun decl => !last.registry.contains decl.name := by
  induction hrun with
  | refl => exact (List.filter_eq_self.mpr fun decl => hfresh.not_contains).symm
  | @tail mid last hrun hplaces ih =>
      rw [hplaces.pending_eq (Run.fresh hrun hfresh), ih, List.filter_filter]
      congr 1
      funext decl
      have hsub := hplaces.names_grow.subset (a := decl.name)
      simp only [← Registry.contains_iff_mem] at hsub
      cases hmid : mid.registry.contains decl.name
      · simp
      · simp [hsub hmid]

theorem pending_subset (hrun : Run first last) (hfresh : first.Fresh) :
    last.pending ⊆ first.pending := by
  rw [hrun.pending_eq hfresh]
  exact List.filter_subset_self _

theorem placed (hrun : Run first last) (hfresh : first.Fresh) {id : Nat} {entry : Entry}
    (hid : first.registry.size ≤ id) (hentry : last.registry.entries[id]? = some entry) :
    ∃ decl ∈ first.pending, decl.PlacedIn last.registry entry := by
  induction hrun with
  | refl => exact absurd (List.getElem?_eq_some_iff.mp hentry).1 (Nat.not_lt.mpr hid)
  | tail hrun hplaces ih =>
      have hwaited := Run.pending_subset hrun hfresh
      have hgrow := hplaces.index_grow
      obtain @⟨registry, next, before, after, decl, position, hparent, hpush⟩ := hplaces
      rcases Registry.getElem?_of_push? hpush hentry with hold | ⟨rfl, rfl⟩
      · obtain ⟨decl, hdecl, hplaced⟩ := ih hold
        exact ⟨decl, hdecl, hplaced.of_isPrefix hgrow⟩
      · exact ⟨decl, hwaited (by simp), (Declaration.placedIn_toEntry hparent).of_isPrefix hgrow⟩

theorem grounded_of_mem_names (hrun : Run first last) (hfresh : first.Fresh) {name : String}
    (hname : name ∈ last.registry.names) : first.Grounded name := by
  induction hrun generalizing name with
  | refl => exact .placed hname
  | tail hrun hplaces ih =>
      have hwaited := Run.pending_subset hrun hfresh
      obtain @⟨registry, next, before, after, decl, position, hparent, hpush⟩ := hplaces
      rw [(Registry.push?_eq_some_iff.mp hpush).2, Registry.names_push] at hname
      rcases List.mem_append.mp hname with hold | hnew
      · exact ih hold
      · rw [List.mem_singleton.mp hnew]
        exact .child (hwaited (a := decl) (by simp))
          (ih (Registry.mem_names_iff.mpr ⟨position, Registry.mem_index_of_lookup? hparent⟩))

theorem grounded_iff (hrun : Run first last) (hfresh : first.Fresh) (hstuck : last.Stuck)
    {name : String} : first.Grounded name ↔ name ∈ last.registry.names := by
  refine ⟨fun hgrounded => ?_, hrun.grounded_of_mem_names hfresh⟩
  induction hgrounded with
  | placed hplaced => exact hrun.names_grow.subset hplaced
  | @child decl hdecl _ ih =>
      by_contra hunplaced
      have hwaits : decl ∈ last.pending := by
        rw [hrun.pending_eq hfresh, List.mem_filter]
        refine ⟨hdecl, ?_⟩
        rw [Bool.not_eq_true', ← Bool.not_eq_true, Registry.contains_iff_mem]
        exact hunplaced
      exact hstuck _ hwaits ih

end Run

/-! ### Passes are runs -/

theorem Places.behind (decl : Declaration) (hplaces : Places first last) :
    Places ⟨first.registry, decl :: first.pending⟩ ⟨last.registry, decl :: last.pending⟩ := by
  obtain ⟨hparent, hpush⟩ := hplaces
  rw [← List.cons_append, ← List.cons_append]
  exact .intro hparent hpush

theorem Run.behind (decl : Declaration) (hrun : Run first last) :
    Run ⟨first.registry, decl :: first.pending⟩ ⟨last.registry, decl :: last.pending⟩ := by
  induction hrun with
  | refl => exact .refl
  | tail _ hplaces ih => exact ih.tail (hplaces.behind decl)

/-- A pass over declarations of new names is a run. One that places nothing has found no parent. -/
theorem exists_pass_eq (work : Worklist) (hfresh : work.Fresh) :
    ∃ last : Worklist,
      Declaration.pass work.registry work.pending = .ok (last.registry, last.pending) ∧
      Run work last ∧ last.pending.length ≤ work.pending.length ∧
      (last.pending.length = work.pending.length → last = work ∧ work.Stuck) := by
  obtain ⟨registry, pending⟩ := work
  induction pending generalizing registry with
  | nil => exact ⟨⟨registry, []⟩, rfl, .refl, Nat.le_refl _, fun _ => ⟨rfl, by simp [Stuck]⟩⟩
  | cons decl rest ih =>
      cases hparent : registry.lookup? decl.parentName with
      | none =>
          have hrest : Fresh ⟨registry, rest⟩ :=
            ⟨(List.nodup_cons.mp hfresh.nodup).2, (List.forall_mem_cons.mp hfresh.unplaced).2⟩
          obtain ⟨last, hpass, hrun, hlength, hstuck⟩ := ih registry hrest
          refine ⟨⟨last.registry, decl :: last.pending⟩, ?_, hrun.behind decl, ?_, ?_⟩
          · rw [Declaration.pass, hparent]
            simp only [hpass, Except.map]
          · exact Nat.succ_le_succ hlength
          · intro hsame
            obtain ⟨rfl, hnone⟩ := hstuck (Nat.succ.inj hsame)
            refine ⟨rfl, ?_⟩
            rintro other hother
            rcases List.mem_cons.mp hother with rfl | hother
            · exact Registry.lookup?_eq_none_iff.mp hparent
            · exact hnone other hother
      | some parent =>
          have hpush : registry.push? (decl.toEntry parent) = some _ :=
            Registry.push?_eq_some_iff.mpr ⟨hfresh.unplaced decl List.mem_cons_self, rfl⟩
          have hplaces : Places ⟨registry, [] ++ decl :: rest⟩ ⟨_, [] ++ rest⟩ :=
            .intro hparent hpush
          obtain ⟨last, hpass, hrun, hlength, -⟩ := ih _ (hplaces.fresh hfresh)
          refine ⟨last, ?_, hrun.head hplaces, Nat.le_succ_of_le hlength, ?_⟩
          · rw [Declaration.pass, hparent]
            simp only [hpush, hpass]
          · intro hsame
            exact absurd hsame (Nat.ne_of_lt (Nat.lt_succ_of_le hlength))

/-- Whatever the passes come to is the end of a run: everything is placed, or the run is stuck and
the reason is sought in what waits. -/
theorem linearize_ends (work : Worklist) (hfresh : work.Fresh) :
    match linearize work.registry work.pending with
    | .ok result => Run work ⟨result.registry, []⟩
    | .error setback => ∃ waiting, Run work ⟨setback.reached, waiting⟩ ∧ waiting ≠ [] ∧
        Stuck ⟨setback.reached, waiting⟩ ∧
        setback.cause = Declaration.diagnose setback.reached waiting := by
  induction hn : work.pending.length using Nat.strongRecOn generalizing work with
  | ind n ih =>
    obtain ⟨next, hpass, hrun, hlength, hstuck⟩ := work.exists_pass_eq hfresh
    rw [linearize]
    by_cases hempty : work.pending = []
    · rw [if_pos (by simp [hempty])]
      obtain ⟨registry, pending⟩ := work
      obtain rfl : pending = [] := hempty
      exact .refl
    · rw [if_neg (by simpa using hempty)]
      simp only [hpass]
      by_cases hshorter : next.pending.length < work.pending.length
      · rw [if_pos hshorter]
        have hrest := ih _ (hn ▸ hshorter) next (hrun.fresh hfresh) rfl
        cases hlinear : linearize next.registry next.pending with
        | ok result =>
            rw [hlinear] at hrest
            exact hrun.trans hrest
        | error setback =>
            rw [hlinear] at hrest
            obtain ⟨waiting, hwaiting, hrest⟩ := hrest
            exact ⟨waiting, hrun.trans hwaiting, hrest⟩
      · rw [if_neg hshorter]
        obtain ⟨rfl, hnone⟩ := hstuck (by omega)
        exact ⟨next.pending, .refl, hempty, hnone, rfl⟩

theorem linearize_cases (work : Worklist) (hnodup : work.names.Nodup) :
    (∃ result, linearize work.registry work.pending = .ok result ∧
      Run work ⟨result.registry, []⟩) ∨
    ∃ last : Worklist, linearize work.registry work.pending =
        .error ⟨last.registry, Declaration.diagnose last.registry last.pending⟩ ∧
      Run work last ∧ last.pending ≠ [] ∧ last.Stuck := by
  have hends := work.linearize_ends (fresh_of_nodup_names hnodup)
  cases hlinear : linearize work.registry work.pending with
  | ok result =>
      rw [hlinear] at hends
      exact Or.inl ⟨result, rfl, hends⟩
  | error setback =>
      rw [hlinear] at hends
      obtain ⟨waiting, hrun, hwait, hstuck, hcause⟩ := hends
      refine Or.inr ⟨⟨setback.reached, waiting⟩, ?_, hrun, hwait, hstuck⟩
      rw [← hcause]

end Worklist

end ClassLayout
