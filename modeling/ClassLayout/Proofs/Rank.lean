import ClassLayout.Proofs.Order
import Mathlib.Data.List.Permutation

/-!
# The order of declarations

A pass goes on with what it has just added, so the order that comes out is neither the source order
nor an order by depth. It is the order of ranks: the rank of a declaration is the pass that adds it,
and it is told by the list alone. A parent that comes earlier is added in the same pass at the
latest when its turn has come, and one that comes later makes its child wait for the next pass. With
ranks fixed from the start, what the registry holds at any point of any pass is known (`Holds`), and
a pass adds the declarations of one rank in source order.
-/

namespace ClassLayout

/-! ### Pairs of a list and sorting by a key -/

section Lists

variable {α : Type} {l : List α}

private theorem not_pair_sublist_swap (hnodup : l.Nodup) {one other : α}
    (hpair : [one, other].Sublist l) : ¬ [other, one].Sublist l := by
  induction l with
  | nil => cases hpair
  | cons first rest ih =>
      obtain ⟨hfirst, hrest⟩ := List.nodup_cons.mp hnodup
      intro hswap
      cases hpair with
      | cons _ hpair =>
          cases hswap with
          | cons _ hswap => exact ih hrest hpair hswap
          | cons_cons _ _ => exact hfirst (hpair.subset (by simp))
      | cons_cons _ hpair =>
          cases hswap with
          | cons _ hswap => exact hfirst (hswap.subset (by simp))
          | cons_cons _ _ => exact hfirst (hpair.subset (by simp))

private theorem pair_sublist_or {one other : α} (hone : one ∈ l) (hother : other ∈ l)
    (hne : one ≠ other) : [one, other].Sublist l ∨ [other, one].Sublist l := by
  obtain ⟨before, after, rfl⟩ := List.append_of_mem hone
  rcases List.mem_append.mp hother with hbefore | hafter
  · exact Or.inr ((List.singleton_sublist.mpr hbefore).append (by simp))
  · have hrest : other ∈ after := (List.mem_cons.mp hafter).resolve_left hne.symm
    exact Or.inl (((List.singleton_sublist.mpr hrest).cons_cons one).trans
      (List.sublist_append_right _ _))

private theorem pair_sublist_append_cons {before after : List α} {one other : α}
    (hnodup : (before ++ one :: after).Nodup) :
    [other, one].Sublist (before ++ one :: after) ↔ other ∈ before := by
  constructor
  · intro hpair
    have hother : other ∈ before ++ one :: after := hpair.subset (by simp)
    refine (List.mem_append.mp hother).resolve_right fun hlate => ?_
    refine not_pair_sublist_swap hnodup hpair (List.Sublist.trans ?_ (List.sublist_append_right _ _))
    rcases List.mem_cons.mp hlate with rfl | hafter
    · exact absurd hpair (not_pair_sublist_swap hnodup hpair)
    · exact (List.singleton_sublist.mpr hafter).cons_cons one
  · intro hbefore
    exact (List.singleton_sublist.mpr hbefore).append (by simp)

private theorem filter_mergeSort (key : α → Nat) (l : List α) (value : Nat) :
    (l.mergeSort fun one other => key one ≤ key other).filter (key · == value) =
      l.filter (key · == value) := by
  induction l with
  | nil => simp
  | cons first rest ih =>
      obtain ⟨left, right, hsorted, hrest, hleft⟩ :=
        @List.mergeSort_cons α (fun one other => decide (key one ≤ key other))
          (fun _ _ _ => by simpa using Nat.le_trans) (fun _ _ => by simpa using Nat.le_total _ _)
          first rest
      rw [hrest, List.filter_append] at ih
      rw [hsorted, List.filter_append]
      by_cases hfirst : key first = value
      · have hnone : left.filter (key · == value) = [] := by
          refine List.filter_eq_nil_iff.mpr fun one hone => ?_
          have hless : key one < key first := by simpa using hleft one hone
          simpa using Nat.ne_of_lt (hfirst ▸ hless)
        rw [hnone, List.nil_append] at ih ⊢
        rw [List.filter_cons_of_pos (by simpa using hfirst),
          List.filter_cons_of_pos (by simpa using hfirst), ih]
      · rw [List.filter_cons_of_neg (by simpa using hfirst),
          List.filter_cons_of_neg (by simpa using hfirst), ih]

private theorem filter_append_filter_of_pairwise {key : α → Nat}
    (hsorted : l.Pairwise fun one other => key one ≤ key other) {low : Nat}
    (hlow : ∀ one ∈ l, low ≤ key one) :
    l.filter (key · == low) ++ l.filter (low < key ·) = l := by
  induction l with
  | nil => rfl
  | cons first rest ih =>
      obtain ⟨hfirst, hrest⟩ := List.pairwise_cons.mp hsorted
      by_cases hkey : key first = low
      · rw [List.filter_cons_of_pos (by simpa using hkey),
          List.filter_cons_of_neg (by simp [hkey]), List.cons_append,
          ih hrest fun one hone => hlow one (List.mem_cons_of_mem _ hone)]
      · have hmore : ∀ one ∈ first :: rest, low < key one := by
          intro one hone
          have hleast := hlow first List.mem_cons_self
          rcases List.mem_cons.mp hone with rfl | hone
          · omega
          · have := hfirst one hone
            omega
        rw [List.filter_eq_nil_iff.mpr, List.filter_eq_self.mpr, List.nil_append]
        · simpa using hmore
        · intro one hone
          simpa using Nat.ne_of_gt (hmore one hone)

private theorem flatMap_filter_of_pairwise {key : α → Nat}
    (hsorted : l.Pairwise fun one other => key one ≤ key other) {low count : Nat}
    (hkeys : ∀ one ∈ l, low ≤ key one ∧ key one < low + count) :
    (List.range' low count).flatMap (fun value => l.filter (key · == value)) = l := by
  induction count generalizing low l with
  | zero =>
      cases l with
      | nil => rfl
      | cons first rest =>
          have := hkeys first List.mem_cons_self
          omega
  | succ count ih =>
      have hrest : ∀ one ∈ l.filter (low < key ·), low + 1 ≤ key one ∧ key one < low + 1 + count := by
        intro one hone
        obtain ⟨hone, hmore⟩ := List.mem_filter.mp hone
        have := hkeys one hone
        rw [decide_eq_true_eq] at hmore
        omega
      rw [List.range'_succ, List.flatMap_cons]
      conv_rhs => rw [← filter_append_filter_of_pairwise hsorted fun one hone => (hkeys one hone).1]
      rw [← ih (hsorted.sublist List.filter_sublist) hrest]
      congr 1
      refine List.flatMap_congr fun value hvalue => ?_
      rw [List.filter_filter]
      refine List.filter_congr fun one _ => ?_
      have := (List.mem_range'_1.mp hvalue).1
      by_cases hkey : key one = value
      · simp [hkey]
        omega
      · simp [hkey]

/-- Sorted by a key, a list is made of the items of each key as they stand in it. -/
private theorem mergeSort_eq_flatMap {key : α → Nat} {low count : Nat}
    (hkeys : ∀ one ∈ l, low ≤ key one ∧ key one < low + count) :
    (l.mergeSort fun one other => key one ≤ key other) =
      (List.range' low count).flatMap fun value => l.filter (key · == value) := by
  have hsorted : (l.mergeSort fun one other => key one ≤ key other).Pairwise
      fun one other => key one ≤ key other := by
    refine (List.pairwise_mergeSort ?_ ?_ l).imp ?_
    · exact fun _ _ _ => by simpa using Nat.le_trans
    · exact fun _ _ => by simpa using Nat.le_total _ _
    · exact fun hle => by simpa using hle
  rw [← flatMap_filter_of_pairwise hsorted fun one hone => hkeys one (List.mem_mergeSort.mp hone)]
  simp only [filter_mergeSort]

private theorem max?_getD_eq {values : List Nat} {greatest : Nat}
    (hbound : ∀ value ∈ values, value ≤ greatest) (hlast : 0 < greatest → greatest ∈ values) :
    values.max?.getD 0 = greatest := by
  rcases Nat.eq_zero_or_pos greatest with rfl | hpos
  · cases hmax : values.max? with
    | none => rfl
    | some value => exact Nat.le_zero.mp (hbound value (List.max?_mem hmax))
  · rw [List.max?_eq_some_iff.mpr ⟨hlast hpos, hbound⟩, Option.getD_some]

end Lists

/-! ### Ranks -/

namespace Declaration

/-- The rank of a declaration is one if its parent is in the registry, and otherwise the rank of its
parent's declaration if that one comes earlier, and one more if it comes later. -/
inductive Ranked (registry : Registry) (decls : List Declaration) : Declaration → Nat → Prop
  | ready {decl : Declaration} (hdecl : decl ∈ decls) (hready : decl.extended ∈ registry.names) :
      Ranked registry decls decl 1
  | later {decl parent : Declaration} {rank : Nat} (hwaits : decl.extended ∉ registry.names)
      (hparent : parent.name = decl.extended) (horder : [parent, decl].Sublist decls)
      (hrank : Ranked registry decls parent rank) : Ranked registry decls decl rank
  | earlier {decl parent : Declaration} {rank : Nat} (hwaits : decl.extended ∉ registry.names)
      (hparent : parent.name = decl.extended) (horder : [decl, parent].Sublist decls)
      (hrank : Ranked registry decls parent rank) : Ranked registry decls decl (rank + 1)

namespace Ranked

variable {registry : Registry} {decls : List Declaration} {decl : Declaration} {rank other : Nat}

theorem mem (hrank : Ranked registry decls decl rank) : decl ∈ decls := by
  cases hrank with
  | ready hdecl _ => exact hdecl
  | later _ _ horder _ => exact horder.subset (by simp)
  | earlier _ _ horder _ => exact horder.subset (by simp)

theorem pos (hrank : Ranked registry decls decl rank) : 0 < rank := by
  induction hrank with
  | ready => exact Nat.one_pos
  | later _ _ _ _ ih => exact ih
  | earlier _ _ _ _ ih => exact Nat.succ_pos _

theorem unique (hfresh : Worklist.Fresh ⟨registry, decls⟩) (hrank : Ranked registry decls decl rank)
    (hother : Ranked registry decls decl other) : rank = other := by
  have hnodup : decls.Nodup := hfresh.nodup.of_map
  induction hrank generalizing other with
  | ready _ hready =>
      cases hother with
      | ready => rfl
      | later hwaits => exact absurd hready hwaits
      | earlier hwaits => exact absurd hready hwaits
  | later hwaits hparent horder hrank ih =>
      cases hother with
      | ready _ hready => exact absurd hready hwaits
      | later _ hsame _ hother =>
          obtain rfl := hfresh.eq_of_name_eq hrank.mem hother.mem (hparent.trans hsame.symm)
          exact ih hother
      | earlier _ hsame hswap hother =>
          obtain rfl := hfresh.eq_of_name_eq hrank.mem hother.mem (hparent.trans hsame.symm)
          exact absurd hswap (not_pair_sublist_swap hnodup horder)
  | earlier hwaits hparent horder hrank ih =>
      cases hother with
      | ready _ hready => exact absurd hready hwaits
      | later _ hsame hswap hother =>
          obtain rfl := hfresh.eq_of_name_eq hrank.mem hother.mem (hparent.trans hsame.symm)
          exact absurd hswap (not_pair_sublist_swap hnodup horder)
      | earlier _ hsame _ hother =>
          obtain rfl := hfresh.eq_of_name_eq hrank.mem hother.mem (hparent.trans hsame.symm)
          rw [ih hother]

end Ranked

theorem exists_ranked {registry : Registry} {decls : List Declaration}
    (hfresh : Worklist.Fresh ⟨registry, decls⟩) {name : String}
    (hgrounded : Worklist.Grounded ⟨registry, decls⟩ name) {decl : Declaration}
    (hdecl : decl ∈ decls) (hname : decl.name = name) : ∃ rank, Ranked registry decls decl rank := by
  induction hgrounded generalizing decl with
  | placed hplaced => exact absurd (hname ▸ hplaced) (hfresh.unplaced decl hdecl)
  | child hsame hparent ih =>
      obtain rfl := hfresh.eq_of_name_eq hdecl hsame hname
      by_cases hready : decl.parentName ∈ registry.names
      · exact ⟨1, .ready hdecl hready⟩
      · obtain ⟨parent, hmem, hparent⟩ : ∃ parent ∈ decls, parent.name = decl.parentName := by
          generalize decl.parentName = above at hparent hready
          cases hparent with
          | placed hplaced => exact absurd hplaced hready
          | child hmem _ => exact ⟨_, hmem, rfl⟩
        obtain ⟨rank, hrank⟩ := ih hmem hparent
        by_cases hself : parent = decl
        · exact ⟨rank, hself ▸ hrank⟩
        · rcases pair_sublist_or hmem hdecl hself with horder | horder
          · exact ⟨rank, .later hready hparent horder hrank⟩
          · exact ⟨rank + 1, .earlier hready hparent horder hrank⟩

theorem exists_rank {registry : Registry} {decls : List Declaration} {result : Linearized}
    (hfresh : Worklist.Fresh ⟨registry, decls⟩) (hresult : linearize registry decls = .ok result) :
    ∃ rank : Declaration → Nat, ∀ decl ∈ decls, Ranked registry decls decl (rank decl) := by
  have hends := Worklist.linearize_ends ⟨registry, decls⟩ hfresh
  rw [hresult] at hends
  have hrun : Worklist.Run ⟨registry, decls⟩ ⟨result.registry, []⟩ := hends
  have hexists : ∀ decl ∈ decls, ∃ rank, Ranked registry decls decl rank := by
    intro decl hdecl
    have hname : decl.name ∈ Worklist.names ⟨registry, decls⟩ :=
      List.mem_append_right _ (List.mem_map_of_mem hdecl)
    rw [← hrun.names_perm.mem_iff, Worklist.names, List.map_nil, List.append_nil] at hname
    exact exists_ranked hfresh (hrun.grounded_of_mem_names hfresh hname) hdecl rfl
  choose! rank hrank using hexists
  exact ⟨rank, hrank⟩

end Declaration

/-! ### Declarations added in order -/

/-- One registry is the other with declarations added to its end, each below the class that it names
as its parent. -/
structure Registry.Appends (registry : Registry) (decls : List Declaration) (next : Registry) :
    Prop where
  index : next.index = registry.index ++ (decls.map Declaration.name).zipIdx registry.size
  entries : ∃ placed, next.entries = registry.entries ++ placed ∧
    List.Forall₂ (Declaration.PlacedIn next) decls placed

namespace Registry.Appends

variable {registry next last : Registry} {decls others : List Declaration}

theorem names (happends : registry.Appends decls next) :
    next.names = registry.names ++ decls.map Declaration.name := by
  rw [Registry.names, happends.index, List.map_append, List.zipIdx_map_fst]
  rfl

theorem size (happends : registry.Appends decls next) :
    next.size = registry.size + decls.length := by
  obtain ⟨placed, hplaced, hdecls⟩ := happends.entries
  rw [Registry.size, hplaced, List.length_append, hdecls.length_eq, Registry.size]

theorem refl (registry : Registry) : registry.Appends [] registry :=
  ⟨by simp, [], by simp, .nil⟩

theorem push {decl : Declaration} {parent : Nat}
    (hparent : registry.lookup? decl.parentName = some parent)
    (hpush : registry.push? (decl.toEntry parent) = some next) : registry.Appends [decl] next := by
  obtain ⟨-, rfl⟩ := push?_eq_some_iff.mp hpush
  refine ⟨rfl, [decl.toEntry parent], rfl, .cons ?_ .nil⟩
  exact (Declaration.placedIn_toEntry hparent).of_isPrefix (List.prefix_append _ _)

theorem trans (hfirst : registry.Appends decls next) (hlast : next.Appends others last) :
    registry.Appends (decls ++ others) last := by
  obtain ⟨placed, hplaced, hdecls⟩ := hfirst.entries
  obtain ⟨added, hadded, hothers⟩ := hlast.entries
  have hgrow : next.index <+: last.index := hlast.index ▸ List.prefix_append _ _
  refine ⟨?_, placed ++ added, ?_, ?_⟩
  · rw [hlast.index, hfirst.index, hfirst.size, List.append_assoc, List.map_append,
      List.zipIdx_append, List.length_map]
  · rw [hadded, hplaced, List.append_assoc]
  · exact List.rel_append (hdecls.imp fun _ _ hentry => hentry.of_isPrefix hgrow) hothers

end Registry.Appends

/-! ### Passes -/

namespace Declaration

/-- What a registry holds when some passes are over and another one has come past `done`. -/
def Holds (registry : Registry) (decls : List Declaration) (rank : Declaration → Nat) (passes : Nat)
    (done : List Declaration) (current : Registry) : Prop :=
  ∀ name, name ∈ current.names ↔ name ∈ registry.names ∨ ∃ decl ∈ decls, decl.name = name ∧
    (rank decl ≤ passes ∨ rank decl = passes + 1 ∧ decl ∈ done)

section Passes

variable {registry current next : Registry} {decls done rest : List Declaration}
  {rank : Declaration → Nat} {passes : Nat} {decl : Declaration}

namespace Holds

theorem start (hrank : ∀ decl ∈ decls, Ranked registry decls decl (rank decl)) :
    Holds registry decls rank 0 [] registry := by
  intro name
  refine ⟨Or.inl, fun hplaced => hplaced.resolve_right ?_⟩
  rintro ⟨decl, hdecl, -, hzero | ⟨-, hdone⟩⟩
  · exact absurd (hrank decl hdecl).pos (by omega)
  · cases hdone

theorem skip (hholds : Holds registry decls rank passes done current)
    (hskip : rank decl ≠ passes + 1) :
    Holds registry decls rank passes (done ++ [decl]) current := by
  intro name
  rw [hholds]
  refine or_congr_right (exists_congr fun other => and_congr_right fun _ => and_congr_right fun _ =>
    or_congr_right (and_congr_right fun hrank => ?_))
  rw [List.mem_append, List.mem_singleton]
  refine ⟨Or.inl, fun hmem => hmem.resolve_right ?_⟩
  rintro rfl
  exact hskip hrank

theorem add (hholds : Holds registry decls rank passes done current) (hdecl : decl ∈ decls)
    (hadd : rank decl = passes + 1) (hnames : next.names = current.names ++ [decl.name]) :
    Holds registry decls rank passes (done ++ [decl]) next := by
  intro name
  rw [hnames, List.mem_append, List.mem_singleton, hholds]
  constructor
  · rintro ((hplaced | ⟨other, hother, hname, hrank⟩) | rfl)
    · exact Or.inl hplaced
    · exact Or.inr ⟨other, hother, hname,
        hrank.imp_right fun hrank => ⟨hrank.1, List.mem_append_left _ hrank.2⟩⟩
    · exact Or.inr ⟨decl, hdecl, rfl, Or.inr ⟨hadd, by simp⟩⟩
  · rintro (hplaced | ⟨other, hother, hname, hrank | ⟨hrank, hdone⟩⟩)
    · exact Or.inl (Or.inl hplaced)
    · exact Or.inl (Or.inr ⟨other, hother, hname, Or.inl hrank⟩)
    · rcases List.mem_append.mp hdone with hdone | hlast
      · exact Or.inl (Or.inr ⟨other, hother, hname, Or.inr ⟨hrank, hdone⟩⟩)
      · rw [List.mem_singleton.mp hlast] at hname
        exact Or.inr hname.symm

theorem pass (hholds : Holds registry decls rank passes [] current)
    (happends : current.Appends (decls.filter (rank · == passes + 1)) next) :
    Holds registry decls rank (passes + 1) [] next := by
  intro name
  rw [happends.names, List.mem_append, hholds, or_assoc]
  refine or_congr_right ?_
  simp only [List.mem_map, List.mem_filter, beq_iff_eq, List.not_mem_nil, and_false, or_false]
  constructor
  · rintro (⟨other, hother, hname, hrank⟩ | ⟨other, ⟨hother, hrank⟩, hname⟩)
    · exact ⟨other, hother, hname, Nat.le_succ_of_le hrank⟩
    · exact ⟨other, hother, hname, Nat.le_of_eq hrank⟩
  · rintro ⟨other, hother, hname, hrank⟩
    rcases Nat.le_succ_iff.mp hrank with hrank | hrank
    · exact Or.inl ⟨other, hother, hname, hrank⟩
    · exact Or.inr ⟨other, ⟨hother, hrank⟩, hname⟩

theorem unplaced (hholds : Holds registry decls rank passes done current)
    (hfresh : Worklist.Fresh ⟨registry, decls⟩) (hdecls : decls = done ++ decl :: rest)
    (hwaits : passes < rank decl) : decl.name ∉ current.names := by
  have hdecl : decl ∈ decls := by simp [hdecls]
  rw [hholds]
  rintro (hplaced | ⟨other, hother, hname, hrank⟩)
  · exact hfresh.unplaced decl hdecl hplaced
  · obtain rfl := hfresh.eq_of_name_eq hother hdecl hname
    rcases hrank with hrank | ⟨-, hdone⟩
    · omega
    · have hnodup : decls.Nodup := hfresh.nodup.of_map
      rw [hdecls] at hnodup
      exact (List.nodup_append.mp hnodup).2.2 _ hdone _ List.mem_cons_self rfl

/-- When its turn comes in a pass, a declaration finds its parent exactly if its rank is that of the
pass. -/
theorem parent_iff (hholds : Holds registry decls rank passes done current)
    (hfresh : Worklist.Fresh ⟨registry, decls⟩)
    (hrank : ∀ decl ∈ decls, Ranked registry decls decl (rank decl))
    (hdecls : decls = done ++ decl :: rest) (hwaits : passes < rank decl) :
    decl.parentName ∈ current.names ↔ rank decl = passes + 1 := by
  have hdecl : decl ∈ decls := by simp [hdecls]
  have hself := hrank decl hdecl
  have hnodup : decls.Nodup := hfresh.nodup.of_map
  have hbefore : ∀ other, [other, decl].Sublist decls ↔ other ∈ done := by
    intro other
    subst hdecls
    exact pair_sublist_append_cons hnodup
  by_cases hready : decl.parentName ∈ registry.names
  · have hone := hself.unique hfresh (.ready hdecl hready)
    rw [hholds]
    exact iff_of_true (Or.inl hready) (by omega)
  · rw [hholds, or_iff_right hready]
    constructor
    · rintro ⟨parent, hparent, hname, hplaced⟩
      -- The parent was added in this pass, before the declaration, or in an earlier one.
      by_cases hdone : parent ∈ done
      · have hsame := hself.unique hfresh
          (.later hready hname ((hbefore parent).mpr hdone) (hrank parent hparent))
        rcases hplaced with hplaced | ⟨hplaced, -⟩ <;> omega
      · have hplaced := hplaced.resolve_right fun hplaced => hdone hplaced.2
        have hne : decl ≠ parent := by
          rintro rfl
          omega
        have horder : [decl, parent].Sublist decls := by
          refine (pair_sublist_or hdecl hparent hne).resolve_right fun hpair => ?_
          exact hdone ((hbefore parent).mp hpair)
        have hnext := hself.unique hfresh (.earlier hready hname horder (hrank parent hparent))
        omega
    · intro hturn
      rw [hturn] at hself
      generalize hpass : passes + 1 = turn at hself
      cases hself with
      | ready _ hplaced => exact absurd hplaced hready
      | @later _ parent _ _ hname horder hparent =>
          have hsame := (hrank parent hparent.mem).unique hfresh hparent
          exact ⟨parent, hparent.mem, hname, Or.inr ⟨hsame, (hbefore parent).mp horder⟩⟩
      | @earlier _ parent _ _ hname horder hparent =>
          have hsame := (hrank parent hparent.mem).unique hfresh hparent
          exact ⟨parent, hparent.mem, hname, Or.inl (by omega)⟩

end Holds

/-- A pass adds the declarations of its rank in source order, and leaves those of higher ranks. -/
theorem exists_pass_eq (hfresh : Worklist.Fresh ⟨registry, decls⟩)
    (hrank : ∀ decl ∈ decls, Ranked registry decls decl (rank decl))
    (hdecls : decls = done ++ rest) (hholds : Holds registry decls rank passes done current) :
    ∃ next, pass current (rest.filter (passes < rank ·)) =
        .ok (next, rest.filter (passes + 1 < rank ·)) ∧
      current.Appends (rest.filter (rank · == passes + 1)) next := by
  induction rest generalizing done current with
  | nil => exact ⟨current, rfl, .refl current⟩
  | cons decl rest ih =>
      have hdecl : decl ∈ decls := by simp [hdecls]
      have hnext : decls = (done ++ [decl]) ++ rest := by simp [hdecls]
      rcases Nat.lt_trichotomy (rank decl) (passes + 1) with hover | hturn | hwait
      · rw [List.filter_cons_of_neg (by simp; omega), List.filter_cons_of_neg (by simp; omega),
          List.filter_cons_of_neg (by simp; omega)]
        exact ih hnext (hholds.skip (Nat.ne_of_lt hover))
      · have hplaced := (hholds.parent_iff hfresh hrank hdecls (by omega)).mpr hturn
        obtain ⟨parent, hparent⟩ : ∃ parent, current.lookup? decl.parentName = some parent := by
          rw [← Option.isSome_iff_exists, Option.isSome_iff_ne_none, ne_eq,
            Registry.lookup?_eq_none_iff]
          exact not_not_intro hplaced
        obtain ⟨added, hpush, hnames⟩ : ∃ added, current.push? (decl.toEntry parent) = some added ∧
            added.names = current.names ++ [decl.name] :=
          ⟨_, Registry.push?_eq_some_iff.mpr ⟨hholds.unplaced hfresh hdecls (by omega), rfl⟩,
            Registry.names_push ..⟩
        obtain ⟨last, hpass, happends⟩ := ih hnext (hholds.add hdecl hturn hnames)
        refine ⟨last, ?_, ?_⟩
        · rw [List.filter_cons_of_pos (by simp; omega), List.filter_cons_of_neg (by simp; omega),
            pass, hparent]
          simp only [hpush]
          exact hpass
        · rw [List.filter_cons_of_pos (by simpa using hturn)]
          exact (Registry.Appends.push hparent hpush).trans happends
      · have hnone : current.lookup? decl.parentName = none := by
          rw [Registry.lookup?_eq_none_iff, hholds.parent_iff hfresh hrank hdecls (by omega)]
          omega
        obtain ⟨last, hpass, happends⟩ := ih hnext (hholds.skip (Nat.ne_of_gt hwait))
        refine ⟨last, ?_, ?_⟩
        · rw [List.filter_cons_of_pos (by simp; omega), List.filter_cons_of_pos (by simpa using hwait),
            pass, hnone]
          simp only [hpass, Except.map]
        · rwa [List.filter_cons_of_neg (by simp; omega)]

theorem linearize_ranked (hfresh : Worklist.Fresh ⟨registry, decls⟩)
    (hrank : ∀ decl ∈ decls, Ranked registry decls decl (rank decl))
    (hholds : Holds registry decls rank passes [] current) {result : Linearized}
    (hresult : linearize current (decls.filter (passes < rank ·)) = .ok result) :
    current.Appends ((List.range' (passes + 1) result.passes).flatMap fun turn =>
        decls.filter (rank · == turn)) result.registry ∧
      (∀ decl ∈ decls, rank decl ≤ passes + result.passes) ∧
      (0 < result.passes → ∃ decl ∈ decls, rank decl = passes + result.passes) := by
  induction hn : (decls.filter (passes < rank ·)).length using Nat.strongRecOn
    generalizing passes current result with
  | ind n ih =>
    rw [linearize] at hresult
    split at hresult
    · rename_i hempty
      obtain rfl := Except.ok.inj hresult
      refine ⟨.refl current, fun decl hdecl => ?_, fun hpos => absurd hpos (Nat.lt_irrefl 0)⟩
      have hdone := List.filter_eq_nil_iff.mp (List.isEmpty_iff.mp hempty) decl hdecl
      simpa using hdone
    · obtain ⟨next, hpass, happends⟩ := exists_pass_eq hfresh hrank (List.nil_append decls).symm hholds
      rw [hpass] at hresult
      dsimp only at hresult
      split at hresult
      · rename_i hshorter
        cases hrest : linearize next (decls.filter (passes + 1 < rank ·)) with
        | error setback => rw [hrest] at hresult; cases hresult
        | ok rest =>
            rw [hrest] at hresult
            obtain rfl := Except.ok.inj hresult
            obtain ⟨hadded, hbound, hlast⟩ := ih _ (hn ▸ hshorter) (hholds.pass happends) hrest rfl
            refine ⟨?_, fun decl hdecl => ?_, fun _ => ?_⟩
            · rw [List.range'_succ, List.flatMap_cons]
              exact happends.trans hadded
            · show rank decl ≤ passes + (rest.passes + 1)
              have := hbound decl hdecl
              omega
            · show ∃ decl ∈ decls, rank decl = passes + (rest.passes + 1)
              rcases Nat.eq_zero_or_pos rest.passes with hzero | hpos
              · -- The pass that empties the list has added something, and all of it had its rank.
                by_contra hnone
                have hsame : decls.filter (passes + 1 < rank ·) = decls.filter (passes < rank ·) := by
                  refine List.filter_congr fun decl hdecl => decide_eq_decide.mpr ?_
                  have : rank decl ≠ passes + 1 := fun heq => hnone ⟨decl, hdecl, by omega⟩
                  omega
                rw [hsame] at hshorter
                exact absurd hshorter (Nat.lt_irrefl _)
              · obtain ⟨decl, hdecl, heq⟩ := hlast hpos
                exact ⟨decl, hdecl, by omega⟩
      · cases hresult

end Passes

end Declaration

/-- The order that the passes come to: the declarations sorted by rank, as they stand in the list
where ranks are the same, after all that was in the registry. There are as many passes as the
greatest rank says. -/
theorem linearize_order {registry : Registry} {decls : List Declaration} {result : Linearized}
    (hnodup : (decls.map Declaration.name).Nodup)
    (hnew : ∀ decl ∈ decls, decl.name ∉ registry.names)
    (hresult : linearize registry decls = .ok result) :
    ∃ rank : Declaration → Nat,
      (∀ decl ∈ decls, ∀ value, Declaration.Ranked registry decls decl value ↔ rank decl = value) ∧
      registry.Appends (decls.mergeSort fun one other => rank one ≤ rank other) result.registry ∧
      result.passes = (decls.map rank).max?.getD 0 := by
  have hfresh : Worklist.Fresh ⟨registry, decls⟩ := ⟨hnodup, hnew⟩
  obtain ⟨rank, hrank⟩ := Declaration.exists_rank hfresh hresult
  have hall : decls.filter (0 < rank ·) = decls :=
    List.filter_eq_self.mpr fun decl hdecl => by simpa using (hrank decl hdecl).pos
  obtain ⟨happends, hbound, hlast⟩ :=
    Declaration.linearize_ranked hfresh hrank (.start hrank) (hall.symm ▸ hresult)
  simp only [Nat.zero_add] at happends hbound hlast
  have hkeys : ∀ decl ∈ decls, 1 ≤ rank decl ∧ rank decl < 1 + result.passes := by
    intro decl hdecl
    have hpos := (hrank decl hdecl).pos
    have hle := hbound decl hdecl
    omega
  refine ⟨rank, fun decl hdecl value => ⟨(hrank decl hdecl).unique hfresh, ?_⟩, ?_, ?_⟩
  · rintro rfl
    exact hrank decl hdecl
  · rw [mergeSort_eq_flatMap hkeys]
    exact happends
  · refine (max?_getD_eq (List.forall_mem_map.mpr hbound) fun hpos => ?_).symm
    obtain ⟨decl, hdecl, hgreatest⟩ := hlast hpos
    exact hgreatest ▸ List.mem_map_of_mem hdecl

def Declaration.trunk : Declaration :=
  ⟨"Trunk", none, { methods := [Root.method "Trunk" "void" "grow" [("int32_t", "rings")]] }⟩

def Declaration.leaf : Declaration :=
  ⟨"Leaf", some "Twig", { fields := [Root.field "int32_t" "age"] }⟩

/-- Trees whose parts come before and after the parts that they extend. -/
def Declaration.trees : List Declaration :=
  [.leaf, .trunk, ⟨"Twig", some "Trunk", {}⟩, ⟨"Needle", some "Leaf", {}⟩]

/-- A twig is added right after the trunk; a leaf waits for the next pass, and a needle with it. -/
theorem linearize_order_trees :
    ∃ result, linearize .seeded Declaration.trees = .ok result ∧ result.passes = 2 ∧
      result.registry.names = rootNames ++ ["Trunk", "Twig", "Leaf", "Needle"] ∧
      result.registry.entries[3]? = some
        { name := "Trunk", parent? := some 0
          members := { methods := [Root.method "Trunk" "void" "grow" [("int32_t", "rings")]] } } ∧
      result.registry.entries[5]? = some
        { name := "Leaf", parent? := some 4
          members := { fields := [Root.field "int32_t" "age"] } } ∧
      ∃ rank : Declaration → Nat, Declaration.trees.map rank = [2, 1, 1, 2] ∧
        Registry.seeded.Appends (Declaration.trees.mergeSort fun one other => rank one ≤ rank other)
          result.registry ∧
        result.passes = (Declaration.trees.map rank).max?.getD 0 := by
  obtain ⟨result, hresult, hpasses, hnames, hthree, hfive⟩ : ∃ result,
      linearize .seeded Declaration.trees = .ok result ∧ result.passes = 2 ∧
        result.registry.names = rootNames ++ ["Trunk", "Twig", "Leaf", "Needle"] ∧
        result.registry.entries[3]? = some
          { name := "Trunk", parent? := some 0, members := Declaration.trunk.members } ∧
        result.registry.entries[5]? = some
          { name := "Leaf", parent? := some 4, members := Declaration.leaf.members } :=
    ⟨_, by cbv, rfl, rfl, rfl, rfl⟩
  obtain ⟨rank, hrank, happends, hgreatest⟩ :=
    linearize_order (by decide) (by decide) hresult
  have htrunk : Declaration.Ranked .seeded Declaration.trees .trunk 1 :=
    .ready (by decide) (by decide)
  have htwig : Declaration.Ranked .seeded Declaration.trees ⟨"Twig", some "Trunk", {}⟩ 1 :=
    .later (by decide) rfl (by decide) htrunk
  have hleaf : Declaration.Ranked .seeded Declaration.trees .leaf 2 :=
    .earlier (by decide) rfl (by decide) htwig
  have hneedle : Declaration.Ranked .seeded Declaration.trees ⟨"Needle", some "Leaf", {}⟩ 2 :=
    .later (by decide) rfl (by decide) hleaf
  refine ⟨result, hresult, hpasses, hnames, hthree, hfive, rank, ?_, happends, hgreatest⟩
  rw [Declaration.trees, List.map_cons, List.map_cons, List.map_cons, List.map_cons, List.map_nil,
    (hrank _ hleaf.mem _).mp hleaf, (hrank _ htrunk.mem _).mp htrunk,
    (hrank _ htwig.mem _).mp htwig, (hrank _ hneedle.mem _).mp hneedle]

end ClassLayout
