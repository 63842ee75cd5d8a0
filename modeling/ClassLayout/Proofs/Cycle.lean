import ClassLayout.Proofs.Outcome
import Mathlib.Data.List.Chain

/-!
# Cycles of parents

A cycle that is reported is one. When the passes are stuck and every parent is known, what waits is
closed: a waiting declaration extends a waiting one. So a walk along the links among what waits never
falls off, and where a name comes up again it has gone around a cycle. The walk starts from the first
declaration that is not grounded, and the cycle is cut off where the walk enters it.
-/

namespace ClassLayout

namespace Declaration

def Extends (decls : List Declaration) (child parent : String) : Prop :=
  ∃ decl ∈ decls, decl.name = child ∧ decl.parent? = some parent

/-- Different names, each of which extends the next and the last of which extends the first. -/
structure IsCycle (decls : List Declaration) (classes : List String) : Prop where
  ne_nil : classes ≠ []
  nodup : classes.Nodup
  extending : (classes ++ classes.take 1).IsChain (Extends decls)

/-- The walk along links, without a result when the links lead nowhere. -/
def walk? (links : List (String × String)) (met : List String) (name : String) :
    Option (List String) :=
  match met.idxOf? name with
  | some start => some (met.drop start)
  | none =>
    match _hlink : links.lookup name with
    | none => none
    | some parent => walk? (unlink links name) (met ++ [name]) parent
termination_by links.length
decreasing_by exact length_unlink_lt ‹_›

/-! ### Walks -/

section Steps

variable {links : List (String × String)} {met classes : List String} {name parent : String}

theorem walk_of_met {start : Nat} (hstart : met.idxOf? name = some start) :
    walk links met name = met.drop start := by
  rw [walk, hstart]

theorem walk_of_link (hnew : met.idxOf? name = none) (hlink : links.lookup name = some parent) :
    walk links met name = walk (unlink links name) (met ++ [name]) parent := by
  rw [walk, hnew]
  dsimp only
  split
  · rename_i hnone
    cases hlink.symm.trans hnone
  · rename_i hsome
    rw [Option.some.inj (hlink.symm.trans hsome)]

theorem walk_eq_of_walk? (hwalk : walk? links met name = some classes) :
    walk links met name = classes := by
  fun_induction walk? links met name with
  | case1 links met name start hstart =>
      rw [walk_of_met hstart]
      exact Option.some.inj hwalk
  | case2 => cases hwalk
  | case3 links met name hnew parent hlink ih => rw [walk_of_link hnew hlink, ih hwalk]

end Steps

theorem lookup_unlink {links : List (String × String)} {name other : String} (hne : other ≠ name) :
    (unlink links name).lookup other = links.lookup other := by
  unfold unlink
  induction links with
  | nil => rfl
  | cons link rest ih =>
      by_cases hkey : link.1 = name
      · rw [List.filter_cons_of_neg (by simp [hkey]), ih, List.lookup_cons, hkey,
          beq_eq_false_iff_ne.mpr hne]
      · rw [List.filter_cons_of_pos (by simp [hkey]), List.lookup_cons, List.lookup_cons, ih]

theorem exists_walk?_eq {all links : List (String × String)} {names met : List String}
    {name : String} (hclosed : ∀ child ∈ names, ∃ parent ∈ names, all.lookup child = some parent)
    (hname : name ∈ names) (hlinks : ∀ child, child ∉ met → links.lookup child = all.lookup child)
    (hnodup : met.Nodup)
    (hchain : (met ++ [name]).IsChain fun child parent => all.lookup child = some parent) :
    ∃ way classes, walk? links met name = some classes ∧ classes ≠ [] ∧ (way ++ classes).Nodup ∧
      met ++ [name] <+: way ++ classes ++ classes.take 1 ∧
      (way ++ classes ++ classes.take 1).IsChain fun child parent =>
        all.lookup child = some parent := by
  fun_induction walk? links met name with
  | case1 links met name start hstart =>
      obtain ⟨hlt, hmet, -⟩ := List.idxOf?_eq_some_iff.mp hstart
      have hfirst : (met.drop start).take 1 = [name] := by
        rw [List.drop_eq_getElem_cons hlt, hmet, List.take_succ_cons, List.take_zero]
      have hback : met.take start ++ met.drop start ++ (met.drop start).take 1 = met ++ [name] := by
        rw [List.take_append_drop, hfirst]
      refine ⟨met.take start, met.drop start, rfl, by simpa using hlt, ?_, ?_, ?_⟩
      · rwa [List.take_append_drop]
      · exact hback ▸ List.prefix_refl _
      · rwa [hback]
  | case2 links met name hnew hnone =>
      obtain ⟨parent, -, hparent⟩ := hclosed name hname
      rw [hlinks name (List.idxOf?_eq_none_iff.mp hnew), hparent] at hnone
      cases hnone
  | case3 links met name hnew parent hlink ih =>
      have hmet := List.idxOf?_eq_none_iff.mp hnew
      rw [hlinks name hmet] at hlink
      obtain ⟨next, hnext, hlookup⟩ := hclosed name hname
      obtain rfl := Option.some.inj (hlink.symm.trans hlookup)
      -- The links that are dropped lead from names that the walk will not follow again.
      have hkept : ∀ child, child ∉ met ++ [name] →
          (unlink links name).lookup child = all.lookup child := by
        intro child hchild
        rw [List.mem_append, List.mem_singleton, not_or] at hchild
        rw [lookup_unlink hchild.2, hlinks child hchild.1]
      have hlonger : (met ++ [name]).Nodup := by
        rw [List.nodup_append]
        refine ⟨hnodup, List.nodup_singleton _, ?_⟩
        rintro one hone other hother rfl
        exact hmet (List.mem_singleton.mp hother ▸ hone)
      have hgoes : (met ++ [name] ++ [parent]).IsChain fun child parent =>
          all.lookup child = some parent := by
        refine hchain.append (List.isChain_singleton _) ?_
        simpa using hlink
      obtain ⟨way, classes, hwalk, hne, hdistinct, hfront, hround⟩ := ih hnext hkept hlonger hgoes
      exact ⟨way, classes, hwalk, hne, hdistinct, (List.prefix_append _ _).trans hfront, hround⟩

theorem extends_of_lookup {decls : List Declaration} {child parent : String}
    (hlookup : (links decls).lookup child = some parent) : Extends decls child parent := by
  obtain ⟨before, after, hlinks, -⟩ := List.lookup_eq_some_iff.mp hlookup
  have hlink : (child, parent) ∈ links decls := by simp [hlinks]
  rw [links, List.mem_reverse, List.mem_filterMap] at hlink
  obtain ⟨decl, hdecl, hlink⟩ := hlink
  obtain ⟨found, hparent, heq⟩ := Option.map_eq_some_iff.mp hlink
  obtain ⟨rfl, rfl⟩ := Prod.mk.inj heq
  exact ⟨decl, hdecl, rfl, hparent⟩

theorem of_diagnose_eq {registry : Registry} {first : Declaration} {rest : List Declaration}
    {classes : List String}
    (hcause : diagnose registry (first :: rest) = .circularInheritance classes) :
    orphan? registry (links (first :: rest)) (first :: rest) = none ∧
      walk (links (first :: rest)) [] first.name = classes := by
  unfold diagnose at hcause
  dsimp only at hcause
  split at hcause
  · cases hcause
  · rename_i hnone
    exact ⟨hnone, HierarchyError.circularInheritance.inj hcause⟩

end Declaration

theorem Worklist.Stuck.closed {work : Worklist} (hstuck : work.Stuck)
    (hbase : baseName ∈ work.registry.names)
    (hnone : Declaration.orphan? work.registry (Declaration.links work.pending) work.pending = none)
    {name : String} (hname : name ∈ work.pending.map Declaration.name) :
    ∃ parent ∈ work.pending.map Declaration.name,
      (Declaration.links work.pending).lookup name = some parent := by
  have hparents : ∀ decl ∈ work.pending, ∃ parent, decl.parent? = some parent :=
    fun _ => hstuck.exists_parent hbase
  obtain ⟨parent, hlookup⟩ := Option.isSome_iff_exists.mp
    ((Declaration.lookup_links_isSome hparents name).mpr hname)
  obtain ⟨decl, hdecl, rfl, hparent⟩ := Declaration.extends_of_lookup hlookup
  have hknown : parent ∈ work.names := by
    by_contra hunknown
    rw [Declaration.orphan?_eq, funext (hstuck.known_iff hbase)] at hnone
    have horphaned : Declaration.orphaned (work.names.contains ·) decl = true := by
      rw [Declaration.orphaned_eq hparent, Bool.not_eq_true', ← Bool.not_eq_true,
        List.contains_iff_mem]
      exact hunknown
    obtain ⟨orphan, horphan⟩ := Option.isSome_iff_exists.mp
      (List.find?_isSome.mpr ⟨decl, hdecl, horphaned⟩)
    obtain ⟨missing, hmissing⟩ := hparents orphan (List.mem_of_find?_eq_some horphan)
    rw [horphan, Option.bind_some, hmissing] at hnone
    cases hnone
  refine ⟨parent, (List.mem_append.mp hknown).resolve_left ?_, hlookup⟩
  have hunplaced := hstuck decl hdecl
  rwa [Declaration.parentName, hparent, Option.getD_some] at hunplaced

theorem Worklist.Run.exists_before {work last : Worklist} (hrun : work.Run last)
    (hfresh : work.Fresh) (hstuck : last.Stuck) {first : Declaration} {rest : List Declaration}
    (hpending : last.pending = first :: rest) :
    ∃ before after, work.pending = before ++ first :: after ∧
      (∀ decl ∈ before, work.Grounded decl.name) ∧ ¬ work.Grounded first.name := by
  have hgrounded : ∀ name, work.Grounded name ↔ last.registry.contains name = true :=
    fun name => (hrun.grounded_iff hfresh hstuck).trans Registry.contains_iff_mem.symm
  rw [hrun.pending_eq hfresh] at hpending
  obtain ⟨before, after, hwork, hbefore, hfirst, -⟩ := List.filter_eq_cons_iff.mp hpending
  refine ⟨before, after, hwork, fun decl hdecl => ?_, ?_⟩
  · simpa [hgrounded] using hbefore decl hdecl
  · simpa [hgrounded] using hfirst

/-- A cycle that is reported is one: the cycle that the walk from the first declaration without
ground runs into, from where it is entered. The walk along the links among what waits does not fall
off. -/
theorem linearize_cycle {registry reached : Registry} {decls : List Declaration}
    {classes : List String} (hbase : baseName ∈ registry.names)
    (hnodup : (decls.map Declaration.name).Nodup)
    (hnew : ∀ decl ∈ decls, decl.name ∉ registry.names)
    (hcycle : linearize registry decls = .error ⟨reached, .circularInheritance classes⟩) :
    Declaration.IsCycle decls classes ∧
    ∃ before first after, decls = before ++ first :: after ∧
      (∀ decl ∈ before, Worklist.Grounded ⟨registry, decls⟩ decl.name) ∧
      ¬ Worklist.Grounded ⟨registry, decls⟩ first.name ∧
      (∃ way, (way ++ classes).head? = some first.name ∧ (way ++ classes).Nodup ∧
        (way ++ classes ++ classes.take 1).IsChain (Declaration.Extends decls)) ∧
      ∃ rest, decls.filter (fun decl => !reached.contains decl.name) = first :: rest ∧
        Declaration.walk? (Declaration.links (first :: rest)) [] first.name = some classes := by
  have hfresh : Worklist.Fresh ⟨registry, decls⟩ := ⟨hnodup, hnew⟩
  have hends := Worklist.linearize_ends ⟨registry, decls⟩ hfresh
  rw [hcycle] at hends
  obtain ⟨waiting, hrun, hwait, hstuck, hcause⟩ := hends
  cases waiting with
  | nil => exact absurd rfl hwait
  | cons first rest =>
      have hplaced : baseName ∈ reached.names := hrun.names_grow.subset hbase
      obtain ⟨hnone, hwalk⟩ := Declaration.of_diagnose_eq hcause.symm
      obtain ⟨way, found, hfound, hne, hdistinct, hfront, hround⟩ :=
        Declaration.exists_walk?_eq (fun _ => hstuck.closed hplaced hnone) List.mem_cons_self
          (fun _ _ => rfl) List.nodup_nil (List.isChain_singleton first.name)
      obtain rfl := (Declaration.walk_eq_of_walk? hfound).symm.trans hwalk
      have hextends : (way ++ found ++ found.take 1).IsChain (Declaration.Extends decls) := by
        refine hround.imp fun child parent hlookup => ?_
        obtain ⟨decl, hdecl, hname⟩ := Declaration.extends_of_lookup hlookup
        exact ⟨decl, hrun.pending_subset hfresh hdecl, hname⟩
      have hstart : (way ++ found).head? = some first.name := by
        obtain ⟨tail, htail⟩ := hfront
        rw [← List.head?_append_of_ne_nil (way ++ found) (by simp [hne]), ← htail]
        rfl
      have hcycle : Declaration.IsCycle decls found := by
        refine ⟨hne, hdistinct.of_append_right, ?_⟩
        rw [List.append_assoc] at hextends
        exact hextends.right_of_append
      obtain ⟨before, after, hdecls, hbefore, hfirst⟩ := hrun.exists_before hfresh hstuck rfl
      exact ⟨hcycle, before, first, after, hdecls, hbefore, hfirst,
        ⟨way, hstart, hdistinct, hextends⟩, rest, (hrun.pending_eq hfresh).symm, hfound⟩

/-- Hens come from eggs and eggs from hens; chicks only hang on. -/
def Declaration.brood : List Declaration :=
  [⟨"Coop", none, {}⟩, ⟨"Chick", some "Hen", {}⟩, ⟨"Hen", some "Egg", {}⟩, ⟨"Egg", some "Hen", {}⟩]

theorem linearize_cycle_brood :
    ∃ reached, linearize .seeded Declaration.brood =
        .error ⟨reached, .circularInheritance ["Hen", "Egg"]⟩ ∧
      Declaration.IsCycle Declaration.brood ["Hen", "Egg"] ∧
      ∃ first ∈ Declaration.brood, ¬ Worklist.Grounded ⟨.seeded, Declaration.brood⟩ first.name ∧
        ∃ way, (way ++ ["Hen", "Egg"]).head? = some first.name ∧
          (way ++ ["Hen", "Egg", "Hen"]).IsChain (Declaration.Extends Declaration.brood) := by
  have hwalk : Declaration.walk (Declaration.links (Declaration.brood.drop 1)) [] "Chick" =
      ["Hen", "Egg"] :=
    calc
      _ = Declaration.walk [("Egg", "Hen"), ("Hen", "Egg")] ["Chick"] "Hen" :=
        Declaration.walk_of_link (by decide) (by decide)
      _ = Declaration.walk [("Egg", "Hen")] ["Chick", "Hen"] "Egg" :=
        Declaration.walk_of_link (by decide) (by decide)
      _ = Declaration.walk [] ["Chick", "Hen", "Egg"] "Hen" :=
        Declaration.walk_of_link (by decide) (by decide)
      _ = ["Chick", "Hen", "Egg"].drop 1 := Declaration.walk_of_met (by decide)
  -- The first pass adds the coop, the second nothing, and every parent is known.
  obtain ⟨reached, hfirst, hsecond, hcause⟩ : ∃ reached,
      Declaration.pass .seeded Declaration.brood = .ok (reached, Declaration.brood.drop 1) ∧
      Declaration.pass reached (Declaration.brood.drop 1) =
        .ok (reached, Declaration.brood.drop 1) ∧
      Declaration.diagnose reached (Declaration.brood.drop 1) =
        .circularInheritance ["Hen", "Egg"] :=
    ⟨_, rfl, rfl, congrArg HierarchyError.circularInheritance hwalk⟩
  have hstuck : linearize reached (Declaration.brood.drop 1) =
      .error ⟨reached, .circularInheritance ["Hen", "Egg"]⟩ := by
    rw [linearize, hsecond, ← hcause]
    rfl
  have hcycle : linearize .seeded Declaration.brood =
      .error ⟨reached, .circularInheritance ["Hen", "Egg"]⟩ := by
    rw [linearize, hfirst]
    exact congrArg (Except.map _) hstuck
  obtain ⟨hround, before, first, after, hdecls, -, hstart, ⟨way, hhead, -, hway⟩, -⟩ :=
    linearize_cycle (by decide) (by decide) (by decide) hcycle
  refine ⟨reached, hcycle, hround, first, by rw [hdecls]; simp, hstart, way, hhead, ?_⟩
  rwa [List.append_assoc] at hway

end ClassLayout
