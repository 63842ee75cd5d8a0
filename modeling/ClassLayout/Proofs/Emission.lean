import ClassLayout.Proofs.Locality

/-!
# The classes of a program

A program knows its classes in several ways: by position in the registry, by name, as the list that
is written out, and as candidates for the entry class. All of them are views of one list, the
unit's classes in the order in which they were linearized. The candidates are the classes that
declare the entry point, the first of them is the entry class, and all classes but that one are
written out. What stands above a class that is written out is a root, the entry class, or a class
that was written out before.
-/

namespace ClassLayout

/-- The class has a method of the given name among its own members. -/
def Source.Class.declares (decl : Class) (name : String) : Bool :=
  (decl.members.filterMap Member.method?).any (·.name == name)

theorem Declaration.declaresMethod_ofSource (decl : Source.Class) (name : String) :
    (ofSource decl).members.declaresMethod name = decl.declares name := by
  rw [Members.declaresMethod, methods_ofSource, methods, List.any_map]
  rfl

/-! ### Positions and names -/

namespace Program

variable {registry : Registry} {package entryPoint : String} {program : Program}

private theorem map_fst_filter_zipIdx (choice : Entry → Bool) (entries : List Entry) (fixed : Nat) :
    ((entries.zipIdx.drop fixed).filter (choice ·.1)).map Prod.fst =
      (entries.drop fixed).filter choice := by
  have hfst : (entries.zipIdx.drop fixed).map Prod.fst = entries.drop fixed := by
    rw [List.map_drop, List.zipIdx_map_fst]
  rw [← hfst, List.filter_map]
  rfl

private theorem filterMap_filter_range {keep : Nat → Bool} {choice : Entry → Bool}
    {entries : List Entry}
    (hchoice : ∀ id entry, entries[id]? = some entry → keep id = choice entry) (fixed : Nat) :
    (((List.range entries.length).drop fixed).filter keep).filterMap (entries[·]?) =
      (entries.drop fixed).filter choice := by
  have hpairs : ∀ pair ∈ entries.zipIdx.drop fixed, entries[pair.2]? = some pair.1 :=
    fun pair hpair => List.mem_zipIdx_iff_getElem?.mp (List.mem_of_mem_drop hpair)
  have hpositions : (List.range entries.length).drop fixed =
      (entries.zipIdx.drop fixed).map Prod.snd := by
    rw [List.map_drop, List.zipIdx_map_snd, List.range_eq_range']
  have hkept : ∀ pair ∈ entries.zipIdx.drop fixed, (keep ∘ Prod.snd) pair = choice pair.1 :=
    fun pair hpair => hchoice pair.2 pair.1 (hpairs pair hpair)
  rw [hpositions, List.filter_map, List.filterMap_map, List.filter_congr hkept,
    ← map_fst_filter_zipIdx, ← List.filterMap_eq_map]
  exact List.filterMap_congr fun pair hpair => hpairs pair (List.mem_of_mem_filter hpair)

theorem candidates_ofRegistry : (ofRegistry registry package entryPoint).candidates =
    ((registry.entries.drop rootCount).filter (·.members.declaresMethod entryPoint)).map
      Entry.name := by
  rw [← map_fst_filter_zipIdx, List.map_map]
  rfl

theorem entryClass?_ofRegistry : (ofRegistry registry package entryPoint).entryClass? =
    (ofRegistry registry package entryPoint).candidates.head? :=
  (List.head?_map ..).symm

theorem ne_entryClass?_iff (hsound : registry.Sound) {entry : Entry} {id : Nat}
    (hentry : registry.entries[id]? = some entry) :
    some id ≠ (entryCandidates registry entryPoint).head?.map Prod.snd ↔
      some entry.name ≠ (entryCandidates registry entryPoint).head?.map (·.1.name) := by
  cases hhead : (entryCandidates registry entryPoint).head? with
  | none => simp
  | some first =>
      have hfirst : registry.entries[first.2]? = some first.1 := by
        have hmem := List.mem_of_mem_drop (List.mem_of_mem_filter (List.mem_of_head? hhead))
        exact List.mem_zipIdx_iff_getElem?.mp hmem
      simp only [Option.map_some, ne_eq, Option.some.injEq]
      refine not_congr ⟨?_, hsound.id_eq_of_name_eq hentry hfirst⟩
      rintro rfl
      rw [Option.some.inj (hentry.symm.trans hfirst)]

theorem classes_ofRegistry (hsound : registry.Sound) :
    (ofRegistry registry package entryPoint).classes =
      (registry.entries.drop rootCount).filter fun entry =>
        some entry.name != (ofRegistry registry package entryPoint).entryClass? := by
  refine filterMap_filter_range (fun id entry hentry => ?_) rootCount
  rw [Bool.eq_iff_iff, bne_iff_ne, bne_iff_ne]
  exact ne_entryClass?_iff hsound hentry

theorem class?_eq_some_iff (hsound : program.registry.Sound) {name : String} {entry : Entry} :
    program.class? name = some entry ↔ entry ∈ program.classes ∧ entry.name = name := by
  rw [class?, classes, List.mem_filterMap]
  constructor
  · intro hfound
    split at hfound
    · cases hfound
    · rename_i id hlookup
      split at hfound
      · rename_i hemitted
        refine ⟨⟨id, List.contains_iff_mem.mp hemitted, hfound⟩, ?_⟩
        obtain ⟨other, hother, hname⟩ := hsound.lookup?_iff.mp hlookup
        rw [← hname, Option.some.inj (hfound.symm.trans hother)]
      · cases hfound
  · rintro ⟨⟨id, hemitted, hentry⟩, rfl⟩
    rw [hsound.lookup?_name hentry]
    simpa [hemitted] using hentry

end Program

/-! ### Classes of a unit in order -/

namespace Registry

variable {registry : Registry} {unit : Source.Unit}

theorem Represents.exists_source (hrepresents : registry.Represents unit) :
    ∃ source : Entry → Source.Class, ∀ entry ∈ registry.entries.drop rootCount,
      source entry ∈ unit.classes ∧ (source entry).name = entry.name ∧
        ∀ name, (source entry).declares name = entry.members.declaresMethod name := by
  have hsource : ∀ entry : Entry, ∃ decl : Source.Class,
      entry ∈ registry.entries.drop rootCount → decl ∈ unit.classes ∧ decl.name = entry.name ∧
        ∀ name, decl.declares name = entry.members.declaresMethod name := by
    intro entry
    by_cases hentry : entry ∈ registry.entries.drop rootCount
    · obtain ⟨place, hplace⟩ := List.mem_iff_getElem?.mp hentry
      rw [List.getElem?_drop] at hplace
      obtain ⟨decl, hdecl, hname, -, hmethods, -⟩ :=
        hrepresents.declared _ entry (Nat.le_add_right ..) hplace
      refine ⟨decl, fun _ => ⟨hdecl, hname.symm, fun name => ?_⟩⟩
      rw [← Declaration.declaresMethod_ofSource, Members.declaresMethod, ← hmethods]
      rfl
    · exact ⟨.named "", fun hmem => absurd hmem hentry⟩
  choose source hsource using hsource
  exact ⟨source, hsource⟩

theorem Represents.exists_classes (hrepresents : registry.Represents unit)
    (hsound : registry.Sound) :
    ∃ classes : List Source.Class, classes.Perm unit.classes ∧
      classes.map Source.Class.name = (registry.entries.drop rootCount).map Entry.name ∧
      ∀ name, (classes.filter (·.declares name)).map Source.Class.name =
        ((registry.entries.drop rootCount).filter (·.members.declaresMethod name)).map
          Entry.name := by
  obtain ⟨source, hsource⟩ := hrepresents.exists_source
  have hname : ∀ entry ∈ registry.entries.drop rootCount,
      (Source.Class.name ∘ source) entry = entry.name := fun entry hentry =>
    (hsource entry hentry).2.1
  have hnames : ((registry.entries.drop rootCount).map source).map Source.Class.name =
      (registry.entries.drop rootCount).map Entry.name := by
    rw [List.map_map]
    exact List.map_congr_left hname
  refine ⟨(registry.entries.drop rootCount).map source, ?_, hnames, fun name => ?_⟩
  · -- Different classes of the unit, and as many as it has, are all of its classes.
    have hnodup : ((registry.entries.drop rootCount).map source).Nodup := by
      apply List.Nodup.of_map Source.Class.name
      rw [hnames, List.map_drop, ← hsound.names_eq]
      exact hsound.nodup.sublist (List.drop_sublist ..)
    have hsubset : (registry.entries.drop rootCount).map source ⊆ unit.classes := by
      intro decl hdecl
      obtain ⟨entry, hentry, rfl⟩ := List.mem_map.mp hdecl
      exact (hsource entry hentry).1
    have hlength :
        unit.classes.length ≤ ((registry.entries.drop rootCount).map source).length := by
      simpa using hrepresents.classes.length_eq.ge
    exact (List.subperm_of_subset hnodup hsubset).perm_of_length_le hlength
  · have hdeclares : ∀ entry ∈ registry.entries.drop rootCount,
        ((·.declares name) ∘ source) entry = entry.members.declaresMethod name :=
      fun entry hentry => (hsource entry hentry).2.2 name
    rw [List.filter_map, List.map_map, List.filter_congr hdeclares]
    exact List.map_congr_left fun entry hentry => hname entry (List.mem_of_mem_filter hentry)

theorem Represents.names_eq (hrepresents : registry.Represents unit) (hsound : registry.Sound) :
    registry.names = rootNames ++ (registry.entries.drop rootCount).map Entry.name := by
  have hroots : (registry.entries.take rootCount).map Entry.name = rootNames := by
    rw [hrepresents.roots]
    rfl
  rw [hsound.names_eq, ← hroots, ← List.map_append, List.take_append_drop]

end Registry

namespace Program

section Lowered

variable {unit : Source.Unit} {entryPoint : String} {program : Program}

theorem classes_of_lower (hlower : lower unit entryPoint = .ok program) :
    program.classes = (program.registry.entries.drop rootCount).filter fun entry =>
      some entry.name != program.entryClass? := by
  have hsound := sound_of_lower hlower
  obtain ⟨ordered, -, -, -, rfl⟩ := exists_run_of_lower hlower
  exact classes_ofRegistry hsound

theorem mem_classes_iff (hlower : lower unit entryPoint = .ok program) {entry : Entry} :
    entry ∈ program.classes ↔
      entry ∈ program.registry.entries.drop rootCount ∧ some entry.name ≠ program.entryClass? := by
  rw [classes_of_lower hlower, List.mem_filter, bne_iff_ne]

theorem exists_of_mem_classes (hlower : lower unit entryPoint = .ok program) {entry : Entry}
    (hentry : entry ∈ program.classes) :
    ∃ id, rootCount ≤ id ∧ program.registry.entries[id]? = some entry := by
  obtain ⟨place, hplace⟩ := List.mem_iff_getElem?.mp ((mem_classes_iff hlower).mp hentry).1
  rw [List.getElem?_drop] at hplace
  exact ⟨_, Nat.le_add_right .., hplace⟩

private theorem pair_sublist_drop {entries : List Entry} {fixed low high : Nat} {one other : Entry}
    (hone : entries[low]? = some one) (hother : entries[high]? = some other) (hfixed : fixed ≤ low)
    (hlt : low < high) : [one, other].Sublist (entries.drop fixed) := by
  obtain ⟨hlow, rfl⟩ := List.getElem?_eq_some_iff.mp hone
  have hrest : other ∈ entries.drop (low + 1) := by
    rw [List.mem_iff_getElem?]
    refine ⟨high - (low + 1), ?_⟩
    rw [List.getElem?_drop, Nat.add_sub_cancel' hlt, hother]
  have hpair := (List.singleton_sublist.mpr hrest).cons_cons entries[low]
  rw [← List.drop_eq_getElem_cons hlow] at hpair
  exact hpair.trans (List.drop_sublist_drop_left entries hfixed)

theorem exists_link_of_mem_classes (hlower : lower unit entryPoint = .ok program) {entry : Entry}
    (hentry : entry ∈ program.classes) :
    ∃ id parent above, parent < id ∧ program.registry.entries[id]? = some entry ∧
      entry.parent? = some parent ∧ program.registry.entries[parent]? = some above ∧
      program.parentOf entry = .ok (some above) ∧ unit.Extends entry.name above.name := by
  obtain ⟨id, hid, hplace⟩ := exists_of_mem_classes hlower hentry
  obtain ⟨decl, hdecl, parent, above, hlt, habove, hname, hresolve⟩ :=
    exists_resolve_of_lower hlower hid hplace
  have hlink : entry.parent? = some parent := by simp [hresolve]
  exact ⟨id, parent, above, hlt, hplace, hlink, habove,
    parentOf_eq (sound_of_lower hlower) hplace hlink habove, decl, hdecl, by simp [hresolve],
    hname.symm⟩

theorem exists_parentOf_of_mem_classes (hlower : lower unit entryPoint = .ok program)
    {entry : Entry} (hentry : entry ∈ program.classes) :
    ∃ above : Entry, program.parentOf entry = .ok (some above) ∧
      unit.Extends entry.name above.name ∧
      (above ∈ Registry.seeded.entries ∨ [above, entry].Sublist program.classes ∨
        some above.name = program.entryClass?) := by
  obtain ⟨id, parent, above, hlt, hplace, -, habove, hparent, hextends⟩ :=
    exists_link_of_mem_classes hlower hentry
  refine ⟨above, hparent, hextends, ?_⟩
  rcases Nat.lt_or_ge parent rootCount with hroot | hclass
  · rw [(represents_of_lower hlower).getElem?_root hroot] at habove
    exact .inl (List.mem_of_getElem? habove)
  · refine .inr (or_iff_not_imp_right.mpr fun hother => ?_)
    have hkept := ((mem_classes_iff hlower).mp hentry).2
    have hpair := (pair_sublist_drop habove hplace hclass hlt).filter fun entry =>
      some entry.name != program.entryClass?
    rw [← classes_of_lower hlower] at hpair
    simpa [hother, hkept] using hpair

theorem exists_class?_iff (hlower : lower unit entryPoint = .ok program) {name : String} :
    (∃ entry, program.class? name = some entry) ↔
      name ∈ unit.classes.map Source.Class.name ∧ some name ≠ program.entryClass? := by
  rw [← (represents_of_lower hlower).classes.mem_iff, List.mem_map]
  simp only [class?_eq_some_iff (sound_of_lower hlower), mem_classes_iff hlower]
  constructor
  · rintro ⟨entry, ⟨hentry, hne⟩, rfl⟩
    exact ⟨⟨entry, hentry, rfl⟩, hne⟩
  · rintro ⟨⟨entry, hentry, rfl⟩, hne⟩
    exact ⟨entry, ⟨hentry, hne⟩, rfl⟩

/-- The candidates are classes of the unit, in linearized order like all of its classes. -/
theorem exists_candidates_of_lower (hlower : lower unit entryPoint = .ok program) :
    ∃ (ordered : Linearized) (classes : List Source.Class),
      linearize .seeded (unit.classes.map Declaration.ofSource) = .ok ordered ∧
      ordered.registry.names = rootNames ++ classes.map Source.Class.name ∧
      classes.Perm unit.classes ∧
      program.candidates = (classes.filter (·.declares entryPoint)).map Source.Class.name ∧
      classes.map Source.Class.name =
        (program.registry.entries.drop rootCount).map Entry.name := by
  have hsound := sound_of_lower hlower
  have hrepresents := represents_of_lower hlower
  obtain ⟨classes, hperm, hnames, hdeclares⟩ := hrepresents.exists_classes hsound
  obtain ⟨ordered, hordered, -, -, hprogram⟩ := exists_run_of_lower hlower
  have hsame : ordered.registry.names = program.registry.names := by rw [hprogram]; rfl
  refine ⟨ordered, classes, hordered, ?_, hperm, ?_, hnames⟩
  · rw [hsame, hnames, hrepresents.names_eq hsound]
  · rw [hdeclares, hprogram]
    exact candidates_ofRegistry

end Lowered

end Program

/-- Candidates, entry class and what is written out are read off the unit's classes in linearized
order. The candidates have a method of the entry point's name among their own members, the entry
class is the first of them, and every other class is written out: below a root, below the entry
class or below a class written out before. -/
theorem lower_emission {unit : Source.Unit} {entryPoint : String} {program : Program}
    (hlower : lower unit entryPoint = .ok program) :
    ∃ (ordered : Linearized) (classes : List Source.Class),
      linearize .seeded (unit.classes.map Declaration.ofSource) = .ok ordered ∧
      ordered.registry.names = rootNames ++ classes.map Source.Class.name ∧
      classes.Perm unit.classes ∧
      program.candidates = (classes.filter (·.declares entryPoint)).map Source.Class.name ∧
      program.candidates.Nodup ∧
      program.entryClass? = program.candidates.head? ∧
      program.classes.map Entry.name =
        (classes.map Source.Class.name).filter (some · != program.entryClass?) ∧
      (∀ name, (∃ entry, program.class? name = some entry) ↔
        name ∈ unit.classes.map Source.Class.name ∧ some name ≠ program.entryClass?) ∧
      (∀ name entry, program.class? name = some entry →
        entry.name = name ∧ program.registry.byName name = .ok (some entry)) ∧
      ∀ entry ∈ program.classes, ∃ above : Entry, program.parentOf entry = .ok (some above) ∧
        unit.Extends entry.name above.name ∧
        (above ∈ Registry.seeded.entries ∨ [above, entry].Sublist program.classes ∨
          some above.name = program.entryClass?) := by
  have hsound := sound_of_lower hlower
  obtain ⟨ordered, classes, hordered, hnames, hperm, hcandidates, hentries⟩ :=
    Program.exists_candidates_of_lower hlower
  refine ⟨ordered, classes, hordered, hnames, hperm, hcandidates, ?_, ?_, ?_,
    fun name => Program.exists_class?_iff hlower, ?_,
    fun entry => Program.exists_parentOf_of_mem_classes hlower⟩
  · have hnodup := hsound.nodup
    rw [(represents_of_lower hlower).names_eq hsound, ← hentries] at hnodup
    rw [hcandidates]
    exact (List.nodup_append.mp hnodup).2.1.sublist (List.filter_sublist.map _)
  · obtain ⟨ordered, -, -, -, rfl⟩ := exists_run_of_lower hlower
    exact Program.entryClass?_ofRegistry
  · rw [Program.classes_of_lower hlower, hentries, List.filter_map]
    rfl
  · intro name entry hfound
    obtain ⟨hentry, rfl⟩ := (Program.class?_eq_some_iff hsound).mp hfound
    obtain ⟨id, -, hplace⟩ := Program.exists_of_mem_classes hlower hentry
    exact ⟨rfl, hsound.byName_eq hplace⟩

/-- Players, of whom two declare the entry point and a third inherits it. -/
def Source.Unit.troupe : Source.Unit :=
  ⟨none,
    [(Class.named "Star").extending "Lead",
     ((Class.named "Lead").extending "Actor").withMethod ["public", "static"] none "main" [],
     Class.named "Actor",
     ((Class.named "Critic").extending "Star").withMethod ["private"] (some "int") "main"
       [("int", "seat")]]⟩

/-- The lead stands in the middle of the line and is left out; star and critic are not. -/
theorem lower_emission_troupe :
    ∃ program, lower .troupe "main" = .ok program ∧ program.candidates = ["Lead", "Critic"] ∧
      program.entryClass? = some "Lead" ∧
      program.classes.map Entry.name = ["Actor", "Star", "Critic"] ∧
      (∃ star, program.class? "Star" = some star ∧ star.name = "Star") ∧
      (∀ lead, program.class? "Lead" ≠ some lead) ∧
      ∀ entry ∈ program.classes, ∃ above : Entry, program.parentOf entry = .ok (some above) ∧
        (above ∈ Registry.seeded.entries ∨ [above, entry].Sublist program.classes ∨
          some above.name = some "Lead") := by
  obtain ⟨program, hlower, hcandidates, hentry, hemitted⟩ :
      ∃ program, lower .troupe "main" = .ok program ∧ program.candidates = ["Lead", "Critic"] ∧
        program.entryClass? = some "Lead" ∧
        program.classes.map Entry.name = ["Actor", "Star", "Critic"] :=
    ⟨_, by cbv, rfl, rfl, rfl⟩
  obtain ⟨ordered, classes, -, -, -, -, -, -, -, hfound, hname, hparents⟩ := lower_emission hlower
  rw [hentry] at hfound hparents
  refine ⟨program, hlower, hcandidates, hentry, hemitted, ?_, fun lead hlead => ?_, ?_⟩
  · obtain ⟨star, hstar⟩ := (hfound "Star").mpr (by decide)
    exact ⟨star, hstar, (hname _ _ hstar).1⟩
  · exact ((hfound "Lead").mp ⟨lead, hlead⟩).2 rfl
  · intro entry hentry
    obtain ⟨above, habove, -, hplace⟩ := hparents entry hentry
    exact ⟨above, habove, hplace⟩

end ClassLayout
