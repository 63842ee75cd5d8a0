import ClassLayout.Proofs.Identity
import ClassLayout.Proofs.Locality

/-!
# Members that dispatch does not see

A table is made of the methods that are called through it, and of each name the first one counts.
Fields and constructors are silent, and so are static and private methods, methods that bear the name
of the identity, and methods that come after a virtual one of the same name. A unit may lose any of
these, in any of its classes and all at once: it is still accepted, and no table changes.
-/

namespace ClassLayout

namespace Source

def MethodDecl.isVirtual (decl : MethodDecl) : Bool :=
  !(Modifiers.ofKeywords decl.modifiers).static &&
    (Modifiers.ofKeywords decl.modifiers).access != .priv

/-- A member that dispatch does not see, after the members `before` of its class. -/
inductive Member.Silent (before : List Member) : Member → Prop
  | field (decl : FieldDecl) : Silent before (.field decl)
  | constructor (decl : ConstructorDecl) : Silent before (.constructor decl)
  | bound {decl : MethodDecl} (hbound : decl.isVirtual = false) : Silent before (.method decl)
  | identity {decl : MethodDecl} (hname : decl.name = Slot.identityName) :
      Silent before (.method decl)
  | repeated {decl : MethodDecl} (first : MethodDecl) (hfirst : .method first ∈ before)
      (hvirtual : first.isVirtual = true) (hname : first.name = decl.name) :
      Silent before (.method decl)

/-- Some silent members are dropped from the end of a list that starts with `before`. -/
inductive Member.Sheds : List Member → List Member → List Member → Prop
  | nil {before : List Member} : Sheds before [] []
  | keep {before rest kept : List Member} {member : Member}
      (hrest : Sheds (before ++ [member]) rest kept) : Sheds before (member :: rest) (member :: kept)
  | drop {before rest kept : List Member} {member : Member} (hsilent : member.Silent before)
      (hrest : Sheds (before ++ [member]) rest kept) : Sheds before (member :: rest) kept

def Class.Sheds (decl reduced : Class) : Prop :=
  ∃ kept, Member.Sheds [] decl.members kept ∧ reduced = { decl with members := kept }

def Unit.Sheds (unit reduced : Unit) : Prop :=
  reduced.package? = unit.package? ∧ List.Forall₂ Class.Sheds unit.classes reduced.classes

end Source

open Source

/-! ### The methods of a class -/

def Source.Member.Covered (members : List Member) (taken : List String) : Prop :=
  ∀ decl, .method decl ∈ members → decl.isVirtual = true → decl.name ∈ taken

namespace Source.Member

variable {before members kept : List Member} {member : Member} {taken : List String}

theorem Covered.append (hbefore : Covered before taken) (hmember : Covered [member] taken) :
    Covered (before ++ [member]) taken := by
  intro decl hdecl hvirtual
  rcases List.mem_append.mp hdecl with hold | hnew
  · exact hbefore decl hold hvirtual
  · exact hmember decl hnew hvirtual

theorem Covered.mono {more : List String} (hcovered : Covered members taken) (hmore : taken ⊆ more) :
    Covered members more :=
  fun decl hdecl hvirtual => hmore (hcovered decl hdecl hvirtual)

theorem Silent.covered (hsilent : member.Silent before) (hidentity : Slot.identityName ∈ taken)
    (hbefore : Covered before taken) : Covered [member] taken := by
  intro decl hdecl hvirtual
  obtain rfl := List.mem_singleton.mp hdecl
  cases hsilent with
  | bound hbound =>
      rw [hbound] at hvirtual
      cases hvirtual
  | identity hname => exact hname ▸ hidentity
  | repeated first hfirst hvirtual hname => exact hname ▸ hbefore _ hfirst hvirtual

end Source.Member

namespace Method

variable {before members kept : List Member} {member : Member} {taken : List String}

theorem newSlots_covered (owner : String) (hmember : Member.Covered [member] taken)
    (rest : List Member) :
    newSlots owner taken (Declaration.methods owner (member :: rest)) =
      newSlots owner taken (Declaration.methods owner rest) := by
  cases member with
  | field decl => rfl
  | constructor decl => rfl
  | method decl =>
      rw [Declaration.methods_method, newSlots, if_neg]
      rw [Bool.and_eq_true, Bool.not_eq_true', ← Bool.not_eq_true, List.contains_iff_mem]
      rintro ⟨hvirtual, hfree⟩
      exact hfree (hmember decl List.mem_cons_self hvirtual)

theorem newSlots_sheds (owner : String) (hsheds : Member.Sheds before members kept)
    (hidentity : Slot.identityName ∈ taken) (hbefore : Member.Covered before taken) :
    newSlots owner taken (Declaration.methods owner kept) =
      newSlots owner taken (Declaration.methods owner members) := by
  induction hsheds generalizing taken with
  | nil => rfl
  | @keep before rest kept member _ ih =>
      by_cases hmember : Member.Covered [member] taken
      · rw [newSlots_covered owner hmember, newSlots_covered owner hmember]
        exact ih hidentity (hbefore.append hmember)
      · -- A member that is not covered is a virtual method of a new name.
        obtain ⟨decl, hdecl, hvirtual, hfree⟩ : ∃ decl, .method decl ∈ [member] ∧
            decl.isVirtual = true ∧ decl.name ∉ taken := by
          simpa [Member.Covered] using hmember
        obtain rfl := List.mem_singleton.mp hdecl
        have hnew : ((Declaration.method owner decl).isVirtual &&
            !taken.contains (Declaration.method owner decl).name) = true := by
          rw [Bool.and_eq_true, Bool.not_eq_true', ← Bool.not_eq_true, List.contains_iff_mem]
          exact ⟨hvirtual, hfree⟩
        rw [Declaration.methods_method, Declaration.methods_method, newSlots, newSlots, if_pos hnew,
          if_pos hnew]
        have hcovered : Member.Covered [.method decl] (decl.name :: taken) := by
          intro other hother _
          obtain rfl := Member.method.inj (List.mem_singleton.mp hother)
          exact List.mem_cons_self
        refine congrArg _ (ih (List.mem_cons_of_mem _ hidentity) ?_)
        exact (hbefore.mono (List.subset_cons_self ..)).append hcovered
  | drop hsilent _ ih =>
      have hmember := hsilent.covered hidentity hbefore
      rw [newSlots_covered owner hmember]
      exact ih hidentity (hbefore.append hmember)

end Method

/-! ### One level -/

/-- The new slots that a class would have below nothing but an identity say what it makes of a slot
that is passed on. -/
theorem Slot.inherited_eq (owner : String) (methods : List Method) {slot : Slot}
    (hkind : slot.decl.kind = .method) (hname : slot.name ≠ identityName) :
    slot.inherited owner methods =
      ((Method.newSlots owner [identityName] methods).find? (·.name == slot.name)).getD
        (slot.forwarded owner) := by
  rw [Method.find?_newSlots (by simpa using hname), inherited, if_neg (by simp [hkind])]
  cases Method.overriding? methods slot.name <;> rfl

theorem Derivation.slots_sheds {parent : Table} {above : String} (horderly : parent.Orderly)
    (hparent : parent.Identifies above) (owner : String) {members kept : List Member}
    (hsheds : Member.Sheds [] members kept) :
    (ofParent parent owner (Declaration.methods owner kept)).table.slots =
      (ofParent parent owner (Declaration.methods owner members)).table.slots := by
  have hnone : ∀ {taken : List String}, Member.Covered [] taken := by
    intro taken decl hdecl
    cases hdecl
  have hold : ∀ slot ∈ parent.slots, slot.inherited owner (Declaration.methods owner kept) =
      slot.inherited owner (Declaration.methods owner members) := by
    intro slot hslot
    cases hkind : slot.decl.kind with
    | identity => rw [Slot.inherited, Slot.inherited, if_pos hkind, if_pos hkind]
    | method =>
        have hname := hparent.name_ne horderly hslot hkind
        rw [Slot.inherited_eq owner _ hkind hname, Slot.inherited_eq owner _ hkind hname,
          Method.newSlots_sheds owner hsheds List.mem_cons_self hnone]
  rw [slots_ofParent horderly, slots_ofParent horderly, List.map_congr_left hold,
    Method.newSlots_sheds owner hsheds hparent.identityName_mem hnone]

/-! ### Two runs -/

namespace Source.Class

variable {classes reduced : List Class} {decl : Class}

theorem headings_sheds (hsheds : List.Forall₂ Sheds classes reduced) :
    classes.map heading = reduced.map heading := by
  induction hsheds with
  | nil => rfl
  | cons hclass _ ih =>
      obtain ⟨kept, -, rfl⟩ := hclass
      rw [List.map_cons, List.map_cons, ih]
      rfl

theorem exists_sheds_of_mem (hsheds : List.Forall₂ Sheds classes reduced) (hdecl : decl ∈ classes) :
    ∃ kept, Member.Sheds [] decl.members kept ∧ { decl with members := kept } ∈ reduced := by
  induction hsheds with
  | nil => cases hdecl
  | cons hclass _ ih =>
      rcases List.mem_cons.mp hdecl with rfl | hrest
      · obtain ⟨kept, hkept, rfl⟩ := hclass
        exact ⟨kept, hkept, List.mem_cons_self⟩
      · obtain ⟨kept, hkept, hmem⟩ := ih hrest
        exact ⟨kept, hkept, List.mem_cons_of_mem _ hmem⟩

end Source.Class

section Sheds

variable {unit reduced : Source.Unit} {entryPoint otherPoint : String} {program rival : Program}

theorem exists_table_eq (hlower : lower unit entryPoint = .ok program)
    (hrival : lower reduced otherPoint = .ok rival) (hsheds : unit.Sheds reduced) {id : Nat}
    {entry : Entry} (hentry : program.registry.entries[id]? = some entry) :
    ∃ (place : Nat) (twin : Entry), rival.registry.entries[place]? = some twin ∧
      twin.name = entry.name ∧ twin.table = entry.table := by
  have hresolved := resolved_of_lower hlower
  refine climb_of_lower (motive := fun entry => ∃ (place : Nat) (twin : Entry),
    rival.registry.entries[place]? = some twin ∧ twin.name = entry.name ∧
      twin.table = entry.table) hlower ?_ ?_ hentry
  · intro root hroot
    obtain ⟨place, hplace⟩ := (represents_of_lower hrival).exists_root hroot
    exact ⟨place, root, hplace, rfl, rfl⟩
  · rintro decl hdecl parent above habove hname ⟨high, twin, hhigh, hsame, htable⟩
    obtain ⟨kept, hkept, hmem⟩ := Source.Class.exists_sheds_of_mem hsheds.2 hdecl
    -- The parent's namesake has the parent's table, so the members alone could make a difference.
    obtain ⟨place, htwin⟩ := exists_resolve_below hrival hmem hhigh (hsame.trans hname)
    refine ⟨place, _, htwin, by simp, ?_⟩
    rw [Declaration.table_resolve_ofSource, Declaration.table_resolve_ofSource, htable]
    exact congrArg Table.mk
      (Derivation.slots_sheds (hresolved.orderly habove) (hresolved.identifies habove) _ hkept)

end Sheds

/-- A unit without some of its silent members is accepted as well, and every class has the table and
the fingerprint that it has with them. -/
theorem lower_sheds {unit reduced : Source.Unit} {entryPoint : String} {program : Program}
    (hlower : lower unit entryPoint = .ok program) (hsheds : unit.Sheds reduced)
    (otherPoint : String) :
    ∃ rival, lower reduced otherPoint = .ok rival ∧ rival.registry.size = program.registry.size ∧
      ∀ (id : Nat) (entry : Entry), program.registry.entries[id]? = some entry →
        ∃ twin, rival.registry.byName entry.name = .ok (some twin) ∧ twin.table = entry.table ∧
          twin.table.fingerprint twin.name = entry.table.fingerprint entry.name := by
  obtain ⟨rival, hrival⟩ :=
    (exists_lower_congr (Source.Class.headings_sheds hsheds.2)).mp ⟨program, hlower⟩
  refine ⟨rival, hrival, ?_, ?_⟩
  · rw [(represents_of_lower hrival).size_eq, (represents_of_lower hlower).size_eq,
      hsheds.2.length_eq]
  · intro id entry hentry
    obtain ⟨place, twin, htwin, hname, htable⟩ := exists_table_eq hlower hrival hsheds hentry
    refine ⟨twin, ?_, htable, by rw [hname, htable]⟩
    rw [← hname]
    exact (sound_of_lower hrival).byName_eq htwin

def Source.Unit.piles : Source.Unit :=
  ⟨none,
    [((Class.named "Deck").extending "Pile").withField ["private"] "int" "seed" none
      |>.withMethod ["private"] (some "Card") "top" []
      |>.withMethod ["public"] none "shuffle" [],
     (Class.named "Pile").withConstructor ["public"] []
      |>.withMethod ["public"] (some "Card") "top" []
      |>.withMethod ["public", "static"] (some "Pile") "empty" []
      |>.withMethod ["public"] (some "Card") "top" [("int", "depth")]
      |>.withMethod ["public"] (some "Class") "__is_a" []]⟩

def Source.Unit.barePiles : Source.Unit :=
  ⟨none,
    [((Class.named "Deck").extending "Pile").withMethod ["public"] none "shuffle" [],
     (Class.named "Pile").withMethod ["public"] (some "Card") "top" []]⟩

theorem Source.Unit.piles_sheds : Unit.piles.Sheds .barePiles := by
  refine ⟨rfl, .cons ⟨_, ?_, rfl⟩ (.cons ⟨_, ?_, rfl⟩ .nil)⟩
  · exact .drop (.field _) (.drop (.bound rfl) (.keep .nil))
  · refine .drop (.constructor _) (.keep (.drop (.bound rfl) ?_))
    exact .drop (.repeated ⟨["public"], some ⟨"Card", 0⟩, "top", []⟩ (by decide) rfl rfl)
      (.drop (.identity rfl) .nil)

/-- A deck calls through the same seven slots, although it loses a field and a method of its own and
two methods of its parent's. -/
theorem lower_sheds_piles :
    ∃ program rival deck twin, lower .piles "main" = .ok program ∧
      lower .barePiles "main" = .ok rival ∧ Source.Unit.piles.Sheds .barePiles ∧
      program.registry.entries[4]? = some deck ∧ deck.name = "Deck" ∧
      deck.table.names = ["__is_a", "hashCode", "equals", "getClass", "toString", "top", "shuffle"] ∧
      rival.registry.byName deck.name = .ok (some twin) ∧ twin.table = deck.table := by
  obtain ⟨program, hlower, deck, hdeck, hname, hnames⟩ :
      ∃ program, lower .piles "main" = .ok program ∧ ∃ deck : Entry,
        program.registry.entries[4]? = some deck ∧ deck.name = "Deck" ∧ deck.table.names =
          ["__is_a", "hashCode", "equals", "getClass", "toString", "top", "shuffle"] := by
    refine ⟨_, by cbv, _, rfl, ?_, ?_⟩
    all_goals rfl
  obtain ⟨rival, hrival, -, htwin⟩ := lower_sheds hlower Source.Unit.piles_sheds "main"
  obtain ⟨twin, hfound, htable, -⟩ := htwin 4 deck hdeck
  exact ⟨program, rival, deck, twin, hlower, hrival, Source.Unit.piles_sheds, hdeck, hname, hnames,
    hfound, htable⟩

end ClassLayout
