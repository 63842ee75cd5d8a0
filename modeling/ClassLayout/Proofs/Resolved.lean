import ClassLayout.Proofs.Shape
import ClassLayout.Proofs.Table

/-!
# Resolved registries

In the registry of an accepted unit every table is made from the parent's table, up to that of the
base class, and the tables of the other roots are no exception. So a fact about all tables needs a
look at the base class and one level of derivation (`Resolved.climb`).
-/

namespace ClassLayout

namespace Registry

variable {registry : Registry}

/-- Every table is made from the parent's, up to the base class. -/
structure Resolved (registry : Registry) : Prop where
  sound : registry.Sound
  base : registry.entries[0]? = some Root.base
  top : ∀ {id : Nat} {entry : Entry}, registry.entries[id]? = some entry → entry.parent? = none →
    id = 0
  table : ∀ {id parent : Nat} {entry above : Entry}, registry.entries[id]? = some entry →
    entry.parent? = some parent → registry.entries[parent]? = some above →
    entry.table = (Entry.derivation above entry).table

/-- The entry at a position, its parent, and so on up to an entry without a parent. -/
inductive Lineage (registry : Registry) : Nat → List Entry → Prop
  | top {id : Nat} {entry : Entry} (hentry : registry.entries[id]? = some entry)
      (hparent : entry.parent? = none) : Lineage registry id [entry]
  | child {id parent : Nat} {entry : Entry} {chain : List Entry}
      (hentry : registry.entries[id]? = some entry) (hparent : entry.parent? = some parent)
      (habove : Lineage registry parent chain) : Lineage registry id (entry :: chain)

theorem Sound.exists_lineage (hsound : registry.Sound) {id : Nat} {entry : Entry}
    (hentry : registry.entries[id]? = some entry) : ∃ chain, registry.Lineage id chain := by
  refine hsound.climb (motive := fun id _ => ∃ chain, registry.Lineage id chain) ?_ ?_ hentry
  · intro id entry hentry hparent
    exact ⟨_, .top hentry hparent⟩
  · rintro id entry parent above hentry hparent - ⟨chain, habove⟩
    exact ⟨_, .child hentry hparent habove⟩

theorem Lineage.exists_position (hsound : registry.Sound) {id : Nat} {chain : List Entry}
    (hchain : registry.Lineage id chain) {entry : Entry} (hentry : entry ∈ chain) :
    ∃ position ≤ id, registry.entries[position]? = some entry := by
  induction hchain with
  | top hself =>
      rw [List.mem_singleton.mp hentry]
      exact ⟨_, Nat.le_refl _, hself⟩
  | child hself hparent _ ih =>
      rcases List.mem_cons.mp hentry with rfl | habove
      · exact ⟨_, Nat.le_refl _, hself⟩
      · obtain ⟨position, hle, hposition⟩ := ih habove
        exact ⟨position, hle.trans (Nat.le_of_lt (hsound.parent_lt hself hparent)), hposition⟩

theorem Lineage.not_mem_above (hsound : registry.Sound) {id parent : Nat} {entry : Entry}
    {chain : List Entry} (hentry : registry.entries[id]? = some entry)
    (hparent : entry.parent? = some parent) (habove : registry.Lineage parent chain) :
    entry ∉ chain := by
  intro hmem
  obtain ⟨position, hle, hposition⟩ := habove.exists_position hsound hmem
  have hlt := hsound.parent_lt hentry hparent
  have hsame := hsound.id_eq_of_name_eq hposition hentry rfl
  omega

namespace Resolved

theorem parent_ne_none (hresolved : registry.Resolved) {id : Nat} {entry : Entry}
    (hid : rootCount ≤ id) (hentry : registry.entries[id]? = some entry) :
    entry.parent? ≠ none := by
  intro hparent
  have hzero := hresolved.top hentry hparent
  have hroots : 0 < rootCount := by decide
  omega

theorem climb (hresolved : registry.Resolved) {motive : Nat → Entry → Prop}
    (hbase : motive 0 Root.base)
    (hchild : ∀ id entry parent above, registry.entries[id]? = some entry →
      entry.parent? = some parent → registry.entries[parent]? = some above → motive parent above →
      entry.table = (Entry.derivation above entry).table → motive id entry)
    {id : Nat} {entry : Entry} (hentry : registry.entries[id]? = some entry) : motive id entry := by
  refine hresolved.sound.climb ?_ ?_ hentry
  · intro id entry hentry hparent
    obtain rfl := hresolved.top hentry hparent
    rw [← Option.some.inj (hresolved.base.symm.trans hentry)]
    exact hbase
  · intro id entry parent above hentry hparent habove ih
    exact hchild id entry parent above hentry hparent habove ih
      (hresolved.table hentry hparent habove)

theorem getLast?_lineage (hresolved : registry.Resolved) {id : Nat} {chain : List Entry}
    (hchain : registry.Lineage id chain) : chain.getLast? = some Root.base := by
  induction hchain with
  | top hentry hparent =>
      obtain rfl := hresolved.top hentry hparent
      exact hentry.symm.trans hresolved.base
  | child _ _ _ ih => rw [List.getLast?_cons, ih, Option.getD_some]

theorem orderly (hresolved : registry.Resolved) {id : Nat} {entry : Entry}
    (hentry : registry.entries[id]? = some entry) : entry.table.Orderly := by
  refine hresolved.climb (motive := fun _ entry => entry.table.Orderly) ?_ ?_ hentry
  · exact ⟨by decide, by decide⟩
  · intro id entry parent above _ _ _ ih htable
    rw [htable]
    exact Derivation.orderly_ofParent ih _ _

end Resolved

end Registry

/-- The tables of an accepted unit are made from each other up to the base class. -/
theorem resolved_of_lower {unit : Source.Unit} {entryPoint : String} {program : Program}
    (hlower : lower unit entryPoint = .ok program) : program.registry.Resolved := by
  have hrepresents := represents_of_lower hlower
  have hbase : program.registry.entries[0]? = some Root.base :=
    hrepresents.getElem?_root (by decide)
  refine ⟨sound_of_lower hlower, hbase, ?_, ?_⟩
  · intro id entry hentry hparent
    rcases Nat.eq_zero_or_pos id with rfl | hid
    · rfl
    · obtain ⟨parent, -, hlink⟩ := hrepresents.parent_lt id entry hid hentry
      rw [hparent] at hlink
      cases hlink
  · intro id parent entry above hentry hparent habove
    rcases Nat.lt_or_ge id rootCount with hroot | huser
    · rw [hrepresents.getElem?_root hroot] at hentry
      rcases Nat.eq_zero_or_pos id with rfl | hid
      · obtain rfl := Option.some.inj hentry
        cases hparent
      · obtain ⟨hlink, htable⟩ := Registry.seeded_child hid hentry
        obtain rfl := Option.some.inj (hlink.symm.trans hparent)
        obtain rfl := Option.some.inj (hbase.symm.trans habove)
        exact htable
    · obtain ⟨decl, -, -, rfl⟩ := exists_resolve_of_parent hlower huser hentry hparent habove
      exact Declaration.table_resolve ..

end ClassLayout
