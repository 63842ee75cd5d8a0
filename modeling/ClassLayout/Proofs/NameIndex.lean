import ClassLayout.Proofs.Registry
import Mathlib.Data.List.Induction

/-!
# The name index of a registry

Operations may come in any order, and an entry may be renamed behind the back of the index. What an
operation can do is said once (`perform_cases`): it adds an entry under a new name, it replaces one
entry, or it changes nothing. So after any history the index has each position once, with a name of
its own (`Indexed`), and a name leads to the position that was answered when an entry of that name
was pushed (`lookup?_after_iff`). Only where nothing was renamed is it the name of the entry that
stands there.
-/

namespace ClassLayout

namespace Registry

variable {registry : Registry} {ops before : List Operation} {op other : Operation}
  {entry : Entry} {name : String} {id : Nat}

/-! ### One operation -/

/-- The names are different, and the positions kept with them are those of the entries, in order. -/
structure Indexed (registry : Registry) : Prop where
  nodup : registry.names.Nodup
  ids_eq : registry.index.map Prod.snd = List.range registry.size

theorem perform_push (registry : Registry) (entry : Entry) :
    registry.perform (.push entry) =
      if entry.name ∈ registry.names then (registry, .declined)
      else (⟨registry.entries ++ [entry], registry.index ++ [(entry.name, registry.size)]⟩,
        .position registry.size) := by
  simp only [perform, push?, contains_iff_mem]
  by_cases htaken : entry.name ∈ registry.names
  · rw [if_pos htaken, if_pos htaken]
  · rw [if_neg htaken, if_neg htaken]

theorem perform_push_declined_iff :
    (registry.perform (.push entry)).2 = .declined ↔ entry.name ∈ registry.names := by
  rw [perform_push]
  split
  · exact iff_of_true rfl ‹_›
  · exact iff_of_false nofun ‹_›

/-- An entry is added, one entry is replaced, or nothing changes. -/
theorem perform_cases (registry : Registry) (op : Operation) :
    (∃ entry, op = .push entry ∧ entry.name ∉ registry.names ∧
      registry.perform op = (⟨registry.entries ++ [entry],
        registry.index ++ [(entry.name, registry.size)]⟩, .position registry.size)) ∨
    (∃ id old new, registry.entries[id]? = some old ∧
      registry.perform op = ({ registry with entries := registry.entries.set id new }, .done) ∧
      (new.name = old.name ∨ op = .rename id new.name)) ∨
    ((registry.perform op).1 = registry ∧ ∀ id, (registry.perform op).2 ≠ .position id) := by
  cases op with
  | push entry =>
      rw [perform_push]
      split
      · exact .inr (.inr ⟨rfl, by simp⟩)
      · exact .inl ⟨entry, rfl, ‹_›, rfl⟩
  | setParent id parent? =>
      rw [perform, modify]
      cases hold : registry.entries[id]? with
      | some old => exact .inr (.inl ⟨id, old, _, hold, rfl, .inl rfl⟩)
      | none => exact .inr (.inr ⟨rfl, by simp [settle]⟩)
  | rename id name =>
      rw [perform, modify]
      cases hold : registry.entries[id]? with
      | some old => exact .inr (.inl ⟨id, old, _, hold, rfl, .inr rfl⟩)
      | none => exact .inr (.inr ⟨rfl, by simp [settle]⟩)
  | addFields id fields =>
      rw [perform, modifyChild_eq, modifyChild?]
      cases hfamily : registry.family? id with
      | some pair =>
          obtain ⟨-, -, hchild, -⟩ := family?_eq_some_iff.mp hfamily
          exact .inr (.inl ⟨id, pair.2, _, hchild, rfl, .inl rfl⟩)
      | none => exact .inr (.inr ⟨rfl, by simp⟩)

theorem Indexed.perform (hindexed : registry.Indexed) (op : Operation) :
    (registry.perform op).1.Indexed := by
  obtain ⟨hnodup, hids⟩ := hindexed
  rcases registry.perform_cases op with ⟨entry, -, hfree, heq⟩ | ⟨id, old, new, -, heq, -⟩ | ⟨heq, -⟩
  · rw [heq]
    constructor
    · rw [names_push]
      simpa using hnodup.concat hfree
    · simp only [size, List.map_append, List.length_append] at hids ⊢
      rw [hids, List.length_singleton, List.range_succ]
      rfl
  · rw [heq]
    refine ⟨hnodup, ?_⟩
    rw [size, List.length_set]
    exact hids
  · rw [heq]
    exact ⟨hnodup, hids⟩

theorem mem_index_perform :
    (name, id) ∈ (registry.perform op).1.index ↔ (name, id) ∈ registry.index ∨
      ∃ entry, op = .push entry ∧ entry.name = name ∧ (registry.perform op).2 = .position id := by
  rcases registry.perform_cases op with
    ⟨entry, rfl, -, heq⟩ | ⟨place, old, new, -, heq, -⟩ | ⟨heq, hreply⟩
  · rw [heq]
    simp [eq_comm]
  · rw [heq]
    simp
  · rw [heq]
    simp [hreply]

theorem index_eq_perform (hindex : registry.index = (registry.entries.map Entry.name).zipIdx)
    (hop : ∀ id name, op = .rename id name → registry.size ≤ id) :
    (registry.perform op).1.index = ((registry.perform op).1.entries.map Entry.name).zipIdx := by
  rcases registry.perform_cases op with
    ⟨entry, -, -, heq⟩ | ⟨id, old, new, hold, heq, hname⟩ | ⟨heq, -⟩
  · rw [heq, List.map_append, List.zipIdx_append, ← hindex, List.length_map, Nat.zero_add]
    rfl
  · obtain ⟨hid, hget⟩ := List.getElem?_eq_some_iff.mp hold
    have hsame : new.name = old.name := by
      rcases hname with hsame | hrename
      · exact hsame
      · exact absurd (hop id _ hrename) (by rw [size]; omega)
    have hin : id < (registry.entries.map Entry.name).length := by rwa [List.length_map]
    rw [heq, List.map_set, hsame, hindex, ← hget, ← List.getElem_map Entry.name (h := hin),
      List.set_getElem_self]
  · rw [heq, hindex]

/-! ### A history -/

def after (ops : List Operation) : Registry :=
  ops.foldl (fun registry op => (registry.perform op).1) {}

/-- An entry was pushed, and the answer was the position. -/
def Pushed (ops : List Operation) (entry : Entry) (id : Nat) : Prop :=
  ∃ before, before ++ [.push entry] <+: ops ∧
    ((after before).perform (.push entry)).2 = .position id

/-- An entry that was there was renamed. -/
def Renamed (ops : List Operation) : Prop :=
  ∃ before id name, before ++ [.rename id name] <+: ops ∧ id < (after before).size

theorem after_concat (ops : List Operation) (op : Operation) :
    after (ops ++ [op]) = ((after ops).perform op).1 := by
  simp [after]

private theorem prefix_concat_iff : before ++ [other] <+: ops ++ [op] ↔
    before ++ [other] <+: ops ∨ before = ops ∧ other = op := by
  rw [List.prefix_concat_iff, or_comm]
  simp

theorem pushed_concat_iff : Pushed (ops ++ [op]) entry id ↔ Pushed ops entry id ∨
    op = .push entry ∧ ((after ops).perform op).2 = .position id := by
  simp only [Pushed, prefix_concat_iff]
  constructor
  · rintro ⟨before, hbefore | ⟨rfl, rfl⟩, hreply⟩
    · exact .inl ⟨before, hbefore, hreply⟩
    · exact .inr ⟨rfl, hreply⟩
  · rintro (⟨before, hbefore, hreply⟩ | ⟨rfl, hreply⟩)
    · exact ⟨before, .inl hbefore, hreply⟩
    · exact ⟨ops, .inr ⟨rfl, rfl⟩, hreply⟩

theorem indexed_after (ops : List Operation) : (after ops).Indexed := by
  induction ops using List.reverseRecOn with
  | nil => exact ⟨List.nodup_nil, rfl⟩
  | append_singleton ops op ih =>
      rw [after_concat]
      exact ih.perform op

theorem mem_index_after_iff : (name, id) ∈ (after ops).index ↔
    ∃ entry, Pushed ops entry id ∧ entry.name = name := by
  induction ops using List.reverseRecOn with
  | nil => simp [after, Pushed]
  | append_singleton ops op ih =>
      rw [after_concat, mem_index_perform, ih]
      simp only [pushed_concat_iff, or_and_right, exists_or, and_right_comm, and_assoc]

theorem lookup?_after_iff : (after ops).lookup? name = some id ↔
    ∃ entry, Pushed ops entry id ∧ entry.name = name := by
  rw [lookup?_eq_some_iff (indexed_after ops).nodup, mem_index_after_iff]

theorem index_after_of_not_renamed (hrenamed : ¬ Renamed ops) :
    (after ops).index = ((after ops).entries.map Entry.name).zipIdx := by
  induction ops using List.reverseRecOn with
  | nil => rfl
  | append_singleton ops op ih =>
      rw [after_concat]
      apply index_eq_perform
      · apply ih
        rintro ⟨before, id, name, hbefore, hid⟩
        exact hrenamed ⟨before, id, name, hbefore.trans (List.prefix_append _ _), hid⟩
      · rintro id name rfl
        by_contra hid
        exact hrenamed ⟨ops, id, name, List.prefix_rfl, Nat.lt_of_not_le hid⟩

/-! ### Questions to an indexed registry -/

theorem get_eq_ok_iff : registry.get id = .ok entry ↔ registry.entries[id]? = some entry :=
  entryAt_eq_ok_iff

theorem contains_eq (registry : Registry) (name : String) :
    registry.contains name = (registry.lookup? name).isSome := by
  rw [Bool.eq_iff_iff, contains_iff_mem, ← not_iff_not, ← lookup?_eq_none_iff]
  simp

namespace Indexed

theorem lookup?_inj (hindexed : registry.Indexed) {one : String}
    (hone : registry.lookup? one = some id) (hname : registry.lookup? name = some id) :
    one = name := by
  have hids : (registry.index.map Prod.snd).Nodup := hindexed.ids_eq ▸ List.nodup_range
  have hsame := List.inj_on_of_nodup_map hids (mem_index_of_lookup? hone)
    (mem_index_of_lookup? hname) rfl
  exact (Prod.mk.inj hsame).1

theorem exists_lookup?_iff (hindexed : registry.Indexed) :
    (∃ name, registry.lookup? name = some id) ↔ id < registry.size := by
  simp only [lookup?_eq_some_iff hindexed.nodup]
  rw [← List.mem_range, ← hindexed.ids_eq]
  simp

theorem exists_byName (hindexed : registry.Indexed) (hlookup : registry.lookup? name = some id) :
    ∃ entry, registry.get id = .ok entry ∧ registry.byName name = .ok (some entry) := by
  have hid := hindexed.exists_lookup?_iff.mp ⟨name, hlookup⟩
  have hget := get_eq_ok_iff.mpr (List.getElem?_eq_getElem hid)
  refine ⟨_, hget, ?_⟩
  simp only [byName, hlookup, hget]
  rfl

theorem lookup?_perform_push (hindexed : registry.Indexed)
    (hreply : (registry.perform (.push entry)).2 = .position id) {place : Nat} :
    (registry.perform (.push entry)).1.lookup? name = some place ↔
      registry.lookup? name = some place ∨ name = entry.name ∧ place = id := by
  rw [lookup?_eq_some_iff (hindexed.perform _).nodup, mem_index_perform,
    lookup?_eq_some_iff hindexed.nodup, hreply]
  simp [eq_comm]

end Indexed

end Registry

/-- Whatever is done to an empty registry, the index has different names for the positions in order,
and leads from each name to the position that was answered when an entry of that name was pushed. No
two names lead to one position, and every position is reached. A push is declined, and changes
nothing, when the index has the name; else the entry comes to the end, and nothing that was there
changes. What the index has is there, and if nothing was renamed it has the name. -/
theorem Registry.nameIndex_after (ops : List Operation) :
    ((after ops).index.map Prod.fst).Nodup ∧
    (after ops).index.map Prod.snd = List.range (after ops).size ∧
    (∀ name id, (after ops).lookup? name = some id ↔
      ∃ entry, Pushed ops entry id ∧ entry.name = name) ∧
    (∀ one other id, (after ops).lookup? one = some id → (after ops).lookup? other = some id →
      one = other) ∧
    (∀ id, (∃ name, (after ops).lookup? name = some id) ↔ id < (after ops).size) ∧
    (∀ entry, ((after ops).perform (.push entry)).2 = .declined ↔
      (after ops).contains entry.name = true) ∧
    (∀ entry, ((after ops).perform (.push entry)).2 = .declined →
      ((after ops).perform (.push entry)).1 = after ops) ∧
    (∀ entry, ((after ops).perform (.push entry)).2 ≠ .declined →
      ((after ops).perform (.push entry)).2 = .position (after ops).size ∧
      ((after ops).perform (.push entry)).1.entries = (after ops).entries ++ [entry] ∧
      ∀ name id, ((after ops).perform (.push entry)).1.lookup? name = some id ↔
        (after ops).lookup? name = some id ∨ name = entry.name ∧ id = (after ops).size) ∧
    (∀ name, (after ops).contains name = ((after ops).lookup? name).isSome ∧
      ((after ops).lookup? name = none → (after ops).byName name = .ok none) ∧
      ∀ id, (after ops).lookup? name = some id →
        ∃ entry, (after ops).get id = .ok entry ∧ (after ops).byName name = .ok (some entry)) ∧
    (¬ Renamed ops → ∀ name id, (after ops).lookup? name = some id ↔
      ∃ entry, (after ops).get id = .ok entry ∧ entry.name = name) := by
  have hindexed := indexed_after ops
  refine ⟨hindexed.nodup, hindexed.ids_eq, fun _ _ => lookup?_after_iff,
    fun _ _ _ => hindexed.lookup?_inj, fun _ => hindexed.exists_lookup?_iff, ?_, ?_, ?_, ?_, ?_⟩
  · intro entry
    rw [perform_push_declined_iff, contains_iff_mem]
  · intro entry hdeclined
    rw [perform_push, if_pos (perform_push_declined_iff.mp hdeclined)]
  · intro entry haccepted
    have hfree := mt perform_push_declined_iff.mpr haccepted
    have hpush := (perform_push (after ops) entry).trans (if_neg hfree)
    refine ⟨congrArg Prod.snd hpush, congrArg (·.1.entries) hpush, fun _ _ => ?_⟩
    exact hindexed.lookup?_perform_push (congrArg Prod.snd hpush)
  · intro name
    refine ⟨contains_eq _ _, fun hnone => ?_, fun _ => hindexed.exists_byName⟩
    rw [byName, hnone]
  · intro hrenamed name id
    rw [lookup?_eq_some_iff hindexed.nodup, index_after_of_not_renamed hrenamed,
      List.mem_zipIdx_iff_getElem?, List.getElem?_map, Option.map_eq_some_iff]
    simp only [get_eq_ok_iff]

/-- Tools, one of them declined, with a parent that is nowhere and a field for a child. -/
def Registry.tools : List Operation :=
  [.push { name := "Widget" }, .push { name := "Gadget", parent? := some 0 },
    .push { name := "Widget", parent? := some 1 }, .setParent 0 (some 7),
    .addFields 1 [{ access := .pub, static := false, type := "bool", name := "on", initial := "" }]]

/-- A gadget is found by its name, and by the same name when it has become a gizmo. -/
theorem Registry.nameIndex_after_tools :
    ¬ Renamed tools ∧ (after tools).size = 2 ∧
      (∃ entry, (after tools).get 1 = .ok entry ∧ entry.name = "Gadget") ∧
      ∃ entry, (after (tools ++ [.rename 1 "Gizmo"])).byName "Gadget" = .ok (some entry) ∧
        entry.name = "Gizmo" ∧ (after (tools ++ [.rename 1 "Gizmo"])).contains "Gizmo" = false := by
  have hrenamed : ¬ Renamed tools := by
    rintro ⟨before, id, name, hbefore, -⟩
    have hmem : .rename id name ∈ tools := hbefore.subset (by simp)
    simp [tools] at hmem
  have hfound : (after tools).lookup? "Gadget" = some 1 := by decide
  obtain ⟨-, -, -, -, -, -, -, -, -, hnamed⟩ := nameIndex_after tools
  refine ⟨hrenamed, by decide, (hnamed hrenamed "Gadget" 1).mp hfound, ?_⟩
  obtain ⟨-, -, -, -, -, -, -, -, hagree, -⟩ := nameIndex_after (tools ++ [.rename 1 "Gizmo"])
  obtain ⟨entry, hget, hbyName⟩ := (hagree "Gadget").2.2 1 (by decide)
  have hname : (after (tools ++ [.rename 1 "Gizmo"])).entries[1]?.map Entry.name = some "Gizmo" := by
    decide
  rw [get_eq_ok_iff.mp hget] at hname
  exact ⟨entry, hbyName, Option.some.inj hname, by decide⟩

end ClassLayout
