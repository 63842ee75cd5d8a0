import ClassLayout.Registry
import Mathlib.Data.List.Nodup
import Mathlib.Logic.Relation

/-!
# Registries in which parents come first

Entries of a sound registry are found by their own names, and every parent stands before its
children. A pass over such a registry makes each entry from its parent, which is finished by then:
`derive_getElem?_of_parent` is all that the theory of layouts and tables needs to know of a pass.
Replacing the entries in place, one position after the other, comes to the same, and on the way no
entry is met whose parent does not stand before it. To take an entry and its parent out of two parts
of a registry, sound or not, is to look both up in the whole (`focus_eq`).
-/

namespace ClassLayout

namespace Registry

variable {registry : Registry}

structure Sound (registry : Registry) : Prop where
  index_eq : registry.index = (registry.entries.map Entry.name).zipIdx
  nodup : registry.names.Nodup
  parent_lt : ∀ {id parent : Nat} {entry : Entry}, registry.entries[id]? = some entry →
    entry.parent? = some parent → parent < id

def Extends (registry : Registry) (child parent : Nat) : Prop :=
  ∃ entry, registry.entries[child]? = some entry ∧ entry.parent? = some parent

/-! ### Finding entries by name -/

section Lookup

variable {next : Registry} {name : String} {id : Nat}

theorem mem_names_iff : name ∈ registry.names ↔ ∃ id, (name, id) ∈ registry.index := by
  simp [names]

theorem lookup?_eq_none_iff : registry.lookup? name = none ↔ name ∉ registry.names := by
  simp only [lookup?, Option.map_eq_none_iff, List.find?_eq_none, beq_iff_eq, mem_names_iff,
    not_exists, Prod.forall]
  constructor
  · intro hnone id hmem
    exact hnone name id hmem rfl
  · rintro hfree key id hmem rfl
    exact hfree id hmem

theorem contains_iff_mem : registry.contains name = true ↔ name ∈ registry.names := by
  simp [contains, mem_names_iff]

/-- What is found is the first pair of the name. -/
theorem find?_index_iff : registry.index.find? (·.1 == name) = some (name, id) ↔
    registry.lookup? name = some id := by
  rw [lookup?, Option.map_eq_some_iff]
  refine ⟨fun hfound => ⟨_, hfound, rfl⟩, ?_⟩
  rintro ⟨⟨key, place⟩, hfound, rfl⟩
  obtain rfl : key = name := by simpa using List.find?_some hfound
  exact hfound

theorem mem_index_of_lookup? (hlookup : registry.lookup? name = some id) :
    (name, id) ∈ registry.index :=
  List.mem_of_find?_eq_some (find?_index_iff.mpr hlookup)

theorem lookup?_eq_some_iff (hnodup : registry.names.Nodup) :
    registry.lookup? name = some id ↔ (name, id) ∈ registry.index := by
  refine ⟨mem_index_of_lookup?, fun hmem => ?_⟩
  cases hlookup : registry.lookup? name with
  | none => exact absurd (mem_names_iff.mpr ⟨id, hmem⟩) (lookup?_eq_none_iff.mp hlookup)
  | some place =>
      have hfound := mem_index_of_lookup? hlookup
      have hsame := List.inj_on_of_nodup_map hnodup hfound hmem rfl
      rw [(Prod.mk.inj hsame).2]

theorem find?_index_of_isPrefix (hgrow : registry.index <+: next.index)
    (hfound : registry.index.find? (·.1 == name) = some (name, id)) :
    next.index.find? (·.1 == name) = some (name, id) := by
  obtain ⟨added, hadded⟩ := hgrow
  rw [← hadded, List.find?_append, hfound, Option.some_or]

theorem push?_eq_some_iff {entry : Entry} :
    registry.push? entry = some next ↔
      entry.name ∉ registry.names ∧
        next = ⟨registry.entries ++ [entry], registry.index ++ [(entry.name, registry.size)]⟩ := by
  unfold push?
  split
  · rename_i htaken
    simp [contains_iff_mem.mp htaken]
  · rename_i hfree
    rw [contains_iff_mem] at hfree
    simp [hfree, eq_comm]

theorem names_push (registry : Registry) (entries : List Entry) (name : String) (id : Nat) :
    names ⟨entries, registry.index ++ [(name, id)]⟩ = registry.names ++ [name] :=
  List.map_append

end Lookup

/-! ### An entry with its parent -/

/-- The parent and the entry at a position, if the parent stands before the entry. -/
def family? (registry : Registry) (id : Nat) : Option (Entry × Entry) :=
  match registry.entries[id]? with
  | none => none
  | some child =>
    match child.parent? with
    | none => none
    | some parent =>
      if parent < id then registry.entries[parent]?.map fun entry => (entry, child) else none

/-- The entry at a position replaced by what `change` makes of its parent and of itself, if the
parent stands before it. -/
def modifyChild? (registry : Registry) (id : Nat) (change : Entry → Entry → Entry) : Option Registry :=
  (registry.family? id).map fun pair =>
    { registry with entries := registry.entries.set id (change pair.1 pair.2) }

theorem exists_getElem?_of_lt {id place : Nat} {entry : Entry}
    (hentry : registry.entries[id]? = some entry) (hlt : place < id) :
    ∃ other, registry.entries[place]? = some other := by
  have hid := (List.getElem?_eq_some_iff.mp hentry).1
  exact ⟨_, List.getElem?_eq_getElem (Nat.lt_trans hlt hid)⟩

theorem family?_eq_some_iff {id : Nat} {above child : Entry} :
    registry.family? id = some (above, child) ↔ ∃ parent < id,
      registry.entries[id]? = some child ∧ child.parent? = some parent ∧
        registry.entries[parent]? = some above := by
  unfold family?
  constructor
  · intro hfamily
    split at hfamily
    · cases hfamily
    · rename_i found hfound
      split at hfamily
      · cases hfamily
      · rename_i parent hparent
        split at hfamily
        · rename_i hlt
          obtain ⟨high, hhigh, heq⟩ := Option.map_eq_some_iff.mp hfamily
          obtain ⟨rfl, rfl⟩ := Prod.mk.inj heq
          exact ⟨parent, hlt, hfound, hparent, hhigh⟩
        · cases hfamily
  · rintro ⟨parent, hlt, hchild, hparent, habove⟩
    simp only [hchild, hparent, if_pos hlt, habove, Option.map_some]

theorem entryAt_eq_ok_iff {entries : List Entry} {place : Nat} {entry : Entry} :
    entryAt entries place = .ok entry ↔ entries[place]? = some entry := by
  rw [entryAt]
  cases entries[place]? <;> simp

theorem cut_eq_ok {id : Nat} (hid : id ≤ registry.size) :
    registry.cut id = .ok (registry.entries.take id, registry.entries.drop id) := by
  rw [cut, if_pos hid]

theorem focus_eq_some {id parent : Nat} {above child : Entry} (hlt : parent < id)
    (hchild : registry.entries[id]? = some child) (hparent : child.parent? = some parent)
    (habove : registry.entries[parent]? = some above) :
    registry.focus id =
      .ok (some ⟨above, child, registry.entries.take id, registry.entries.drop (id + 1)⟩) := by
  have hcut : registry.cut id = .ok (registry.entries.take id, registry.entries.drop id) :=
    cut_eq_ok (Nat.le_of_lt (List.getElem?_eq_some_iff.mp hchild).1)
  have hfirst : entryAt (registry.entries.take id) parent = .ok above := by
    rw [entryAt_eq_ok_iff, List.getElem?_take_of_lt hlt, habove]
  have hsecond : entryAt (registry.entries.drop id) 0 = .ok child := by
    rw [entryAt_eq_ok_iff, List.getElem?_drop, Nat.add_zero, hchild]
  simp only [focus, hchild, Option.bind_some, hparent, if_neg (Nat.not_le_of_lt hlt), hcut, bind,
    Except.bind, hfirst, hsecond, List.tail_drop]
  rfl

/-- Nothing is looked for in vain: there is a focus exactly where there is a family. -/
theorem focus_eq (registry : Registry) (id : Nat) :
    registry.focus id = .ok ((registry.family? id).map fun pair =>
      ⟨pair.1, pair.2, registry.entries.take id, registry.entries.drop (id + 1)⟩) := by
  cases hfamily : registry.family? id with
  | some pair =>
      obtain ⟨parent, hlt, hchild, hparent, habove⟩ := family?_eq_some_iff.mp hfamily
      exact focus_eq_some hlt hchild hparent habove
  | none =>
      rw [focus]
      split
      · rfl
      · rename_i parent hlink
        obtain ⟨child, hchild, hparent⟩ := Option.bind_eq_some_iff.mp hlink
        split
        · rfl
        · rename_i hlt
          rw [Nat.not_le] at hlt
          obtain ⟨above, habove⟩ := exists_getElem?_of_lt hchild hlt
          rw [family?_eq_some_iff.mpr ⟨parent, hlt, hchild, hparent, habove⟩] at hfamily
          cases hfamily

theorem modifyChild_eq (registry : Registry) (id : Nat) (change : Entry → Entry → Entry) :
    registry.modifyChild id change = .ok (registry.modifyChild? id change) := by
  rw [modifyChild, focus_eq, modifyChild?]
  cases hfamily : registry.family? id with
  | none => rfl
  | some pair =>
      obtain ⟨-, -, hchild, -⟩ := family?_eq_some_iff.mp hfamily
      have hid := (List.getElem?_eq_some_iff.mp hchild).1
      simp only [Except.map, Option.map_some, Focus.replace, Focus.entries,
        List.set_eq_take_append_cons_drop, if_pos hid]

namespace Sound

theorem names_eq (hsound : registry.Sound) : registry.names = registry.entries.map Entry.name := by
  rw [names, hsound.index_eq, List.zipIdx_map_fst]

theorem length_names (hsound : registry.Sound) :
    registry.names.length = registry.entries.length := by
  rw [hsound.names_eq, List.length_map]

theorem lookup?_iff (hsound : registry.Sound) {name : String} {id : Nat} :
    registry.lookup? name = some id ↔
      ∃ entry, registry.entries[id]? = some entry ∧ entry.name = name := by
  rw [lookup?_eq_some_iff hsound.nodup, hsound.index_eq, List.mem_zipIdx_iff_getElem?,
    List.getElem?_map, Option.map_eq_some_iff]

theorem lookup?_name (hsound : registry.Sound) {id : Nat} {entry : Entry}
    (hentry : registry.entries[id]? = some entry) : registry.lookup? entry.name = some id :=
  hsound.lookup?_iff.mpr ⟨entry, hentry, rfl⟩

theorem byName_eq (hsound : registry.Sound) {id : Nat} {entry : Entry}
    (hentry : registry.entries[id]? = some entry) :
    registry.byName entry.name = .ok (some entry) := by
  rw [byName, hsound.lookup?_name hentry]
  simp only [get, entryAt_eq_ok_iff.mpr hentry]
  rfl

theorem id_eq_of_name_eq (hsound : registry.Sound) {left right : Nat} {one other : Entry}
    (hone : registry.entries[left]? = some one) (hother : registry.entries[right]? = some other)
    (hname : one.name = other.name) : left = right := by
  have hleft := hsound.lookup?_name hone
  rw [hname, hsound.lookup?_name hother] at hleft
  exact (Option.some.inj hleft).symm

theorem exists_above (hsound : registry.Sound) {id parent : Nat} {entry : Entry}
    (hentry : registry.entries[id]? = some entry) (hparent : entry.parent? = some parent) :
    ∃ above, registry.entries[parent]? = some above :=
  exists_getElem?_of_lt hentry (hsound.parent_lt hentry hparent)

/-- What holds of the topmost entries and passes from parents to children holds everywhere. -/
theorem climb (hsound : registry.Sound) {motive : Nat → Entry → Prop}
    (htop : ∀ id entry, registry.entries[id]? = some entry → entry.parent? = none → motive id entry)
    (hchild : ∀ id entry parent above, registry.entries[id]? = some entry →
      entry.parent? = some parent → registry.entries[parent]? = some above → motive parent above →
      motive id entry)
    {id : Nat} {entry : Entry} (hentry : registry.entries[id]? = some entry) : motive id entry := by
  induction id using Nat.strongRecOn generalizing entry with
  | ind id ih =>
    cases hparent : entry.parent? with
    | none => exact htop id entry hentry hparent
    | some parent =>
        obtain ⟨above, habove⟩ := hsound.exists_above hentry hparent
        exact hchild id entry parent above hentry hparent habove
          (ih parent (hsound.parent_lt hentry hparent) habove)

end Sound

/-- What grows from every parent to its children grows from ancestors at any distance. -/
theorem isPrefix_of_extends {α : Type} {f : Entry → List α}
    (hstep : ∀ {child parent : Nat} {low high : Entry}, registry.entries[child]? = some low →
      low.parent? = some parent → registry.entries[parent]? = some high → f high <+: f low)
    {id ancestor : Nat} {entry above : Entry}
    (hextends : Relation.TransGen registry.Extends id ancestor)
    (hentry : registry.entries[id]? = some entry)
    (habove : registry.entries[ancestor]? = some above) : f above <+: f entry := by
  induction hextends generalizing above with
  | single hlink =>
      obtain ⟨low, hlow, hparent⟩ := hlink
      obtain rfl := Option.some.inj (hlow.symm.trans hentry)
      exact hstep hentry hparent habove
  | tail _ hlink ih =>
      obtain ⟨low, hlow, hparent⟩ := hlink
      exact (hstep hlow hparent habove).trans (ih hlow)

/-! ### Passes -/

/-- What a pass makes of an entry when the entries before it are `done`. -/
def finish (change : Entry → Entry → Entry) (done : List Entry) (entry : Entry) : Entry :=
  match entry.parent?.bind (done[·]?) with
  | some parent => change parent entry
  | none => entry

section Visit

variable {σ : Type} {change : Entry → Entry → Entry} {tell : σ → Option Entry → Entry → σ}

theorem visit_fst (state : List Entry × σ) (entry : Entry) :
    (visit change tell state entry).1 = state.1 ++ [finish change state.1 entry] := by
  rw [visit, finish]
  cases entry.parent?.bind (state.1[·]?) <;> rfl

theorem foldl_visit_fst (rest : List Entry) (state : List Entry × σ) :
    (rest.foldl (visit change tell) state).1 =
      rest.foldl (fun done entry => done ++ [finish change done entry]) state.1 :=
  (List.foldl_hom Prod.fst fun state entry => (visit_fst state entry).symm).symm

theorem derive_entries (registry : Registry) (fixed : Nat) (change : Entry → Entry → Entry) :
    (registry.derive fixed change).entries =
      (registry.entries.drop fixed).foldl (fun done entry => done ++ [finish change done entry])
        (registry.entries.take fixed) :=
  foldl_visit_fst _ _

theorem pass_fst (registry : Registry) (fixed : Nat) (start : σ) :
    (registry.pass fixed change tell start).1 = registry.derive fixed change := by
  simp only [derive, pass, foldl_visit_fst]

/-- What holds of what is told at the start, and is kept when one more entry is told of, holds in
the end. -/
theorem pass_snd_induction {motive : σ → Prop} (registry : Registry) (fixed : Nat) {start : σ}
    (hstart : motive start)
    (htell : ∀ told parent? entry, motive told → motive (tell told parent? entry)) :
    motive (registry.pass fixed change tell start).2 := by
  have hfold : ∀ (rest : List Entry) (state : List Entry × σ), motive state.2 →
      motive (rest.foldl (visit change tell) state).2 := by
    intro rest
    induction rest with
    | nil => exact fun _ hstate => hstate
    | cons entry rest ih =>
        intro state hstate
        apply ih
        rw [visit]
        split <;> exact htell _ _ _ hstate
  exact hfold _ _ hstart

end Visit

private theorem foldl_snoc {α : Type} (next : List α → α → α) (rest done : List α) :
    done <+: rest.foldl (fun done x => done ++ [next done x]) done ∧
    (rest.foldl (fun done x => done ++ [next done x]) done).length = done.length + rest.length ∧
    ∀ i x, rest[i]? = some x →
      (rest.foldl (fun done x => done ++ [next done x]) done)[done.length + i]? =
        some (next ((rest.foldl (fun done x => done ++ [next done x]) done).take (done.length + i))
          x) := by
  induction rest generalizing done with
  | nil => exact ⟨List.prefix_refl _, rfl, fun i x hx => by simp at hx⟩
  | cons first rest ih =>
      rw [List.foldl_cons]
      obtain ⟨hfront, hlength, hget⟩ := ih (done ++ [next done first])
      refine ⟨(List.prefix_append _ _).trans hfront, ?_, ?_⟩
      · rw [hlength, List.length_append, List.length_singleton, List.length_cons]
        omega
      · intro i x hx
        cases i with
        | zero =>
            obtain rfl : first = x := by simpa using hx
            obtain ⟨tail, htail⟩ := hfront
            rw [← htail]
            simp
        | succ i =>
            have hnext := hget i x (by simpa using hx)
            rw [List.length_append, List.length_singleton, Nat.add_assoc, Nat.add_comm 1 i] at hnext
            exact hnext

/-- If every entry has its parent before it, a pass tells of each with its finished parent, and never
of one without. -/
theorem exists_families {σ : Type} (change : Entry → Entry → Entry)
    (tell : σ → Option Entry → Entry → σ) (rest done : List Entry) (told : σ)
    (hparents : ∀ i entry, rest[i]? = some entry →
      ∃ parent < done.length + i, entry.parent? = some parent) :
    ∃ families : List (Entry × Entry),
      (rest.foldl (visit change tell) (done, told)).2 =
        families.foldl (fun told pair => tell told (some pair.1) pair.2) told ∧
      List.Forall₂ (fun pair entry => entry = change pair.1 pair.2 ∧
          ∃ parent, pair.2.parent? = some parent ∧
            (rest.foldl (visit change tell) (done, told)).1[parent]? = some pair.1)
        families ((rest.foldl (visit change tell) (done, told)).1.drop done.length) := by
  induction rest generalizing done told with
  | nil => exact ⟨[], rfl, by simp⟩
  | cons entry rest ih =>
      obtain ⟨parent, hlt, hparent⟩ := hparents 0 entry rfl
      obtain ⟨above, habove⟩ : ∃ above, done[parent]? = some above :=
        ⟨_, List.getElem?_eq_getElem hlt⟩
      have hvisit : visit change tell (done, told) entry =
          (done ++ [change above entry], tell told (some above) entry) := by
        simp only [visit, hparent, Option.bind_some, habove]
      obtain ⟨families, htold, hfamilies⟩ := ih (done ++ [change above entry])
        (tell told (some above) entry) fun i later hlater => by
          obtain ⟨place, hplace, hlink⟩ := hparents (i + 1) later hlater
          rw [List.length_append, List.length_singleton]
          exact ⟨place, by omega, hlink⟩
      rw [List.foldl_cons, hvisit]
      refine ⟨(above, entry) :: families, htold, ?_⟩
      -- The entries that are finished stay in front of all that follows.
      have hfront := (foldl_snoc (finish change) rest (done ++ [change above entry])).1
      rw [← foldl_visit_fst rest (done ++ [change above entry], tell told (some above) entry)]
        at hfront
      generalize (rest.foldl (visit change tell) _).1 = finished at hfamilies hfront ⊢
      obtain ⟨tail, rfl⟩ := hfront
      rw [List.append_assoc, List.drop_left, List.singleton_append]
      rw [List.drop_left] at hfamilies
      refine .cons ⟨rfl, parent, hparent, ?_⟩ ?_
      · rw [List.getElem?_append_left hlt, habove]
      · rwa [List.append_assoc, List.singleton_append] at hfamilies

section Derive

variable {fixed : Nat} {change : Entry → Entry → Entry}

theorem derive_size (registry : Registry) (fixed : Nat) (change : Entry → Entry → Entry) :
    (registry.derive fixed change).size = registry.size := by
  have hlength := (foldl_snoc (finish change) (registry.entries.drop fixed)
    (registry.entries.take fixed)).2.1
  rw [← derive_entries, ← List.length_append, List.take_append_drop] at hlength
  exact hlength

theorem derive_take (registry : Registry) (fixed : Nat) (change : Entry → Entry → Entry) :
    (registry.derive fixed change).entries.take fixed = registry.entries.take fixed := by
  have hfront := (foldl_snoc (finish change) (registry.entries.drop fixed)
    (registry.entries.take fixed)).1
  rw [← derive_entries] at hfront
  have hsize := derive_size registry fixed change
  rw [size, size] at hsize
  have htake := List.prefix_take_iff.mpr ⟨hfront, List.length_take_le fixed registry.entries⟩
  apply (htake.eq_of_length _).symm
  rw [List.length_take, List.length_take, hsize]

theorem derive_getElem? (hfixed : fixed ≤ registry.size) {id : Nat} {entry : Entry}
    (hid : fixed ≤ id) (hentry : registry.entries[id]? = some entry) :
    (registry.derive fixed change).entries[id]? =
      some (finish change ((registry.derive fixed change).entries.take id) entry) := by
  have hdrop : (registry.entries.drop fixed)[id - fixed]? = some entry := by
    rw [List.getElem?_drop, Nat.add_sub_cancel' hid, hentry]
  have hget := (foldl_snoc (finish change) (registry.entries.drop fixed)
    (registry.entries.take fixed)).2.2 (id - fixed) entry hdrop
  rw [← derive_entries, List.length_take_of_le hfixed, Nat.add_sub_cancel' hid] at hget
  exact hget

/-- In a sound registry the parent of an entry is finished when its turn comes. -/
theorem derive_getElem?_of_parent (change : Entry → Entry → Entry) (hsound : registry.Sound)
    (hfixed : fixed ≤ registry.size) {id parent : Nat} {entry : Entry} (hid : fixed ≤ id)
    (hentry : registry.entries[id]? = some entry) (hparent : entry.parent? = some parent) :
    ∃ finished, (registry.derive fixed change).entries[parent]? = some finished ∧
      (registry.derive fixed change).entries[id]? = some (change finished entry) := by
  have hlt := hsound.parent_lt hentry hparent
  have hsize := derive_size registry fixed change
  rw [size, size] at hsize
  have hin : parent < (registry.derive fixed change).entries.length := by
    have := (List.getElem?_eq_some_iff.mp hentry).1
    omega
  refine ⟨_, List.getElem?_eq_getElem hin, ?_⟩
  rw [derive_getElem? hfixed hid hentry, finish, hparent, Option.bind_some,
    List.getElem?_take_of_lt hlt, List.getElem?_eq_getElem hin]

theorem derive_map {α : Type} {f : Entry → α}
    (hkeep : ∀ parent child, f (change parent child) = f child) (registry : Registry)
    (fixed : Nat) :
    (registry.derive fixed change).entries.map f = registry.entries.map f := by
  have hfinish : ∀ done entry, f (finish change done entry) = f entry := by
    intro done entry
    rw [finish]
    split
    · exact hkeep _ _
    · rfl
  have hfold : ∀ rest done : List Entry,
      (rest.foldl (fun done entry => done ++ [finish change done entry]) done).map f =
        done.map f ++ rest.map f := by
    intro rest
    induction rest with
    | nil => intro done; simp
    | cons entry rest ih =>
        intro done
        rw [List.foldl_cons, ih, List.map_append, List.map_singleton, hfinish, List.append_assoc,
          List.map_cons, List.singleton_append]
  rw [derive_entries, hfold, ← List.map_append, List.take_append_drop]

theorem exists_getElem?_of_map_eq {α : Type} {f : Entry → α} {left right : List Entry}
    (hmap : left.map f = right.map f) {id : Nat} {entry : Entry} (hentry : left[id]? = some entry) :
    ∃ other, right[id]? = some other ∧ f other = f entry := by
  have hget := congrArg (·[id]?) hmap
  simp only [List.getElem?_map, hentry, Option.map_some] at hget
  exact Option.map_eq_some_iff.mp hget.symm

theorem Sound.derive (hsound : registry.Sound)
    (hname : ∀ parent child, (change parent child).name = child.name)
    (hparent : ∀ parent child, (change parent child).parent? = child.parent?) :
    (registry.derive fixed change).Sound where
  index_eq := by
    rw [derive_map hname]
    exact hsound.index_eq
  nodup := hsound.nodup
  parent_lt := by
    intro id parent entry hentry hlink
    obtain ⟨before, hbefore, heq⟩ := exists_getElem?_of_map_eq (derive_map hparent _ _) hentry
    exact hsound.parent_lt hbefore (heq.trans hlink)

theorem exists_pass_families {σ : Type} (change : Entry → Entry → Entry)
    (tell : σ → Option Entry → Entry → σ) (start : σ) (hsound : registry.Sound)
    (hfixed : fixed ≤ registry.size)
    (hlinked : ∀ {id : Nat} {entry : Entry}, fixed ≤ id → registry.entries[id]? = some entry →
      ∃ parent, entry.parent? = some parent) :
    ∃ families : List (Entry × Entry),
      (registry.pass fixed change tell start).2 =
        families.foldl (fun told pair => tell told (some pair.1) pair.2) start ∧
      List.Forall₂ (fun pair entry => entry = change pair.1 pair.2 ∧
          ∃ parent, pair.2.parent? = some parent ∧
            (registry.derive fixed change).entries[parent]? = some pair.1)
        families ((registry.derive fixed change).entries.drop fixed) := by
  have hlength : (registry.entries.take fixed).length = fixed := List.length_take_of_le hfixed
  obtain ⟨families, htold, hfamilies⟩ := exists_families change tell
    (registry.entries.drop fixed) (registry.entries.take fixed) start fun i entry hentry => by
      rw [List.getElem?_drop] at hentry
      obtain ⟨parent, hparent⟩ := hlinked (Nat.le_add_right fixed i) hentry
      exact ⟨parent, hlength.symm ▸ hsound.parent_lt hentry hparent, hparent⟩
  rw [foldl_visit_fst, ← derive_entries, hlength] at hfamilies
  exact ⟨families, htold, hfamilies⟩

/-- The entries after the first `fixed` ones replaced in place, position by position. There is no
result when an entry is met without a parent before it. -/
def sweep (registry : Registry) (fixed : Nat) (change : Entry → Entry → Entry) : Option Registry :=
  (List.range' fixed (registry.size - fixed)).foldlM
    (fun registry id => registry.modifyChild? id change) registry

def upTo (registry : Registry) (fixed : Nat) (change : Entry → Entry → Entry) (id : Nat) :
    Registry :=
  { registry with
    entries := (registry.derive fixed change).entries.take id ++ registry.entries.drop id }

theorem modifyChild?_upTo (change : Entry → Entry → Entry) (hsound : registry.Sound)
    (hfixed : fixed ≤ registry.size) {id parent : Nat} {entry : Entry} (hid : fixed ≤ id)
    (hentry : registry.entries[id]? = some entry) (hparent : entry.parent? = some parent) :
    (registry.upTo fixed change id).modifyChild? id change =
      some (registry.upTo fixed change (id + 1)) := by
  obtain ⟨finished, hfinished, hnext⟩ :=
    derive_getElem?_of_parent change hsound hfixed hid hentry hparent
  have hlt := hsound.parent_lt hentry hparent
  obtain ⟨hin, hget⟩ := List.getElem?_eq_some_iff.mp hentry
  have hsize := derive_size registry fixed change
  rw [size, size] at hsize
  have hlength : ((registry.derive fixed change).entries.take id).length = id :=
    List.length_take_of_le (by omega)
  have hchild : (registry.upTo fixed change id).entries[id]? = some entry := by
    rw [upTo, List.getElem?_append_right (by omega), hlength, Nat.sub_self, List.getElem?_drop]
    exact hentry
  have hparentEntry : (registry.upTo fixed change id).entries[parent]? = some finished := by
    rw [upTo, List.getElem?_append_left (by omega), List.getElem?_take_of_lt hlt, hfinished]
  have hset : (registry.upTo fixed change id).entries.set id (change finished entry) =
      (registry.upTo fixed change (id + 1)).entries := by
    rw [upTo, upTo, List.set_append_right _ _ (by omega), hlength, Nat.sub_self,
      List.drop_eq_getElem_cons hin, List.set_cons_zero, List.take_add_one, hnext]
    simp
  have hfamily : (registry.upTo fixed change id).family? id = some (finished, entry) :=
    family?_eq_some_iff.mpr ⟨parent, hlt, hchild, hparent, hparentEntry⟩
  rw [modifyChild?, hfamily, Option.map_some, hset]
  rfl

/-- A sweep in place never meets an entry without a parent before it, and comes to what the pass
makes of the registry. -/
theorem sweep_eq_some_derive (hsound : registry.Sound) (hfixed : fixed ≤ registry.size)
    (hlinked : ∀ {id : Nat} {entry : Entry}, fixed ≤ id → registry.entries[id]? = some entry →
      ∃ parent, entry.parent? = some parent) :
    registry.sweep fixed change = some (registry.derive fixed change) := by
  have hprogress : ∀ n, fixed + n ≤ registry.size →
      (List.range' fixed n).foldlM (fun registry id => registry.modifyChild? id change) registry =
        some (registry.upTo fixed change (fixed + n)) := by
    intro n
    induction n with
    | zero =>
        intro _
        rw [Nat.add_zero, upTo, derive_take, List.take_append_drop]
        rfl
    | succ n ih =>
        intro hn
        rw [size] at hn
        have hentry := List.getElem?_eq_getElem (l := registry.entries) (i := fixed + n) (by omega)
        obtain ⟨parent, hparent⟩ := hlinked (Nat.le_add_right fixed n) hentry
        have hstep := modifyChild?_upTo change hsound hfixed (Nat.le_add_right fixed n)
          hentry hparent
        rw [List.range'_1_concat, List.foldlM_append, ih (by rw [size]; omega)]
        simp only [Option.bind_eq_bind, Option.bind_some, List.foldlM_cons, List.foldlM_nil, hstep]
        rfl
  have hsize := derive_size registry fixed change
  rw [sweep, hprogress _ (by omega), Nat.add_sub_cancel' hfixed, upTo, size, List.drop_length,
    List.append_nil, ← size, ← hsize, size, List.take_length]
  rfl

end Derive

end Registry

end ClassLayout
