import ClassLayout.Proofs.Json.Reading
import Mathlib.Data.List.Pairwise

/-!
# Entries in any order

A record is read entry by entry. Two entries can be read one after the other only if they do not
belong to the same field, and then the other order leads to the same parts. So it does not depend
on the order of the entries whether a record is read, and as what (`Lawful.readEntries_perm`).
Entries that say what would hold without them may be left out, and entries of other keys may be
added, as often as one likes (`Lawful.read_loose`).
-/

namespace ClassLayout.Json

/-! ### Well-formed values -/

theorem Items.isWhole_ofList (items : List Tree) :
    (ofList items).isWhole = items.all Tree.isWhole := by
  induction items with
  | nil => rfl
  | cons item rest ih => rw [ofList, isWhole, ih, List.all_cons]

theorem Entries.isWhole_ofList (entries : List (String × Tree)) :
    (ofList entries).isWhole = entries.all (·.2.isWhole) := by
  induction entries with
  | nil => rfl
  | cons entry rest ih => rw [ofList, isWhole, ih, List.all_cons]

theorem Items.isPlain_ofList (room : Nat) (items : List Tree) :
    (ofList items).isPlain room = items.all (Tree.isPlain room) := by
  induction items with
  | nil => rfl
  | cons item rest ih => rw [ofList, isPlain, ih, List.all_cons]

theorem Entries.isPlain_ofList (room : Nat) (entries : List (String × Tree)) :
    (ofList entries).isPlain room = entries.all (·.2.isPlain room) := by
  induction entries with
  | nil => rfl
  | cons entry rest ih => simp [ofList, isPlain, ih]

theorem Items.isWhole_ofList_of_forall₂ {α : Type} {R : α → Tree → Prop} {values : List α}
    {trees : List Tree} (hvalues : List.Forall₂ R values trees)
    (hwhole : ∀ {value tree}, R value tree → tree.isWhole = true) :
    (ofList trees).isWhole = true := by
  induction hvalues with
  | nil => rfl
  | cons hvalue _ ih => rw [ofList, isWhole, hwhole hvalue, ih, Bool.and_self]

/-- A well-formed value: its strings are texts, its numbers are not too large for one, and at most
`depth` containers are open in it at once. A key may be there more than once. -/
inductive Tree.Nested : Nat → Tree → Prop
  | null {depth : Nat} : Nested depth .null
  | bool {depth : Nat} (b : Bool) : Nested depth (.bool b)
  | number {depth : Nat} {n : Numeral} (hvalue : n.value?.isSome = true) : Nested depth (.number n)
  | text {depth : Nat} (s : String) : Nested depth (.text (some s))
  | list {depth : Nat} {items : List Tree} (hitems : ∀ item ∈ items, Nested depth item) :
      Nested (depth + 1) (.list (.ofList items))
  | record {depth : Nat} {entries : List (String × Tree)}
      (hentries : ∀ entry ∈ entries, Nested depth entry.2) :
      Nested (depth + 1) (.record (.ofList entries))

namespace Tree.Nested

variable {depth : Nat} {tree : Tree}

theorem isPlain (hnested : Nested depth tree) : tree.isPlain depth = true := by
  induction hnested with
  | null => rfl
  | bool b => rfl
  | number hvalue => exact hvalue
  | text s => rfl
  | list _ ih => simpa [Tree.isPlain, Items.isPlain_ofList] using ih
  | record _ ih => simpa [Tree.isPlain, Entries.isPlain_ofList] using ih

theorem isWhole (hnested : Nested depth tree) : tree.isWhole = true := by
  induction hnested with
  | null => rfl
  | bool b => rfl
  | number => rfl
  | text s => rfl
  | list _ ih => simpa [Tree.isWhole, Items.isWhole_ofList] using ih
  | record _ ih => simpa [Tree.isWhole, Entries.isWhole_ofList] using ih

end Tree.Nested

/-! ### One entry -/

namespace Shape

variable {ρ α : Type}

/-- What an entry may do to the parts that have been read. -/
inductive Takes (shape : Shape ρ α) : ρ → String × Tree → ρ → Prop
  | other {parts : ρ} {key : String} {tree : Tree}
      (hfind : shape.fields.find? (·.key == key) = none) (hwhole : tree.isWhole = true) :
      Takes shape parts (key, tree) parts
  | field {parts next : ρ} {key : String} {tree : Tree} {field : FieldReader ρ}
      (hfind : shape.fields.find? (·.key == key) = some field)
      (hfree : field.isRead parts = false) (hread : field.read tree parts = .ok next) :
      Takes shape parts (key, tree) next

theorem readEntries_cons_eq_ok_iff {shape : Shape ρ α} {parts last : ρ} {entry : String × Tree}
    {rest : List (String × Tree)} :
    shape.readEntries parts (.ofList (entry :: rest)) = .ok last ↔
      ∃ next, shape.Takes parts entry next ∧
        shape.readEntries next (.ofList rest) = .ok last := by
  obtain ⟨key, tree⟩ := entry
  rw [Entries.ofList, readEntries]
  constructor
  · intro hread
    split at hread
    · next hfind =>
        split at hread
        · next hwhole => exact ⟨parts, .other hfind hwhole, hread⟩
        · cases hread
    · next field hfind =>
        split at hread
        · cases hread
        · next hfree =>
            split at hread
            · cases hread
            · next next hnext =>
                exact ⟨next, .field hfind (by simpa using hfree) hnext, hread⟩
  · rintro ⟨next, htakes, hread⟩
    cases htakes with
    | other hfind hwhole => simp [hfind, hwhole, hread]
    | field hfind hfree hnext => simp [hfind, hfree, hnext, hread]

end Shape

/-! ### Fields that do not touch each other -/

/-- What has been read is known to be read. -/
def FieldReader.Marks {ρ : Type} (field : FieldReader ρ) : Prop :=
  ∀ {tree : Tree} {parts next : ρ}, field.read tree parts = .ok next → field.isRead next = true

/-- Reading the one field before the other leaves open whether the other is read, and could as well
have come after it. -/
structure FieldReader.Passes {ρ : Type} (first second : FieldReader ρ) : Prop where
  isRead_eq {tree : Tree} {parts next : ρ} (hread : first.read tree parts = .ok next) :
    second.isRead next = second.isRead parts
  swap {tree other : Tree} {parts next last : ρ} (hfirst : first.read tree parts = .ok next)
    (hsecond : second.read other next = .ok last) :
    ∃ between, second.read other parts = .ok between ∧ first.read tree between = .ok last

def FieldReader.Apart {ρ : Type} (first second : FieldReader ρ) : Prop :=
  first.Passes second ∧ second.Passes first

instance {ρ : Type} : Std.Symm (@FieldReader.Apart ρ) where
  symm _ _ h := h.symm

structure Shape.Lawful {ρ α : Type} (shape : Shape ρ α) : Prop where
  marks : ∀ field ∈ shape.fields, field.Marks
  apart : shape.fields.Pairwise FieldReader.Apart

namespace FieldReader

variable {ρ β γ : Type} {key other : String} {read : Tree → Decoded β} {get : ρ → Option β}
  {set : ρ → β → ρ} {read' : Tree → Decoded γ} {get' : ρ → Option γ} {set' : ρ → γ → ρ}

theorem marks_part (hget : ∀ parts value, get (set parts value) = some value) :
    (part key read get set).Marks := by
  intro tree parts next hread
  obtain ⟨value, -, rfl⟩ := map_eq_ok_iff.mp hread
  simp [part, hget]

/-- Two parts that are kept in different places. -/
theorem passes_part (hget : ∀ parts value, get' (set parts value) = get' parts)
    (hset : ∀ parts value value', set' (set parts value) value' = set (set' parts value') value) :
    (part key read get set).Passes (part other read' get' set') where
  isRead_eq hread := by
    obtain ⟨value, -, rfl⟩ := map_eq_ok_iff.mp hread
    simp [part, hget]
  swap hfirst hsecond := by
    obtain ⟨value, hvalue, rfl⟩ := map_eq_ok_iff.mp hfirst
    obtain ⟨value', hvalue', rfl⟩ := map_eq_ok_iff.mp hsecond
    exact ⟨_, map_eq_ok_iff.mpr ⟨value', hvalue', rfl⟩,
      map_eq_ok_iff.mpr ⟨value, hvalue, (hset _ _ _).symm⟩⟩

end FieldReader

/-! ### Any order -/

namespace Shape

variable {ρ α : Type} {shape : Shape ρ α}

theorem Lawful.passes (hlawful : shape.Lawful) {first second : FieldReader ρ}
    (hfirst : first ∈ shape.fields) (hsecond : second ∈ shape.fields) (hne : first ≠ second) :
    first.Passes second :=
  (hlawful.apart.forall hfirst hsecond hne).1

/-- Two entries that can be read one after the other can be read the other way round. -/
theorem Lawful.takes_swap (hlawful : shape.Lawful) {parts next last : ρ}
    {first second : String × Tree} (hfirst : shape.Takes parts first next)
    (hsecond : shape.Takes next second last) :
    ∃ between, shape.Takes parts second between ∧ shape.Takes between first last := by
  cases hfirst with
  | other hfind hwhole => exact ⟨last, hsecond, .other hfind hwhole⟩
  | @field _ _ _ field hfind hfree hread =>
      cases hsecond with
      | other hfind' hwhole => exact ⟨parts, .other hfind' hwhole, .field hfind hfree hread⟩
      | @field _ _ _ field' hfind' hfree' hread' =>
          have hmem := List.mem_of_find?_eq_some hfind
          have hmem' := List.mem_of_find?_eq_some hfind'
          have hne : field ≠ field' := by
            rintro rfl
            rw [hlawful.marks field hmem hread] at hfree'
            cases hfree'
          have hpasses := hlawful.passes hmem hmem' hne
          obtain ⟨between, hbetween, hlast⟩ := hpasses.swap hread hread'
          rw [hpasses.isRead_eq hread] at hfree'
          have hfree'' : field.isRead between = false := by
            rw [(hlawful.passes hmem' hmem hne.symm).isRead_eq hbetween, hfree]
          exact ⟨between, .field hfind' hfree' hbetween, .field hfind hfree'' hlast⟩

theorem Lawful.readEntries_perm (hlawful : shape.Lawful) {entries others : List (String × Tree)}
    (hperm : entries.Perm others) {parts last : ρ}
    (hread : shape.readEntries parts (.ofList entries) = .ok last) :
    shape.readEntries parts (.ofList others) = .ok last := by
  induction hperm generalizing parts with
  | nil => exact hread
  | cons entry _ ih =>
      obtain ⟨next, htakes, hrest⟩ := readEntries_cons_eq_ok_iff.mp hread
      exact readEntries_cons_eq_ok_iff.mpr ⟨next, htakes, ih hrest⟩
  | swap first second rest =>
      obtain ⟨next, hsecond, hread⟩ := readEntries_cons_eq_ok_iff.mp hread
      obtain ⟨last', hfirst, hrest⟩ := readEntries_cons_eq_ok_iff.mp hread
      obtain ⟨between, hfirst, hsecond⟩ := hlawful.takes_swap hsecond hfirst
      exact readEntries_cons_eq_ok_iff.mpr
        ⟨between, hfirst, readEntries_cons_eq_ok_iff.mpr ⟨last', hsecond, hrest⟩⟩
  | trans _ _ ih ih' => exact ih' (ih hread)

/-! ### Entries that make no difference -/

theorem readEntries_append_eq_ok_iff {entries others : List (String × Tree)} {parts last : ρ} :
    shape.readEntries parts (.ofList (entries ++ others)) = .ok last ↔
      ∃ next, shape.readEntries parts (.ofList entries) = .ok next ∧
        shape.readEntries next (.ofList others) = .ok last := by
  induction entries generalizing parts with
  | nil => simp [Entries.ofList, readEntries]
  | cons entry rest ih =>
      simp only [List.cons_append, readEntries_cons_eq_ok_iff, ih]
      constructor
      · rintro ⟨between, htakes, next, hrest, hothers⟩
        exact ⟨next, ⟨between, htakes, hrest⟩, hothers⟩
      · rintro ⟨next, ⟨between, htakes, hrest⟩, hothers⟩
        exact ⟨between, htakes, next, hrest, hothers⟩

theorem readEntries_others {others : List (String × Tree)}
    (hothers : ∀ other ∈ others, other.1 ∉ shape.fields.map (·.key) ∧ other.2.isWhole = true)
    (parts : ρ) : shape.readEntries parts (.ofList others) = .ok parts := by
  induction others with
  | nil => rfl
  | cons other rest ih =>
      obtain ⟨hkey, hwhole⟩ := hothers other List.mem_cons_self
      have hfind : shape.fields.find? (·.key == other.1) = none := by
        rw [List.find?_eq_none]
        intro field hfield hsame
        exact hkey (List.mem_map.mpr ⟨field, hfield, by simpa using hsame⟩)
      exact readEntries_cons_eq_ok_iff.mpr ⟨parts, .other hfind hwhole,
        ih fun other hother => hothers other (List.mem_cons_of_mem _ hother)⟩

/-- The entry says what would hold without it. -/
def Idle (shape : Shape ρ α) (entry : String × Tree) : Prop :=
  ∀ {parts next : ρ}, shape.Takes parts entry next → shape.build next = shape.build parts

theorem idle_other {key : String} (hfind : shape.fields.find? (·.key == key) = none) (tree : Tree) :
    shape.Idle (key, tree) := by
  intro parts next htakes
  cases htakes with
  | other => rfl
  | field hfind' =>
      rw [hfind] at hfind'
      cases hfind'

theorem idle_part {β : Type} {key : String} {tree : Tree} {read : Tree → Decoded β}
    {get : ρ → Option β} {set : ρ → β → ρ} {value : β}
    (hfind : shape.fields.find? (·.key == key) = some (.part key read get set))
    (hread : read tree = .ok value)
    (hbuild : ∀ parts, get parts = none → shape.build (set parts value) = shape.build parts) :
    shape.Idle (key, tree) := by
  intro parts next htakes
  cases htakes with
  | other => rfl
  | field hfind' hfree hread' =>
      obtain rfl := Option.some.inj (hfind.symm.trans hfind')
      obtain ⟨_, hvalue, rfl⟩ := map_eq_ok_iff.mp hread'
      obtain rfl := Except.ok.inj (hread.symm.trans hvalue)
      exact hbuild parts (by simpa [FieldReader.part] using hfree)

theorem build_eq_of_idle {idle : List (String × Tree)} (hidle : ∀ entry ∈ idle, shape.Idle entry)
    {parts last : ρ} (hread : shape.readEntries parts (.ofList idle) = .ok last) :
    shape.build last = shape.build parts := by
  induction idle generalizing parts with
  | nil => rw [Except.ok.inj hread]
  | cons entry rest ih =>
      obtain ⟨next, htakes, hrest⟩ := readEntries_cons_eq_ok_iff.mp hread
      rw [ih (fun entry hentry => hidle entry (List.mem_cons_of_mem _ hentry)) hrest]
      exact hidle entry List.mem_cons_self htakes

theorem read_record_eq_ok_iff {timing : Timing} {entries : Entries} {value : α} :
    shape.read timing (.record entries) = .ok value ↔
      ∃ parts, shape.readEntries shape.blank entries = .ok parts ∧
        shape.build parts = .ok value := by
  rw [read_record, ofEntries]
  cases shape.readEntries shape.blank entries with
  | error e => simp
  | ok parts => cases hbuild : shape.build parts <;> simp [hbuild]

/-- A record that can be read may as well come in another order, without entries that make no
difference and with others that do not belong to it. -/
theorem Lawful.read_loose (hlawful : shape.Lawful) {timing : Timing} {value : α}
    {fields kept idle others entries : List (String × Tree)}
    (hread : shape.read timing (.record (.ofList fields)) = .ok value)
    (hfields : fields.Perm (kept ++ idle)) (hidle : ∀ entry ∈ idle, shape.Idle entry)
    (hothers : ∀ other ∈ others, other.1 ∉ shape.fields.map (·.key) ∧ other.2.isWhole = true)
    (hentries : (kept ++ others).Perm entries) :
    shape.read timing (.record (.ofList entries)) = .ok value := by
  obtain ⟨last, hlast, hbuild⟩ := read_record_eq_ok_iff.mp hread
  obtain ⟨parts, hkept, hrest⟩ :=
    readEntries_append_eq_ok_iff.mp (hlawful.readEntries_perm hfields hlast)
  have hall := readEntries_append_eq_ok_iff.mpr ⟨parts, hkept, readEntries_others hothers parts⟩
  refine read_record_eq_ok_iff.mpr ⟨parts, hlawful.readEntries_perm hentries hall, ?_⟩
  rw [← build_eq_of_idle hidle hrest, hbuild]

end Shape

end ClassLayout.Json
