import ClassLayout.Json.Shape
import ClassLayout.Proofs.Json.Document
import Mathlib.Data.List.Forall2

/-!
# Values read back

What is read out of the tree of a value, piece by piece: counts that fit a word, texts, lists of
things each of which is read back, and records whose entries come one after the other. A value
without repeated keys is also read back as a whole (`ofText?_indented`).
-/

namespace ClassLayout.Json

/-! ### Numbers -/

theorem le_appendDigits (start : Nat) (digits : List Nat) : start ≤ appendDigits start digits := by
  induction digits generalizing start with
  | nil => exact Nat.le_refl start
  | cons d rest ih =>
      have hrest : 10 * start + d ≤ appendDigits start (d :: rest) := ih (10 * start + d)
      omega

namespace Numeral

theorem absorb_eq {start : Nat} {digits : List Nat} (hfits : appendDigits start digits < wordLimit) :
    absorb start digits = (appendDigits start digits, 0) := by
  induction digits generalizing start with
  | nil => rfl
  | cons d rest ih =>
      have hrest : appendDigits start (d :: rest) = appendDigits (10 * start + d) rest := rfl
      have hle := le_appendDigits (10 * start + d) rest
      rw [absorb, if_pos (by omega), hrest]
      exact ih (by omega)

theorem appendDigits_ofNat (n : Nat) : appendDigits 0 (ofNat n).whole = n := by
  rw [appendDigits, ofNat, List.foldl_map]
  exact Nat.ofDigitChars_eq_foldl.symm.trans Nat.ofDigitChars_ten_toDigits

theorem value?_ofNat {n : Nat} (hfits : n < wordLimit) : (ofNat n).value? = some (.integer n) := by
  have habsorb : absorb 0 (ofNat n).whole = (n, 0) := by
    rw [absorb_eq (by rwa [appendDigits_ofNat]), appendDigits_ofNat]
  unfold value?
  rw [habsorb]
  simp [ofNat]

end Numeral

theorem readCount_ofNat {n : Nat} (hfits : n < wordLimit) :
    readCount (.number (.ofNat n)) = .ok n := by
  simp [readCount, Numeral.value?_ofNat hfits]

/-! ### Trees of lists -/

def Items.ofList : List Tree → Items
  | [] => .done
  | item :: rest => .next item (ofList rest)

def Entries.ofList : List (String × Tree) → Entries
  | [] => .done
  | (key, value) :: rest => .next (some key) value (ofList rest)

theorem itemTrees_eq_ofList (items : List Value) :
    itemTrees items = .ofList (items.map Value.tree) := by
  induction items with
  | nil => rfl
  | cons item rest ih => rw [itemTrees, ih, List.map_cons, Items.ofList]

theorem entryTrees_eq_ofList (entries : List (String × Value)) :
    entryTrees entries = .ofList (entries.map fun entry => (entry.1, entry.2.tree)) := by
  induction entries with
  | nil => rfl
  | cons entry rest ih => rw [entryTrees, ih, List.map_cons, Entries.ofList]

/-! ### Lists -/

section Lists

variable {α : Type} {read : Tree → Decoded α} {write : α → Value}

theorem readList_ofList {values : List α} {trees : List Tree}
    (hread : List.Forall₂ (fun value tree => read tree = .ok value) values trees) :
    readList read (.list (.ofList trees)) = .ok values := by
  induction hread with
  | nil => rfl
  | cons hvalue _ ih =>
      have hrest : (Items.ofList _).readAll read = .ok _ := ih
      rw [readList, Items.ofList, Items.readAll, hvalue, hrest]
      rfl

theorem readList_itemTrees {values : List α}
    (hread : ∀ value ∈ values, read (write value).tree = .ok value) :
    readList read (.list (itemTrees (values.map write))) = .ok values := by
  rw [itemTrees_eq_ofList, List.map_map]
  apply readList_ofList
  rw [List.forall₂_map_right_iff, List.forall₂_same]
  exact hread

theorem readList_texts (values : List String) :
    readList readText (Value.texts values).tree = .ok values := by
  apply readList_itemTrees
  intro value _
  rfl

end Lists

/-! ### Records -/

theorem map_eq_ok_iff {α β : Type} {decoded : Decoded α} {f : α → β} {result : β} :
    decoded.map f = .ok result ↔ ∃ value, decoded = .ok value ∧ f value = result := by
  cases decoded <;> simp [Except.map]

theorem Shape.read_record {ρ α : Type} (shape : Shape ρ α) (timing : Timing) (entries : Entries) :
    shape.read timing (.record entries) = shape.ofEntries entries := rfl

theorem Shape.sole_record {β : Type} (name key : String) {read : Tree → Decoded β} {tree : Tree}
    {value : β} (timing : Timing) (hread : read tree = .ok value) :
    (sole name key read).read timing (.record (.ofList [(key, tree)])) = .ok value := by
  simp [read_record, ofEntries, readEntries, sole, FieldReader.part, Entries.ofList, need,
    Except.map, hread]

/-! ### Plain values -/

/-- The value may stand wherever `depth` more containers may be open. -/
def Value.Plain (depth : Nat) (value : Value) : Prop :=
  ∀ room, depth ≤ room → value.tree.isPlain room = true

namespace Value

theorem plain_null (depth : Nat) : null.Plain depth := fun _ _ => rfl

theorem plain_text (depth : Nat) (s : String) : (text s).Plain depth := fun _ _ => rfl

theorem plain_number (depth : Nat) {n : Nat} (hfits : n < wordLimit) : (number n).Plain depth := by
  intro room _
  simp [tree, Tree.isPlain, Numeral.value?_ofNat hfits]

theorem isPlain_itemTrees {room : Nat} {items : List Value}
    (hitems : ∀ item ∈ items, item.tree.isPlain room = true) :
    (itemTrees items).isPlain room = true := by
  induction items with
  | nil => rfl
  | cons item rest ih => simp_all [itemTrees, Items.isPlain]

theorem isPlain_entryTrees {room : Nat} {entries : List (String × Value)}
    (hentries : ∀ entry ∈ entries, entry.2.tree.isPlain room = true) :
    (entryTrees entries).isPlain room = true := by
  induction entries with
  | nil => rfl
  | cons entry rest ih => simp_all [entryTrees, Entries.isPlain]

theorem plain_list {depth : Nat} {items : List Value} (hitems : ∀ item ∈ items, item.Plain depth) :
    (list items).Plain (depth + 1) := by
  intro room hroom
  have hinside := isPlain_itemTrees fun item hitem => hitems item hitem (room - 1) (by omega)
  have hpos : 0 < room := by omega
  simp [tree, Tree.isPlain, hinside, hpos]

theorem plain_record {depth : Nat} {entries : List (String × Value)}
    (hentries : ∀ entry ∈ entries, entry.2.Plain depth) : (record entries).Plain (depth + 1) := by
  intro room hroom
  have hinside := isPlain_entryTrees fun entry hentry =>
    hentries entry hentry (room - 1) (by omega)
  have hpos : 0 < room := by omega
  simp [tree, Tree.isPlain, hinside, hpos]

theorem plain_list_map {α : Type} {write : α → Value} {depth : Nat} {values : List α}
    (hvalues : ∀ value ∈ values, (write value).Plain depth) :
    (list (values.map write)).Plain (depth + 1) := by
  apply plain_list
  intro item hitem
  obtain ⟨value, hvalue, rfl⟩ := List.mem_map.mp hitem
  exact hvalues value hvalue

theorem plain_texts (depth : Nat) (values : List String) : (texts values).Plain (depth + 1) :=
  plain_list_map fun s _ => plain_text depth s

end Value

/-! ### Whole values -/

/-- The number, when it is written as a natural one. -/
def Numeral.natural? (n : Numeral) : Option Nat :=
  if n.negative = false ∧ n.fraction = [] ∧ n.exponent = none then some (appendDigits 0 n.whole)
  else none

theorem Numeral.natural?_ofNat (n : Nat) : (ofNat n).natural? = some n := by
  rw [natural?, if_pos ⟨rfl, rfl, rfl⟩, appendDigits_ofNat]

mutual

/-- The value that a tree holds, when nothing in it is missing or cut, its numbers are natural and
no record has a key twice. -/
def Tree.value? : Tree → Option Value
  | .null => some .null
  | .bool b => some (.bool b)
  | .number n => n.natural?.map .number
  | .text s => s.map .text
  | .list items => items.values?.map .list
  | .record entries =>
    (entries.values?.filter fun fields => (fields.map Prod.fst).Nodup).map .record
  | .missing => none

def Items.values? : Items → Option (List Value)
  | .done => some []
  | .cut => none
  | .next head tail => head.value?.bind fun item => tail.values?.map (item :: ·)

def Entries.values? : Entries → Option (List (String × Value))
  | .done => some []
  | .cut => none
  | .next key value tail =>
    key.bind fun key => value.value?.bind fun value => tail.values?.map ((key, value) :: ·)

end

/-- The value that a text holds, if it holds one and nothing else. -/
def Value.ofText? (text : String) : Option Value :=
  let document := Document.read text
  if document.surplus then none else document.root.value?

namespace Value

/-- No record of the value has a key twice. -/
inductive Keyed : Value → Prop
  | null : Keyed .null
  | bool (b : Bool) : Keyed (.bool b)
  | number (n : Nat) : Keyed (.number n)
  | text (s : String) : Keyed (.text s)
  | list {items : List Value} (hitems : ∀ item ∈ items, Keyed item) : Keyed (.list items)
  | record {entries : List (String × Value)} (hkeys : (entries.map Prod.fst).Nodup)
      (hentries : ∀ entry ∈ entries, Keyed entry.2) : Keyed (.record entries)

theorem values?_itemTrees {items : List Value}
    (hitems : ∀ item ∈ items, item.tree.value? = some item) :
    (itemTrees items).values? = some items := by
  induction items with
  | nil => rfl
  | cons item rest ih => simp_all [itemTrees, Items.values?]

theorem values?_entryTrees {entries : List (String × Value)}
    (hentries : ∀ entry ∈ entries, entry.2.tree.value? = some entry.2) :
    (entryTrees entries).values? = some entries := by
  induction entries with
  | nil => rfl
  | cons entry rest ih => simp_all [entryTrees, Entries.values?]

theorem Keyed.value?_tree {value : Value} (hkeyed : value.Keyed) :
    value.tree.value? = some value := by
  induction hkeyed with
  | null => rfl
  | bool b => rfl
  | number n => rw [tree, Tree.value?, Numeral.natural?_ofNat, Option.map_some]
  | text s => rfl
  | list _ ih => rw [tree, Tree.value?, values?_itemTrees ih, Option.map_some]
  | record hkeys _ ih =>
      rw [tree, Tree.value?, values?_entryTrees ih, Option.filter_some_pos (by simpa using hkeys),
        Option.map_some]

theorem Keyed.ofText?_indented {value : Value} (hkeyed : value.Keyed) :
    ofText? value.indented = some value := by
  rw [ofText?, Document.read_indented]
  exact hkeyed.value?_tree

theorem keyed_list_map {α : Type} {write : α → Value} {values : List α}
    (hvalues : ∀ value ∈ values, (write value).Keyed) : (list (values.map write)).Keyed := by
  apply Keyed.list
  intro item hitem
  obtain ⟨value, hvalue, rfl⟩ := List.mem_map.mp hitem
  exact hvalues value hvalue

theorem keyed_texts (values : List String) : (texts values).Keyed :=
  keyed_list_map fun s _ => .text s

theorem keyed_orNull (value : Option String) : (orNull value).Keyed := by
  cases value with
  | none => exact .null
  | some s => exact .text s

end Value

end ClassLayout.Json
