import ClassLayout.Command.Arguments
import Mathlib.Data.List.TakeWhile
import Mathlib.Tactic.Common

/-!
# Names of formats and levels

A format or level may be given by any of several names, in any case; for the log also with blanks
around the name. What a word names is said here by what the word looks like, and the readers find
exactly that.
-/

namespace ClassLayout

/-! ### Names between blanks -/

namespace Text

/-- No blank is a letter that has two cases. -/
theorem toLower_of_isBlank {c : Char} (hblank : isBlank c = true) : c.toLower = c := by
  simp only [isBlank, Bool.or_eq_true, Bool.and_eq_true, decide_eq_true_eq, beq_iff_eq] at hblank
  refine dif_neg fun hupper => ?_
  have hlow : 65 ≤ c.toNat := UInt32.le_iff_toNat_le.mp hupper.1
  have hhigh : c.toNat ≤ 90 := UInt32.le_iff_toNat_le.mp hupper.2
  omega

/-- The name in any case, with blanks before and after it. -/
def Padded (name word : String) : Prop :=
  ∃ before core after : List Char, word.toList = before ++ core ++ after ∧
    (∀ c ∈ before ++ after, isBlank c = true) ∧ core.map Char.toLower = name.toList

theorem dropWhile_isBlank {blanks core : List Char} (hblanks : ∀ c ∈ blanks, isBlank c = true)
    (hcore : ∀ c ∈ core.head?, isBlank c = false) : (blanks ++ core).dropWhile isBlank = core := by
  rw [List.dropWhile_append_of_pos hblanks]
  cases core with
  | nil => rfl
  | cons c rest => rw [List.dropWhile_cons_of_neg (by simp [hcore c rfl])]

/-- What is left of the word between its blanks. -/
theorem exists_trim (word : String) :
    ∃ before after : List Char, word.toList = before ++ (trim word).toList ++ after ∧
      ∀ c ∈ before ++ after, isBlank c = true := by
  refine ⟨word.toList.takeWhile isBlank,
    ((word.toList.dropWhile isBlank).reverse.takeWhile isBlank).reverse, ?_, ?_⟩
  · rw [trim, String.toList_ofList, List.append_assoc, ← List.reverse_append,
      List.takeWhile_append_dropWhile, List.reverse_reverse, List.takeWhile_append_dropWhile]
  · intro c hc
    rcases List.mem_append.mp hc with hbefore | hafter
    · exact List.mem_takeWhile_imp hbefore
    · exact List.mem_takeWhile_imp (List.mem_reverse.mp hafter)

theorem trim_eq {word : String} {before core after : List Char}
    (hword : word.toList = before ++ core ++ after)
    (hblank : ∀ c ∈ before ++ after, isBlank c = true) (hcore : ∀ c ∈ core, isBlank c = false) :
    trim word = String.ofList core := by
  simp only [List.forall_mem_append] at hblank
  obtain ⟨hbefore, hafter⟩ := hblank
  rw [trim, hword, List.append_assoc]
  cases core with
  | nil =>
      have hnone : (before ++ ([] ++ after)).dropWhile isBlank = [] :=
        List.dropWhile_eq_nil_iff.mpr (by simpa [or_imp, forall_and] using ⟨hbefore, hafter⟩)
      rw [hnone]
      rfl
  | cons c rest =>
      have hrest : ∀ d ∈ (c :: rest).reverse.head?, isBlank d = false := fun d hd =>
        hcore d (List.mem_reverse.mp (List.mem_of_mem_head? hd))
      rw [dropWhile_isBlank hbefore (by simp [hcore c List.mem_cons_self]), List.reverse_append,
        dropWhile_isBlank (by simpa using hafter) hrest, List.reverse_reverse]

theorem lowered_trim_eq_iff {name word : String} (hname : name.toList.any isBlank = false) :
    lowered (trim word) = name ↔ Padded name word := by
  constructor
  · intro hlowered
    obtain ⟨before, after, hword, hblank⟩ := exists_trim word
    refine ⟨before, (trim word).toList, after, hword, hblank, ?_⟩
    rw [← hlowered, lowered, String.toList_map]
  · rintro ⟨before, core, after, hword, hblank, hcore⟩
    have hfree : ∀ c ∈ core, isBlank c = false := by
      intro c hc
      have hlower : isBlank c.toLower = false := by
        simpa using List.any_eq_false.mp hname c.toLower (hcore ▸ List.mem_map_of_mem hc)
      by_contra hblank
      rw [toLower_of_isBlank (by simpa using hblank)] at hlower
      exact hblank hlower
    apply String.toList_injective
    rw [trim_eq hword hblank hfree, lowered, String.toList_map, String.toList_ofList, hcore]

theorem lowered_trim_mem_iff {names : List String} (word : String)
    (hnames : names.all (fun name => !name.toList.any isBlank) = true) :
    lowered (trim word) ∈ names ↔ ∃ name ∈ names, Padded name word := by
  have hname : ∀ name ∈ names, lowered (trim word) = name ↔ Padded name word := fun name hmem =>
    lowered_trim_eq_iff (by simpa using List.all_eq_true.mp hnames name hmem)
  constructor
  · intro hmem
    exact ⟨_, hmem, (hname _ hmem).mp rfl⟩
  · rintro ⟨name, hmem, hpadded⟩
    rwa [(hname name hmem).mpr hpadded]

end Text

/-! ### What a word names -/

namespace Command.OutputFormat

def spellings : OutputFormat → List String
  | json => ["json"]
  | text => ["text", "txt"]

/-- The word is a name of the format, in any case. -/
def Names (format : OutputFormat) (word : String) : Prop :=
  ∃ name ∈ format.spellings, word.toList.map Char.toLower = name.toList

theorem ofName?_eq_some_iff {word : String} {format : OutputFormat} :
    ofName? word = some format ↔ format.Names word := by
  have hlowered (name : String) :
      word.toList.map Char.toLower = name.toList ↔ Text.lowered word = name := by
    rw [Text.lowered, ← String.toList_inj, String.toList_map]
  simp only [Names, hlowered, ofName?]
  cases format <;> grind [spellings]

instance (format : OutputFormat) (word : String) : Decidable (format.Names word) :=
  decidable_of_iff _ ofName?_eq_some_iff

end Command.OutputFormat

namespace Log.Format

def spellings : Format → List String
  | auto => ["auto"]
  | text => ["text", "plain", "compact"]
  | json => ["json"]

/-- The word is a name of the format, in any case and with blanks around it. -/
def Names (format : Format) (word : String) : Prop :=
  ∃ name ∈ format.spellings, Text.Padded name word

theorem ofName?_eq_some_iff {word : String} {format : Format} :
    ofName? word = some format ↔ format.Names word := by
  rw [Names, ← Text.lowered_trim_mem_iff word (by cases format <;> decide)]
  simp only [ofName?]
  cases format <;> grind [spellings]

instance (format : Format) (word : String) : Decidable (format.Names word) :=
  decidable_of_iff _ ofName?_eq_some_iff

end Log.Format

namespace Log.Level

def spellings : Level → List String
  | error => ["error", "err"]
  | warn => ["warn", "warning"]
  | info => ["info"]
  | debug => ["debug"]
  | trace => ["trace", "verbose"]

/-- The word is a name of the level, in any case and with blanks around it. -/
def Names (level : Level) (word : String) : Prop :=
  ∃ name ∈ level.spellings, Text.Padded name word

theorem ofName?_eq_some_iff {word : String} {level : Level} :
    ofName? word = some level ↔ level.Names word := by
  rw [Names, ← Text.lowered_trim_mem_iff word (by cases level <;> decide)]
  simp only [ofName?]
  cases level <;> grind [spellings]

instance (level : Level) (word : String) : Decidable (level.Names word) :=
  decidable_of_iff _ ofName?_eq_some_iff

end Log.Level

/-! ### Flag, environment, default -/

/-- What counts for the log: the value given last, else the value that the variable of the
environment names, else the default. -/
def Log.Counts {α : Type} (names : α → String → Prop) (given : List α) (setting? : Option String)
    (default value : α) : Prop :=
  match given.getLast? with
  | some last => value = last
  | none =>
    (∃ word ∈ setting?, names value word) ∨
      value = default ∧ ∀ word ∈ setting?, ∀ other, ¬ names other word

theorem Log.counts_getD {α : Type} {names : α → String → Prop} {ofName? : String → Option α}
    (hname : ∀ {word value}, ofName? word = some value ↔ names value word) (given : List α)
    (setting? : Option String) (default : α) :
    Counts names given setting? default
      ((given.getLast?.or (setting?.bind ofName?)).getD default) := by
  unfold Counts
  cases given.getLast? with
  | some last => rfl
  | none =>
      cases setting? with
      | none => simp
      | some word =>
          cases hword : ofName? word with
          | some value => exact .inl ⟨word, rfl, by simpa [hword] using hname.mp hword⟩
          | none => simp [hword, ← hname]

end ClassLayout
