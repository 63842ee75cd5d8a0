import ClassLayout.Proofs.Names

/-!
# The grammar of a command line

The words after the command are an input path and then groups of words, each of which sets one
thing. The grammar says what the groups are and what they set, without regard to how they are read.
Reading accepts exactly the words that the grammar describes (`readOptions_eq_ok_iff`). A value that
looks like a flag is no cause of doubt, because the first word of a group settles where it ends.
-/

namespace ClassLayout

namespace Command

/-! ### Groups of words -/

/-- A word that can be a path: not blank, and not to be taken for a flag. -/
def IsPath (word : String) : Prop := Text.isAllBlank word = false ∧ word.startsWith "-" = false

instance (word : String) : Decidable (IsPath word) := inferInstanceAs (Decidable (_ ∧ _))

/-- Words that set one thing, with the value that they give where it is not a word itself. -/
inductive Group
  | output (flag path : String)
  | format (word : String) (format : OutputFormat)
  | entryPoint (name : String)
  | logFormat (word : String) (format : Log.Format)
  | logLevel (word : String) (level : Log.Level)
  | requireEntry
deriving DecidableEq

namespace Group

def words : Group → List String
  | output flag path => [flag, path]
  | format word _ => ["--format", word]
  | entryPoint name => ["--entry-point", name]
  | logFormat word _ => ["--log-format", word]
  | logLevel word _ => ["--log-level", word]
  | requireEntry => ["--require-entry"]

def Valid : Group → Prop
  | output flag path => (flag = "-o" ∨ flag = "--output") ∧ IsPath path
  | .format word kind => kind.Names word
  | entryPoint name => Text.isAllBlank name = false
  | .logFormat word kind => kind.Names word
  | logLevel word level => level.Names word
  | requireEntry => True

instance : (group : Group) → Decidable group.Valid
  | output .. => inferInstanceAs (Decidable (_ ∧ IsPath _))
  | .format word kind => inferInstanceAs (Decidable (kind.Names word))
  | entryPoint _ => inferInstanceAs (Decidable (_ = _))
  | .logFormat word kind => inferInstanceAs (Decidable (kind.Names word))
  | logLevel word level => inferInstanceAs (Decidable (level.Names word))
  | requireEntry => inferInstanceAs (Decidable True)

def path? : Group → Option String
  | output _ path => some path
  | _ => none

def format? : Group → Option OutputFormat
  | format _ kind => some kind
  | _ => none

def entryPoint? : Group → Option String
  | entryPoint name => some name
  | _ => none

def logFormat? : Group → Option Log.Format
  | logFormat _ kind => some kind
  | _ => none

def logLevel? : Group → Option Log.Level
  | logLevel _ level => some level
  | _ => none

/-- The words are an input path followed by the groups. -/
def Compose (input : String) (groups : List Group) (words : List String) : Prop :=
  IsPath input ∧ (∀ group ∈ groups, group.Valid) ∧ words = input :: groups.flatMap Group.words

end Group

/-- What is asked for: of each thing what the last group for it says, else the default. -/
def Request.given (input : String) (groups : List Group) : Request where
  input := input
  output? := (groups.filterMap Group.path?).getLast?
  format := (groups.filterMap Group.format?).getLast?.getD .json
  options :=
    { entryPoint := (groups.filterMap Group.entryPoint?).getLast?.getD "main"
      policy := if .requireEntry ∈ groups then .required else .optional }

/-- Format and level of the log, each for itself: what the last group for it says, else what the
environment says in words that make sense, else the default. -/
def Group.settings (environment : Log.Environment) (groups : List Group) : Log.Settings where
  format := ((groups.filterMap logFormat?).getLast?.or
    (environment.format?.bind Log.Format.ofName?)).getD .auto
  level := ((groups.filterMap logLevel?).getLast?.or
    (environment.level?.bind Log.Level.ofName?)).getD .warn

/-! ### Reading one group -/

theorem readPath_eq_ok_iff {word path : String} (absent : UsageFault) :
    readPath word absent = .ok path ↔ IsPath word ∧ word = path := by
  unfold readPath IsPath
  cases Text.isAllBlank word <;> cases word.startsWith "-" <;> simp

namespace Draft

def ValueFlag.words : ValueFlag → List String
  | output => ["-o", "--output"]
  | format => ["--format"]
  | entryPoint => ["--entry-point"]
  | logFormat => ["--log-format"]
  | logLevel => ["--log-level"]

theorem ValueFlag.ofWord?_eq_some_iff {word : String} {flag : ValueFlag} :
    ofWord? word = some flag ↔ word ∈ flag.words := by
  unfold ofWord?
  cases flag <;> grind [words]

def apply (draft : Draft) : Group → Draft
  | .output _ path => { draft with request := { draft.request with output? := some path } }
  | .format _ format => { draft with request := { draft.request with format } }
  | .entryPoint name => { draft with request :=
      { draft.request with options := { draft.request.options with entryPoint := name } } }
  | .logFormat _ format => { draft with log := { draft.log with format? := some format } }
  | .logLevel _ level => { draft with log := { draft.log with level? := some level } }
  | .requireEntry => draft.requireEntry

theorem readOptions_words (draft : Draft) {group : Group} (hvalid : group.Valid)
    (rest : List String) :
    draft.readOptions (group.words ++ rest) = (draft.apply group).readOptions rest := by
  cases group with
  | output flag path =>
      obtain ⟨hflag, hpath⟩ := hvalid
      have hread := (readPath_eq_ok_iff .missingOutput).mpr ⟨hpath, rfl⟩
      rcases hflag with rfl | rfl <;>
        simp [Group.words, readOptions, ValueFlag.ofWord?, set, hread, apply, Except.map]
  | format word format =>
      have hname := OutputFormat.ofName?_eq_some_iff.mpr hvalid
      simp [Group.words, readOptions, ValueFlag.ofWord?, set, hname, apply]
  | entryPoint name =>
      have hname : Text.isAllBlank name = false := hvalid
      simp [Group.words, readOptions, ValueFlag.ofWord?, set, hname, apply]
  | logFormat word format =>
      have hname := Log.Format.ofName?_eq_some_iff.mpr hvalid
      simp [Group.words, readOptions, ValueFlag.ofWord?, set, hname, apply]
  | logLevel word level =>
      have hname := Log.Level.ofName?_eq_some_iff.mpr hvalid
      simp [Group.words, readOptions, ValueFlag.ofWord?, set, hname, apply]
  | requireEntry => simp [Group.words, readOptions, apply]

/-- A flag is accepted with a value only if the two form a valid group. -/
theorem exists_group_of_set {draft result : Draft} {word value : String} {flag : ValueFlag}
    (hword : word ∈ flag.words) (hset : draft.set value flag = .ok result) :
    ∃ group : Group, group.Valid ∧ group.words = [word, value] ∧ draft.apply group = result := by
  cases flag with
  | output =>
      simp only [set] at hset
      cases hpath : readPath value .missingOutput with
      | error fault => simp [hpath, Except.map] at hset
      | ok path =>
          obtain ⟨hvalid, rfl⟩ := (readPath_eq_ok_iff _).mp hpath
          rw [hpath] at hset
          exact ⟨.output word value, ⟨by simpa [ValueFlag.words] using hword, hvalid⟩, rfl,
            Except.ok.inj hset⟩
  | format =>
      obtain rfl := List.mem_singleton.mp hword
      simp only [set] at hset
      split at hset
      · rename_i format hname
        exact ⟨.format value format, OutputFormat.ofName?_eq_some_iff.mp hname, rfl,
          Except.ok.inj hset⟩
      · cases hset
  | entryPoint =>
      obtain rfl := List.mem_singleton.mp hword
      simp only [set] at hset
      split at hset
      · cases hset
      · rename_i hblank
        exact ⟨.entryPoint value, Bool.eq_false_iff.mpr hblank, rfl, Except.ok.inj hset⟩
  | logFormat =>
      obtain rfl := List.mem_singleton.mp hword
      simp only [set] at hset
      split at hset
      · rename_i format hname
        exact ⟨.logFormat value format, Log.Format.ofName?_eq_some_iff.mp hname, rfl,
          Except.ok.inj hset⟩
      · cases hset
  | logLevel =>
      obtain rfl := List.mem_singleton.mp hword
      simp only [set] at hset
      split at hset
      · rename_i level hname
        exact ⟨.logLevel value level, Log.Level.ofName?_eq_some_iff.mp hname, rfl,
          Except.ok.inj hset⟩
      · cases hset

theorem exists_group_of_readOptions {draft result : Draft} {word : String} {words : List String}
    (hread : draft.readOptions (word :: words) = .ok result) :
    ∃ (group : Group) (rest : List String), group.Valid ∧ word :: words = group.words ++ rest ∧
      (draft.apply group).readOptions rest = .ok result := by
  by_cases hrequire : word = "--require-entry"
  · rw [readOptions, if_pos hrequire] at hread
    exact ⟨.requireEntry, words, trivial, by rw [hrequire]; rfl, hread⟩
  · rw [readOptions, if_neg hrequire] at hread
    split at hread
    · cases hread
    · rename_i flag hflag
      split at hread
      · cases hread
      · rename_i value rest
        split at hread
        · cases hread
        · rename_i next hset
          obtain ⟨group, hvalid, hwords, rfl⟩ :=
            exists_group_of_set (ValueFlag.ofWord?_eq_some_iff.mp hflag) hset
          exact ⟨group, rest, hvalid, by rw [hwords]; rfl, hread⟩

/-! ### Reading all groups -/

theorem readOptions_flatMap (draft : Draft) {groups : List Group}
    (hvalid : ∀ group ∈ groups, group.Valid) :
    draft.readOptions (groups.flatMap Group.words) = .ok (groups.foldl apply draft) := by
  induction groups generalizing draft with
  | nil => rfl
  | cons group rest ih =>
      rw [List.flatMap_cons, readOptions_words draft (hvalid group List.mem_cons_self)]
      exact ih _ fun group hgroup => hvalid group (List.mem_cons_of_mem _ hgroup)

theorem exists_groups_of_readOptions {draft result : Draft} {words : List String}
    (hread : draft.readOptions words = .ok result) :
    ∃ groups : List Group, (∀ group ∈ groups, group.Valid) ∧
      words = groups.flatMap Group.words ∧ groups.foldl apply draft = result := by
  -- A group has at least one word, so what follows it is shorter.
  induction hlength : words.length using Nat.strongRecOn generalizing draft words with
  | ind length ih =>
    cases words with
    | nil => exact ⟨[], by simp, rfl, Except.ok.inj hread⟩
    | cons word others =>
        obtain ⟨group, rest, hvalid, hwords, hrest⟩ := exists_group_of_readOptions hread
        have hshort : rest.length < length := by
          have hpos : 0 < group.words.length := by cases group <;> simp [Group.words]
          rw [← hlength, hwords, List.length_append]
          omega
        obtain ⟨groups, hgroups, rfl, hresult⟩ := ih rest.length hshort hrest rfl
        exact ⟨group :: groups, by simpa using ⟨hvalid, hgroups⟩, by rw [hwords]; rfl, hresult⟩

/-- Reading accepts exactly the concatenations of valid groups. -/
theorem readOptions_eq_ok_iff {draft result : Draft} {words : List String} :
    draft.readOptions words = .ok result ↔
      ∃ groups : List Group, (∀ group ∈ groups, group.Valid) ∧
        words = groups.flatMap Group.words ∧ groups.foldl apply draft = result := by
  refine ⟨exists_groups_of_readOptions, ?_⟩
  rintro ⟨groups, hvalid, rfl, rfl⟩
  exact readOptions_flatMap draft hvalid

/-! ### What the groups set -/

theorem foldl_apply_eq {α : Type} (get : Draft → Option α) (pick : Group → Option α)
    (hstep : ∀ draft group, get (apply draft group) = (pick group).or (get draft))
    (groups : List Group) (draft : Draft) :
    get (groups.foldl apply draft) = (groups.filterMap pick).getLast?.or (get draft) := by
  induction groups generalizing draft with
  | nil => rfl
  | cons group rest ih =>
      rw [List.foldl_cons, ih, hstep, List.filterMap_cons]
      cases pick group with
      | none => simp
      | some value =>
          rw [List.getLast?_cons]
          cases (rest.filterMap pick).getLast? <;> simp

theorem policy_foldl_apply (groups : List Group) (draft : Draft) :
    (groups.foldl apply draft).request.options.policy =
      if .requireEntry ∈ groups then .required else draft.request.options.policy := by
  induction groups generalizing draft with
  | nil => simp
  | cons group rest ih =>
      rw [List.foldl_cons, ih]
      cases group <;> simp [apply, requireEntry]

theorem input_foldl_apply (groups : List Group) (draft : Draft) :
    (groups.foldl apply draft).request.input = draft.request.input := by
  induction groups generalizing draft with
  | nil => rfl
  | cons group rest ih =>
      rw [List.foldl_cons, ih]
      cases group <;> rfl

theorem request_foldl_apply (input : String) (groups : List Group) :
    (groups.foldl apply { request := { input } }).request = Request.given input groups := by
  have hinput := input_foldl_apply groups { request := { input } }
  have houtput := foldl_apply_eq (·.request.output?) Group.path?
    (fun _ group => by cases group <;> rfl) groups { request := { input } }
  have hformat := foldl_apply_eq (fun draft => some draft.request.format) Group.format?
    (fun _ group => by cases group <;> rfl) groups { request := { input } }
  have hentry := foldl_apply_eq (fun draft => some draft.request.options.entryPoint)
    Group.entryPoint? (fun _ group => by cases group <;> rfl) groups { request := { input } }
  have hpolicy := policy_foldl_apply groups { request := { input } }
  generalize groups.foldl apply { request := { input } } = result at *
  obtain ⟨⟨_, _, _, _, _⟩, _⟩ := result
  simp only [Option.or_none, Option.or_some, Option.some.injEq] at *
  simp only [Request.given, *]
  rfl

theorem log_foldl_apply (environment : Log.Environment) (request : Request)
    (groups : List Group) :
    (Log.Settings.ofEnvironment environment).override (groups.foldl apply { request }).log =
      Group.settings environment groups := by
  have hformat := foldl_apply_eq (·.log.format?) Group.logFormat?
    (fun _ group => by cases group <;> rfl) groups { request }
  have hlevel := foldl_apply_eq (·.log.level?) Group.logLevel?
    (fun _ group => by cases group <;> rfl) groups { request }
  simp only [Option.or_none] at hformat hlevel
  simp only [Log.Settings.override, Log.Settings.ofEnvironment, Group.settings, hformat, hlevel,
    Log.Environment.overrides, Option.getD_or]

end Draft

namespace Invocation

theorem readLower_eq_ok_iff {environment : Log.Environment} {words : List String}
    {invocation : Invocation} (hhelp : words.any isHelpFlag = false) :
    readLower environment words = .ok invocation ↔
      ∃ input groups, Group.Compose input groups words ∧
        invocation = ⟨.lower (.given input groups), Group.settings environment groups⟩ := by
  unfold readLower
  rw [if_neg (by simp [hhelp])]
  refine ⟨fun hread => ?_, ?_⟩
  · split at hread
    · cases hread
    · rename_i input rest
      split at hread
      · cases hread
      · rename_i hpath
        obtain ⟨hvalid, rfl⟩ := (readPath_eq_ok_iff _).mp hpath
        cases hoptions : Draft.readOptions { request := { input } } rest with
        | error fault => simp [hoptions, Except.map] at hread
        | ok draft =>
            obtain ⟨groups, hgroups, rfl, rfl⟩ := Draft.readOptions_eq_ok_iff.mp hoptions
            rw [hoptions] at hread
            refine ⟨input, groups, ⟨hvalid, hgroups, rfl⟩, (Except.ok.inj hread).symm.trans ?_⟩
            simp only [Draft.request_foldl_apply, Draft.log_foldl_apply]
  · rintro ⟨input, groups, ⟨hpath, hgroups, rfl⟩, rfl⟩
    simp only [(readPath_eq_ok_iff _).mpr ⟨hpath, rfl⟩, Draft.readOptions_flatMap _ hgroups,
      Except.map, Draft.request_foldl_apply, Draft.log_foldl_apply]

theorem ofWords_eq_readLower {environment : Log.Environment} {command : String}
    (hcommand : command = "lower" ∨ command = "compile") (words : List String) :
    ofWords environment (command :: words) = readLower environment words := by
  rcases hcommand with rfl | rfl <;> simp [ofWords]

/-- A help flag anywhere asks for help on the command. Without one, the command line is accepted
exactly when it is composed of an input path and valid groups. Then each thing is as the last group
for it says, and the log settings that no group gives come from the environment where it names
one. -/
theorem ofWords_lower_iff (environment : Log.Environment) {command : String}
    (hcommand : command = "lower" ∨ command = "compile") (words : List String) :
    ((∃ word ∈ words, word = "-h" ∨ word = "--help") →
      ∃ log, ofWords environment (command :: words) = .ok ⟨.help (some "lower"), log⟩) ∧
    ((∀ word ∈ words, word ≠ "-h" ∧ word ≠ "--help") →
      ((∃ invocation, ofWords environment (command :: words) = .ok invocation) ↔
        ∃ input groups, Group.Compose input groups words) ∧
      ∀ input groups, Group.Compose input groups words →
        ∃ log, ofWords environment (command :: words) = .ok ⟨.lower (.given input groups), log⟩ ∧
          Log.Counts Log.Format.Names (groups.filterMap Group.logFormat?) environment.format? .auto
            log.format ∧
          Log.Counts Log.Level.Names (groups.filterMap Group.logLevel?) environment.level? .warn
            log.level) := by
  rw [ofWords_eq_readLower hcommand]
  refine ⟨fun hhelp => ?_, fun hhelp => ?_⟩
  · unfold readLower
    rw [if_pos (by simpa [isHelpFlag] using hhelp)]
    exact ⟨_, rfl⟩
  · have hread {invocation : Invocation} : readLower environment words = .ok invocation ↔ _ :=
      readLower_eq_ok_iff (by simpa [isHelpFlag] using hhelp)
    refine ⟨⟨?_, ?_⟩, ?_⟩
    · rintro ⟨invocation, haccept⟩
      obtain ⟨input, groups, hcompose, -⟩ := hread.mp haccept
      exact ⟨input, groups, hcompose⟩
    · rintro ⟨input, groups, hcompose⟩
      exact ⟨_, hread.mpr ⟨input, groups, hcompose, rfl⟩⟩
    · intro input groups hcompose
      refine ⟨_, hread.mpr ⟨input, groups, hcompose, rfl⟩, ?_, ?_⟩
      · exact Log.counts_getD Log.Format.ofName?_eq_some_iff _ _ _
      · exact Log.counts_getD Log.Level.ofName?_eq_some_iff _ _ _

/-- Values that look like flags, with repeated groups and blanks around names; then a flag without
its value; and last a help flag in the place of a value. -/
theorem ofWords_lower_iff_words :
    ofWords ⟨some " JSON ", some "loud", none⟩
        ["compile", " in.json", "--log-level", "VERBOSE", "-o", "a.txt", "--entry-point",
          "--format", "--format", "Txt", "--require-entry", "--output", "b.txt", "--log-level",
          "\tErr "] =
      .ok ⟨.lower ⟨" in.json", some "b.txt", .text, ⟨"--format", .required⟩⟩, ⟨.json, .error⟩⟩ ∧
    (∀ invocation, ofWords {} ["lower", "in.json", "--output"] ≠ .ok invocation) ∧
    ∃ log, ofWords {} ["lower", "in.json", "--entry-point", "-h"] =
      .ok ⟨.help (some "lower"), log⟩ := by
  refine ⟨?_, fun invocation haccept => ?_, ?_⟩
  · have hcompose : Group.Compose " in.json"
        [.logLevel "VERBOSE" .trace, .output "-o" "a.txt", .entryPoint "--format",
          .format "Txt" .text, .requireEntry, .output "--output" "b.txt", .logLevel "\tErr " .error]
        [" in.json", "--log-level", "VERBOSE", "-o", "a.txt", "--entry-point", "--format",
          "--format", "Txt", "--require-entry", "--output", "b.txt", "--log-level", "\tErr "] :=
      ⟨by decide +kernel, by decide +kernel, rfl⟩
    obtain ⟨⟨format, level⟩, haccept, hformat, hlevel⟩ :=
      ((ofWords_lower_iff ⟨some " JSON ", some "loud", none⟩ (.inr rfl) _).2 (by decide)).2 _ _
        hcompose
    obtain rfl : level = .error := hlevel
    obtain rfl : format = .json := by
      have hjson : Log.Format.ofName? " JSON " = some .json := by decide +kernel
      rcases hformat with ⟨word, hword, hnames⟩ | ⟨-, hnone⟩
      · obtain rfl := Option.some.inj hword
        exact Option.some.inj ((Log.Format.ofName?_eq_some_iff.mpr hnames).symm.trans hjson)
      · exact absurd (Log.Format.ofName?_eq_some_iff.mp hjson) (hnone _ rfl _)
    exact haccept
  · obtain ⟨input, groups, -, -, hwords⟩ :=
      ((ofWords_lower_iff {} (.inl rfl) _).2 (by decide)).1.mp ⟨invocation, haccept⟩
    rcases groups with _ | ⟨first, rest⟩
    · simp at hwords
    · cases first <;> simp [Group.words] at hwords
  · exact (ofWords_lower_iff {} (.inl rfl) ["in.json", "--entry-point", "-h"]).1 (by decide)

end Invocation

end Command

end ClassLayout
