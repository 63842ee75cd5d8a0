import ClassLayout.Json.Tree
import ClassLayout.Proofs.Json.Spelling

/-!
# The texts of a value

A tree in which nothing is missing grows again from its own tokens, whatever containers are open
around it. So every text that spells these tokens is a document that holds the tree and nothing else
(`Document.read_spelled`). The compact and the indented text of a value spell the tokens of its tree
and differ in blanks alone (`read_compact`, `read_indented`).
-/

namespace ClassLayout.Json

/-! ### The tokens of a tree -/

mutual

/-- The tokens of a tree; a stray one stands for what is missing. -/
def Tree.tokens : Tree → List Token
  | .null => [.null]
  | .bool b => [.bool b]
  | .number n => [.number n]
  | .text s => [.text s]
  | .list .done => [.openBracket, .closeBracket]
  | .list .cut => [.openBracket, .stray]
  | .list (.next first rest) => .openBracket :: (first.tokens ++ rest.tokens)
  | .record .done => [.openBrace, .closeBrace]
  | .record .cut => [.openBrace, .stray]
  | .record (.next key first rest) =>
    .openBrace :: .text key :: .colon :: (first.tokens ++ rest.tokens)
  | .missing => [.stray]

/-- The tokens after the first item of a list. -/
def Items.tokens : Items → List Token
  | .done => [.closeBracket]
  | .cut => [.stray]
  | .next item rest => .comma :: (item.tokens ++ rest.tokens)

def Entries.tokens : Entries → List Token
  | .done => [.closeBrace]
  | .cut => [.stray]
  | .next key value rest => .comma :: .text key :: .colon :: (value.tokens ++ rest.tokens)

end

/-! ### The tree of a value -/

mutual

def Value.tree : Value → Tree
  | .null => .null
  | .bool b => .bool b
  | .number n => .number (.ofNat n)
  | .text s => .text (some s)
  | .list items => .list (itemTrees items)
  | .record entries => .record (entryTrees entries)

def itemTrees : List Value → Items
  | [] => .done
  | item :: rest => .next item.tree (itemTrees rest)

def entryTrees : List (String × Value) → Entries
  | [] => .done
  | (key, value) :: rest => .next (some key) value.tree (entryTrees rest)

end

/-! ### What the texts spell -/

def Blanks (text : List Char) : Prop := ∀ c ∈ text, isBlank c = true

theorem Spelled.blanks {tokens : List Token} {blanks text : List Char} (hblanks : Blanks blanks)
    (hrest : Spelled tokens text) : Spelled tokens (blanks ++ text) := by
  induction blanks with
  | nil => exact hrest
  | cons c others ih =>
      exact .blank (hblanks c List.mem_cons_self)
        (ih fun c hc => hblanks c (List.mem_cons_of_mem _ hc))

theorem Spelled.char {tokens : List Token} {text : List Char} {token : Token} {c : Char}
    (hword : token.word? = some [c]) (hrest : Spelled tokens text) :
    Spelled (token :: tokens) (c :: text) :=
  .word hword hrest

theorem Ends.blanks {blanks text : List Char} (hblanks : Blanks blanks) (hends : Ends text) :
    Ends (blanks ++ text) := by
  cases blanks with
  | nil => exact hends
  | cons c others =>
      have hc := hblanks c List.mem_cons_self
      simp only [isBlank, Bool.or_eq_true, beq_iff_eq] at hc
      rcases hc with ((rfl | rfl) | rfl) | rfl <;> simp [Ends, Scanner.isMark]

structure Spacing.Blank (spacing : Spacing) : Prop where
  gap : ∀ depth, Blanks (spacing.gap depth)
  space : Blanks spacing.space

theorem Spacing.blank_compact : compact.Blank := by
  constructor <;> simp [compact, Blanks]

theorem Spacing.blank_indented : indented.Blank := by
  constructor
  · intro depth c hc
    rcases List.mem_cons.mp hc with rfl | hc
    · decide
    · rw [List.eq_of_mem_replicate hc]
      decide
  · simp [indented, Blanks, isBlank]

section Chars

variable {spacing : Spacing}

theorem ends_itemChars (hblank : spacing.Blank) (depth : Nat) (items : List Value)
    (text : List Char) : Ends (itemChars spacing depth items ++ text) := by
  cases items with
  | nil =>
      rw [itemChars, List.append_assoc]
      exact .blanks (hblank.gap depth) (by simp [Ends, Scanner.isMark])
  | cons item rest => simp [itemChars, Ends, Scanner.isMark]

theorem ends_entryChars (hblank : spacing.Blank) (depth : Nat) (entries : List (String × Value))
    (text : List Char) : Ends (entryChars spacing depth entries ++ text) := by
  cases entries with
  | nil =>
      rw [entryChars, List.append_assoc]
      exact .blanks (hblank.gap depth) (by simp [Ends, Scanner.isMark])
  | cons entry rest => simp [entryChars, Ends, Scanner.isMark]

/-- A key, its colon and the blanks around them. -/
theorem Spelled.key (hblank : spacing.Blank) (depth : Nat) (key : String) {tokens : List Token}
    {text : List Char} (hrest : Spelled tokens text) :
    Spelled (.text (some key) :: .colon :: tokens)
      (spacing.gap depth ++ (quote key ++ ':' :: (spacing.space ++ text))) :=
  .blanks (hblank.gap depth) (.quoted key (.char rfl (.blanks hblank.space hrest)))

mutual

theorem spelled_chars (hblank : spacing.Blank) (depth : Nat) :
    ∀ (value : Value) {tokens : List Token} {text : List Char}, Spelled tokens text → Ends text →
      Spelled (value.tree.tokens ++ tokens) (value.chars spacing depth ++ text)
  | .null, _, _, hrest, _ => .word rfl hrest
  | .bool true, _, _, hrest, _ => .word rfl hrest
  | .bool false, _, _, hrest, _ => .word rfl hrest
  | .number n, _, _, hrest, hends => .natural n hends hrest
  | .text s, _, _, hrest, _ => .quoted s hrest
  | .list [], _, _, hrest, _ => .char rfl (.char rfl hrest)
  | .list (first :: rest), _, text, hrest, _ => by
    have hitems := spelled_itemChars hblank depth rest hrest
    have hends := ends_itemChars hblank depth rest text
    have hfirst := spelled_chars hblank (depth + 1) first hitems hends
    rw [Value.tree, itemTrees, Tree.tokens, Value.chars]
    simp only [List.cons_append, List.append_assoc]
    exact .char rfl (.blanks (hblank.gap _) hfirst)
  | .record [], _, _, hrest, _ => .char rfl (.char rfl hrest)
  | .record ((key, first) :: rest), _, text, hrest, _ => by
    have hentries := spelled_entryChars hblank depth rest hrest
    have hends := ends_entryChars hblank depth rest text
    have hfirst := spelled_chars hblank (depth + 1) first hentries hends
    rw [Value.tree, entryTrees, Tree.tokens, Value.chars]
    simp only [List.cons_append, List.append_assoc]
    exact .char rfl (.key hblank _ key hfirst)

theorem spelled_itemChars (hblank : spacing.Blank) (depth : Nat) :
    ∀ (items : List Value) {tokens : List Token} {text : List Char}, Spelled tokens text →
      Spelled ((itemTrees items).tokens ++ tokens) (itemChars spacing depth items ++ text)
  | [], _, _, hrest => by
    rw [itemChars, List.append_assoc]
    exact .blanks (hblank.gap depth) (.char rfl hrest)
  | item :: rest, _, text, hrest => by
    have hitems := spelled_itemChars hblank depth rest hrest
    have hends := ends_itemChars hblank depth rest text
    have hitem := spelled_chars hblank (depth + 1) item hitems hends
    rw [itemTrees, Items.tokens, itemChars]
    simp only [List.cons_append, List.append_assoc]
    exact .char rfl (.blanks (hblank.gap _) hitem)

theorem spelled_entryChars (hblank : spacing.Blank) (depth : Nat) :
    ∀ (entries : List (String × Value)) {tokens : List Token} {text : List Char},
      Spelled tokens text →
      Spelled ((entryTrees entries).tokens ++ tokens) (entryChars spacing depth entries ++ text)
  | [], _, _, hrest => by
    rw [entryChars, List.append_assoc]
    exact .blanks (hblank.gap depth) (.char rfl hrest)
  | (key, value) :: rest, _, text, hrest => by
    have hentries := spelled_entryChars hblank depth rest hrest
    have hends := ends_entryChars hblank depth rest text
    have hvalue := spelled_chars hblank (depth + 1) value hentries hends
    rw [entryTrees, Entries.tokens, entryChars]
    simp only [List.cons_append, List.append_assoc]
    exact .char rfl (.key hblank _ key hvalue)

end

theorem spelled_text (hblank : spacing.Blank) (depth : Nat) (value : Value) :
    Spelled value.tree.tokens (String.ofList (value.chars spacing depth)).toList := by
  have hspelled := spelled_chars hblank depth value .done (by simp [Ends])
  rw [List.append_nil, List.append_nil] at hspelled
  rwa [String.toList_ofList]

theorem Value.spelled_compact (value : Value) : Spelled value.tree.tokens value.compact.toList :=
  spelled_text Spacing.blank_compact 0 value

theorem Value.spelled_indented (value : Value) : Spelled value.tree.tokens value.indented.toList :=
  spelled_text Spacing.blank_indented 0 value

end Chars

/-! ### The tree of the tokens -/

namespace Growth

/-- The first item of a list is read like any value: it does not start with a closing bracket. -/
theorem foldl_firstItem {tree : Tree} (hwhole : tree.isWhole = true) (outer : List Frame)
    (rest : List Token) :
    (tree.tokens ++ rest).foldl step (.growing (.list [] :: outer) .firstItem) =
      (tree.tokens ++ rest).foldl step (.growing (.list [] :: outer) .value) := by
  cases tree with
  | list items => cases items <;> rfl
  | record entries => cases entries <;> rfl
  | missing => cases hwhole
  | _ => rfl

mutual

theorem foldl_tokens : ∀ (tree : Tree), tree.isWhole = true → ∀ frames : List Frame,
    tree.tokens.foldl step (.growing frames .value) = accept frames tree
  | .null, _, _ => rfl
  | .bool _, _, _ => rfl
  | .number _, _, _ => rfl
  | .text _, _, _ => rfl
  | .list .done, _, _ => rfl
  | .list (.next first rest), hwhole, frames => by
    obtain ⟨hfirst, hrest⟩ : first.isWhole = true ∧ rest.isWhole = true := by
      simpa [Tree.isWhole, Items.isWhole] using hwhole
    have hopen : step (.growing frames .value) .openBracket =
      .growing (.list [] :: frames) .firstItem := rfl
    rw [Tree.tokens, List.foldl_cons, hopen, foldl_firstItem hfirst, List.foldl_append,
      foldl_tokens first hfirst]
    exact foldl_itemTokens rest hrest [first] frames
  | .record .done, _, _ => rfl
  | .record (.next key first rest), hwhole, frames => by
    obtain ⟨hfirst, hrest⟩ : first.isWhole = true ∧ rest.isWhole = true := by
      simpa [Tree.isWhole, Entries.isWhole] using hwhole
    have hopen : step (step (step (.growing frames .value) .openBrace) (.text key)) .colon =
      .growing (.entry [] key :: frames) .value := rfl
    rw [Tree.tokens, List.foldl_cons, List.foldl_cons, List.foldl_cons, hopen, List.foldl_append,
      foldl_tokens first hfirst]
    exact foldl_entryTokens rest hrest [(key, first)] frames

theorem foldl_itemTokens : ∀ (items : Items), items.isWhole = true →
    ∀ (before : List Tree) (outer : List Frame),
    items.tokens.foldl step (.growing (.list before :: outer) .separator) =
      accept outer (.list (.prepend before items))
  | .done, _, _, _ => rfl
  | .next item rest, hwhole, before, outer => by
    obtain ⟨hitem, hrest⟩ : item.isWhole = true ∧ rest.isWhole = true := by
      simpa [Items.isWhole] using hwhole
    have hcomma : step (.growing (.list before :: outer) .separator) .comma =
      .growing (.list before :: outer) .value := rfl
    rw [Items.tokens, List.foldl_cons, hcomma, List.foldl_append, foldl_tokens item hitem]
    exact foldl_itemTokens rest hrest (item :: before) outer

theorem foldl_entryTokens : ∀ (entries : Entries), entries.isWhole = true →
    ∀ (before : List (Option String × Tree)) (outer : List Frame),
    entries.tokens.foldl step (.growing (.record before :: outer) .separator) =
      accept outer (.record (.prepend before entries))
  | .done, _, _, _ => rfl
  | .next key value rest, hwhole, before, outer => by
    obtain ⟨hvalue, hrest⟩ : value.isWhole = true ∧ rest.isWhole = true := by
      simpa [Entries.isWhole] using hwhole
    have hcomma : step (step (step (.growing (.record before :: outer) .separator) .comma)
      (.text key)) .colon = .growing (.entry before key :: outer) .value := rfl
    rw [Entries.tokens, List.foldl_cons, List.foldl_cons, List.foldl_cons, hcomma,
      List.foldl_append, foldl_tokens value hvalue]
    exact foldl_entryTokens rest hrest ((key, value) :: before) outer

end

end Growth

/-! ### Documents -/

mutual

theorem Value.isWhole_tree : ∀ value : Value, value.tree.isWhole = true
  | .null => rfl
  | .bool _ => rfl
  | .number _ => rfl
  | .text _ => rfl
  | .list items => isWhole_itemTrees items
  | .record entries => isWhole_entryTrees entries

theorem isWhole_itemTrees : ∀ items : List Value, (itemTrees items).isWhole = true
  | [] => rfl
  | item :: rest => by
    rw [itemTrees, Items.isWhole, item.isWhole_tree, isWhole_itemTrees rest, Bool.and_self]

theorem isWhole_entryTrees : ∀ entries : List (String × Value), (entryTrees entries).isWhole = true
  | [] => rfl
  | (_, value) :: rest => by
    rw [entryTrees, Entries.isWhole, value.isWhole_tree, isWhole_entryTrees rest, Bool.and_self]

end

namespace Document

theorem read_spelled {tree : Tree} (hwhole : tree.isWhole = true) {text : String}
    (hspelled : Spelled tree.tokens text.toList) : read text = ⟨tree, false⟩ := by
  rw [read, hspelled.scan_eq, ofTokens, Growth.foldl_tokens tree hwhole]
  rfl

theorem read_compact (value : Value) : read value.compact = ⟨value.tree, false⟩ :=
  read_spelled value.isWhole_tree value.spelled_compact

theorem read_indented (value : Value) : read value.indented = ⟨value.tree, false⟩ :=
  read_spelled value.isWhole_tree value.spelled_indented

end Document

end ClassLayout.Json
