import ClassLayout.Json.Token

/-!
# Trees of a JSON text

A tree is a JSON text as far as it can be read. A list or record that is closed ends in `done`; one
inside which the text goes wrong, or ends, holds what was read before that place and ends in `cut`.
Whoever walks a tree in order therefore meets the fault of the text exactly where the text has it,
and may find another reason to refuse the text before that.
-/

namespace ClassLayout.Json

mutual

/-- A value as far as it can be read; `missing` stands where no value can be read at all. -/
inductive Tree
  | null
  | bool (value : Bool)
  | number (value : Numeral)
  | text (value : Option String)
  | list (items : Items)
  | record (entries : Entries)
  | missing

inductive Items
  | done
  | cut
  | next (head : Tree) (tail : Items)

inductive Entries
  | done
  | cut
  | next (key : Option String) (value : Tree) (tail : Entries)

end

namespace Items

/-- The items given last first, in front of `tail`. -/
def prepend (reversed : List Tree) (tail : Items) : Items :=
  reversed.foldl (fun items item => .next item items) tail

def length : Items → Nat
  | .done => 0
  | .cut => 0
  | .next _ tail => tail.length + 1

end Items

namespace Entries

def prepend (reversed : List (Option String × Tree)) (tail : Entries) : Entries :=
  reversed.foldl (fun entries entry => .next entry.1 entry.2 entries) tail

end Entries

mutual

/-- Nothing in the tree is missing or cut: the text it was read from is well formed there. -/
def Tree.isWhole : Tree → Bool
  | .list items => items.isWhole
  | .record entries => entries.isWhole
  | .missing => false
  | _ => true

def Items.isWhole : Items → Bool
  | .done => true
  | .cut => false
  | .next head tail => head.isWhole && tail.isWhole

def Entries.isWhole : Entries → Bool
  | .done => true
  | .cut => false
  | .next _ value tail => value.isWhole && tail.isWhole

end

mutual

/-- The tree is whole, every string in it is a text, every number a value, and at most `room`
containers are open at once. -/
def Tree.isPlain (room : Nat) : Tree → Bool
  | .null => true
  | .bool _ => true
  | .number n => n.value?.isSome
  | .text s => s.isSome
  | .list items => 0 < room && items.isPlain (room - 1)
  | .record entries => 0 < room && entries.isPlain (room - 1)
  | .missing => false

def Items.isPlain (room : Nat) : Items → Bool
  | .done => true
  | .cut => false
  | .next head tail => head.isPlain room && tail.isPlain room

def Entries.isPlain (room : Nat) : Entries → Bool
  | .done => true
  | .cut => false
  | .next key value tail => key.isSome && value.isPlain room && tail.isPlain room

end

/-- A container part way through, its contents last first. -/
inductive Frame
  | list (items : List Tree)
  | record (entries : List (Option String × Tree))
  | entry (entries : List (Option String × Tree)) (key : Option String)

/-- What may come next in the innermost open container. -/
inductive Expecting
  | value
  | firstItem
  | firstKey
  | key
  | colon
  | separator
deriving DecidableEq, Repr

inductive Growth
  | growing (frames : List Frame) (expecting : Expecting)
  | grown (root : Tree)
  | overgrown (root : Tree)
  | broken (root : Tree)

namespace Growth

/-- A value has been read in full. -/
def accept (frames : List Frame) (value : Tree) : Growth :=
  match frames with
  | [] => .grown value
  | .list items :: outer => .growing (.list (value :: items) :: outer) .separator
  | .entry entries key :: outer => .growing (.record ((key, value) :: entries) :: outer) .separator
  | .record entries :: outer => .growing (.record entries :: outer) .separator

/-- The tree when the text goes wrong inside the given containers, the innermost of which has read
`inner` as its last value. -/
def cutOff : List Frame → Option Tree → Tree
  | [], inner => inner.getD .missing
  | .list items :: outer, inner =>
    cutOff outer (some (.list (.prepend (inner.toList ++ items) .cut)))
  | .record entries :: outer, _ => cutOff outer (some (.record (.prepend entries .cut)))
  | .entry entries key :: outer, inner =>
    cutOff outer (some (.record (.prepend ((key, inner.getD .missing) :: entries) .cut)))

def fail (frames : List Frame) : Growth := .broken (cutOff frames none)

/-- A token where a value may stand. -/
def value (frames : List Frame) : Token → Growth
  | .null => accept frames .null
  | .bool b => accept frames (.bool b)
  | .number n => accept frames (.number n)
  | .text s => accept frames (.text s)
  | .openBracket => .growing (.list [] :: frames) .firstItem
  | .openBrace => .growing (.record [] :: frames) .firstKey
  | _ => fail frames

def step : Growth → Token → Growth
  | .growing frames .value, token => value frames token
  | .growing frames .firstItem, token =>
    match frames, token with
    | .list items :: outer, .closeBracket => accept outer (.list (.prepend items .done))
    | frames, token => value frames token
  | .growing frames .firstKey, token =>
    match frames, token with
    | .record entries :: outer, .closeBrace => accept outer (.record (.prepend entries .done))
    | .record entries :: outer, .text key => .growing (.entry entries key :: outer) .colon
    | frames, _ => fail frames
  | .growing frames .key, token =>
    match frames, token with
    | .record entries :: outer, .text key => .growing (.entry entries key :: outer) .colon
    | frames, _ => fail frames
  | .growing frames .colon, token =>
    match token with
    | .colon => .growing frames .value
    | _ => fail frames
  | .growing frames .separator, token =>
    match frames, token with
    | .list items :: outer, .comma => .growing (.list items :: outer) .value
    | .list items :: outer, .closeBracket => accept outer (.list (.prepend items .done))
    | .record entries :: outer, .comma => .growing (.record entries :: outer) .key
    | .record entries :: outer, .closeBrace => accept outer (.record (.prepend entries .done))
    | frames, _ => fail frames
  | .grown root, _ => .overgrown root
  | .overgrown root, _ => .overgrown root
  | .broken root, _ => .broken root

end Growth

/-- What a text holds: its first value, as far as it can be read, and whether anything but blanks
follows that value. -/
structure Document where
  root : Tree
  surplus : Bool

namespace Document

def ofGrowth : Growth → Document
  | .growing frames _ => ⟨Growth.cutOff frames none, false⟩
  | .grown root => ⟨root, false⟩
  | .overgrown root => ⟨root, true⟩
  | .broken root => ⟨root, false⟩

def ofTokens (tokens : List Token) : Document :=
  ofGrowth (tokens.foldl Growth.step (.growing [] .value))

def read (text : String) : Document := ofTokens (Token.scan text.toList)

end Document

end ClassLayout.Json
