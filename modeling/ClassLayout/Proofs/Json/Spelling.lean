import ClassLayout.Json.Token
import ClassLayout.Json.Value
import Mathlib.Data.List.Basic
import Mathlib.Tactic.Common
import Mathlib.Tactic.IntervalCases

/-!
# Spelled tokens

A text spells tokens when it consists of their words, with blanks between them as one likes. A
string may be written with any escapes that stand for its characters, and a number with a fraction
and an exponent. The one thing to heed is that a number must not run into what follows. The scanner
finds the tokens that a text spells (`Spelled.scan_eq`), so a text is understood once it is known
what it spells, whoever wrote it.
-/

namespace ClassLayout.Json

/-! ### Numbers as written -/

/-- The number that digits stand for, when they are appended to those of `start`. -/
def appendDigits (start : Nat) (digits : List Nat) : Nat := digits.foldl (10 * · + ·) start

/-- The digits of a whole number: no zero stands before others. -/
structure WholeDigits (digits : List Nat) : Prop where
  ne_nil : digits ≠ []
  lt_ten : ∀ d ∈ digits, d < 10
  no_zero : digits.head? = some 0 → digits = [0]

/-- A fraction as written; without digits there is no point either. -/
def fractionChars (digits : List Nat) : List Char :=
  if digits = [] then [] else '.' :: digits.map Nat.digitChar

/-- The sign of an exponent as written: a plus may be left out. -/
inductive SignSpelled : Bool → List Char → Prop
  | none : SignSpelled false []
  | plus : SignSpelled false ['+']
  | minus : SignSpelled true ['-']

/-- An exponent as written; zeros may stand before its other digits. -/
inductive ExponentSpelled : Option Int → List Char → Prop
  | absent : ExponentSpelled none []
  | present {mark : Char} {down : Bool} {sign : List Char} {digits : List Nat}
      (hmark : mark = 'e' ∨ mark = 'E') (hsign : SignSpelled down sign) (hne : digits ≠ [])
      (hdigits : ∀ d ∈ digits, d < 10) :
      ExponentSpelled (some (if down then -appendDigits 0 digits else appendDigits 0 digits))
        (mark :: (sign ++ digits.map Nat.digitChar))

inductive Numeral.Spelled : Numeral → List Char → Prop
  | mk (negative : Bool) {whole fraction : List Nat} {exponent : Option Int} {text : List Char}
      (hwhole : WholeDigits whole) (hfraction : ∀ d ∈ fraction, d < 10)
      (hexponent : ExponentSpelled exponent text) :
      Spelled ⟨negative, whole, fraction, exponent⟩
        ((if negative then ['-'] else []) ++ whole.map Nat.digitChar ++ fractionChars fraction ++
          text)

def Numeral.ofNat (n : Nat) : Numeral :=
  ⟨false, (Nat.toDigits 10 n).map fun c => c.toNat - '0'.toNat, [], none⟩

/-! ### Strings as written -/

/-- The escapes of one letter, each with the character that it stands for. -/
def shortEscapes : List (Char × Char) :=
  [('"', '"'), ('\\', '\\'), ('/', '/'), ('b', '\x08'), ('f', '\x0c'), ('n', '\n'), ('r', '\r'),
    ('t', '\t')]

inductive UnitSpelled : Nat → List Char → Prop
  | mk {a b c d : Char} {w x y z : Nat} (ha : hexDigit? a = some w) (hb : hexDigit? b = some x)
      (hc : hexDigit? c = some y) (hd : hexDigit? d = some z) :
      UnitSpelled (16 * (16 * (16 * w + x) + y) + z) [a, b, c, d]

/-- Characters and what may stand for them between quotes. -/
inductive StringSpelled : List Char → List Char → Prop
  | done : StringSpelled [] []
  | plain {c : Char} {s text : List Char} (hquote : c ≠ '"') (hslash : c ≠ '\\')
      (hcontrol : 0x20 ≤ c.toNat) (hrest : StringSpelled s text) :
      StringSpelled (c :: s) (c :: text)
  | short {letter c : Char} {s text : List Char} (hletter : (letter, c) ∈ shortEscapes)
      (hrest : StringSpelled s text) : StringSpelled (c :: s) ('\\' :: letter :: text)
  | unit {c : Char} {s digits text : List Char} (hunit : UnitSpelled c.toNat digits)
      (hrest : StringSpelled s text) : StringSpelled (c :: s) ('\\' :: 'u' :: (digits ++ text))
  | pair {c : Char} {high low : Nat} {s first second text : List Char}
      (hfirst : UnitSpelled high first) (hsecond : UnitSpelled low second)
      (hhigh : 0xD800 ≤ high ∧ high < 0xDC00) (hlow : 0xDC00 ≤ low ∧ low < 0xE000)
      (hc : c.toNat = 0x10000 + (high - 0xD800) * 0x400 + (low - 0xDC00))
      (hrest : StringSpelled s text) :
      StringSpelled (c :: s) ('\\' :: 'u' :: (first ++ '\\' :: 'u' :: (second ++ text)))

/-! ### Texts -/

def Ends (text : List Char) : Prop :=
  ∀ c ∈ text.head?, c.isDigit = false ∧ c ≠ '.' ∧ Scanner.isMark c = false

def Token.word? : Token → Option (List Char)
  | .openBrace => some ['{']
  | .closeBrace => some ['}']
  | .openBracket => some ['[']
  | .closeBracket => some [']']
  | .comma => some [',']
  | .colon => some [':']
  | .null => some ['n', 'u', 'l', 'l']
  | .bool true => some ['t', 'r', 'u', 'e']
  | .bool false => some ['f', 'a', 'l', 's', 'e']
  | .number _ | .text _ | .stray => none

/-- The text consists of the words of the tokens and of blanks between them. -/
inductive Spelled : List Token → List Char → Prop
  | done : Spelled [] []
  | blank {c : Char} {tokens : List Token} {text : List Char} (hblank : isBlank c = true)
      (hrest : Spelled tokens text) : Spelled tokens (c :: text)
  | word {token : Token} {word : List Char} {tokens : List Token} {text : List Char}
      (hword : token.word? = some word) (hrest : Spelled tokens text) :
      Spelled (token :: tokens) (word ++ text)
  | string {s : String} {chars : List Char} {tokens : List Token} {text : List Char}
      (hstring : StringSpelled s.toList chars) (hrest : Spelled tokens text) :
      Spelled (.text (some s) :: tokens) ('"' :: (chars ++ '"' :: text))
  | number {n : Numeral} {chars : List Char} {tokens : List Token} {text : List Char}
      (hnumber : n.Spelled chars) (hends : Ends text) (hrest : Spelled tokens text) :
      Spelled (.number n :: tokens) (chars ++ text)

/-! ### The scanner on a number -/

namespace Scanner

variable {tokens : List Token} {text : List Char}

theorem digit?_digitChar {d : Nat} (hd : d < 10) : digit? d.digitChar = some d := by
  interval_cases d <;> rfl

theorem foldl_digits {α : Type} (state : α → Scan) (add : α → Nat → α)
    (hstep : ∀ a c d, digit? c = some d → step ⟨tokens, state a⟩ c = ⟨tokens, state (add a d)⟩)
    {digits : List Nat} (hdigits : ∀ d ∈ digits, d < 10) (a : α) :
    (digits.map Nat.digitChar).foldl step ⟨tokens, state a⟩ =
      ⟨tokens, state (digits.foldl add a)⟩ := by
  induction digits generalizing a with
  | nil => rfl
  | cons d rest ih =>
      rw [List.map_cons, List.foldl_cons,
        hstep a _ d (digit?_digitChar (hdigits d List.mem_cons_self))]
      exact ih (fun d hd => hdigits d (List.mem_cons_of_mem _ hd)) _

theorem foldl_whole (negative : Bool) {whole : List Nat} (hwhole : WholeDigits whole) :
    ∃ scan, ((if negative then ['-'] else []) ++ whole.map Nat.digitChar).foldl step
        ⟨tokens, .between⟩ = ⟨tokens, scan⟩ ∧
      (scan = .zero negative ∧ whole = [0] ∨ scan = .whole negative whole.reverse) := by
  obtain ⟨d, rest, rfl⟩ := List.exists_cons_of_ne_nil hwhole.ne_nil
  have hd : d < 10 := hwhole.lt_ten d List.mem_cons_self
  rcases Nat.eq_zero_or_pos d with rfl | hpos
  · obtain rfl : rest = [] := by simpa using hwhole.no_zero rfl
    refine ⟨.zero negative, ?_, .inl ⟨rfl, rfl⟩⟩
    cases negative <;> rfl
  · have hfirst : ((if negative then ['-'] else []) ++ [d.digitChar]).foldl step
        ⟨tokens, .between⟩ = ⟨tokens, .whole negative [d]⟩ := by
      cases negative <;> interval_cases d <;> rfl
    refine ⟨.whole negative (d :: rest).reverse, ?_, .inr rfl⟩
    rw [List.map_cons, List.append_cons, List.foldl_append, hfirst,
      foldl_digits (.whole negative) (fun done d => d :: done) (fun _ _ _ hc => by simp [step, hc])
        fun d hd => hwhole.lt_ten d (List.mem_cons_of_mem _ hd)]
    simp

/-- The machine has read a numeral as far as its fraction. -/
def Pauses (scan : Scan) (negative : Bool) (whole fraction : List Nat) : Prop :=
  scan = .zero negative ∧ whole = [0] ∧ fraction = [] ∨
    scan = .whole negative whole.reverse ∧ fraction = [] ∨
    scan = .fraction negative whole.reverse fraction.reverse

theorem foldl_fraction {scan : Scan} {negative : Bool} {whole fraction : List Nat}
    (hscan : scan = .zero negative ∧ whole = [0] ∨ scan = .whole negative whole.reverse)
    (hfraction : ∀ d ∈ fraction, d < 10) :
    ∃ next, (fractionChars fraction).foldl step ⟨tokens, scan⟩ = ⟨tokens, next⟩ ∧
      Pauses next negative whole fraction := by
  cases fraction with
  | nil =>
      refine ⟨scan, rfl, ?_⟩
      rcases hscan with ⟨rfl, rfl⟩ | rfl
      · exact .inl ⟨rfl, rfl, rfl⟩
      · exact .inr (.inl ⟨rfl, rfl⟩)
  | cons d rest =>
      have hd := digit?_digitChar (hfraction d List.mem_cons_self)
      have hpoint : step ⟨tokens, scan⟩ '.' = ⟨tokens, .point negative whole.reverse⟩ := by
        rcases hscan with ⟨rfl, rfl⟩ | rfl <;> rfl
      have hfirst : step ⟨tokens, .point negative whole.reverse⟩ d.digitChar =
          ⟨tokens, .fraction negative whole.reverse [d]⟩ := by
        simp [step, hd]
      refine ⟨.fraction negative whole.reverse (d :: rest).reverse, ?_, .inr (.inr rfl)⟩
      rw [fractionChars, if_neg (by simp), List.foldl_cons, hpoint, List.map_cons, List.foldl_cons,
        hfirst, foldl_digits (.fraction negative whole.reverse) (fun done d => d :: done)
          (fun _ _ _ hc => by simp [step, hc])
          fun d hd => hfraction d (List.mem_cons_of_mem _ hd)]
      simp

theorem foldl_exponent {scan : Scan} {negative : Bool} {whole fraction : List Nat}
    {exponent : Option Int} (hscan : Pauses scan negative whole fraction)
    (hexponent : ExponentSpelled exponent text) :
    ∃ next, text.foldl step ⟨tokens, scan⟩ = ⟨tokens, next⟩ ∧
      numeral? next = some ⟨negative, whole, fraction, exponent⟩ := by
  have hmark {mark : Char} (hmark : mark = 'e' ∨ mark = 'E') :
      step ⟨tokens, scan⟩ mark = ⟨tokens, .mark negative whole.reverse fraction.reverse⟩ := by
    rcases hscan with ⟨rfl, rfl, rfl⟩ | ⟨rfl, rfl⟩ | rfl <;> rcases hmark with rfl | rfl <;> rfl
  cases hexponent with
  | absent =>
      refine ⟨scan, rfl, ?_⟩
      rcases hscan with ⟨rfl, rfl, rfl⟩ | ⟨rfl, rfl⟩ | rfl <;> simp [numeral?]
  | @present mark down sign digits hletter hsign hne hdigits =>
      refine ⟨.exponent negative whole.reverse fraction.reverse down (appendDigits 0 digits), ?_,
        ?_⟩
      · obtain ⟨d, rest, rfl⟩ := List.exists_cons_of_ne_nil hne
        have hd : d < 10 := hdigits d List.mem_cons_self
        have hfirst : (sign ++ [d.digitChar]).foldl step
            ⟨tokens, .mark negative whole.reverse fraction.reverse⟩ =
            ⟨tokens, .exponent negative whole.reverse fraction.reverse down d⟩ := by
          cases hsign <;> interval_cases d <;> rfl
        rw [List.foldl_cons, hmark hletter, List.map_cons, List.append_cons, List.foldl_append,
          hfirst, foldl_digits (.exponent negative whole.reverse fraction.reverse down)
            (10 * · + ·) (fun _ _ _ hc => by simp [step, hc])
            fun d hd => hdigits d (List.mem_cons_of_mem _ hd)]
        simp [appendDigits]
      · simp [numeral?]

theorem finish_foldl_numeral {scan : Scan} {n : Numeral} (hscan : numeral? scan = some n)
    (hends : Ends text) :
    (text.foldl step ⟨tokens, scan⟩).finish =
      (text.foldl step ⟨.number n :: tokens, .between⟩).finish := by
  cases text with
  | nil => cases scan <;> simp_all [numeral?, finish]
  | cons c rest =>
      obtain ⟨hdigit, hpoint, hmark⟩ := hends c (by simp)
      have hstep : step ⟨tokens, scan⟩ c = step ⟨.number n :: tokens, .between⟩ c := by
        cases scan <;> simp_all [step, digit?, endNumeral, numeral?]
      rw [List.foldl_cons, List.foldl_cons, hstep]

theorem finish_foldl_number {n : Numeral} {chars : List Char} (hnumber : n.Spelled chars)
    (hends : Ends text) :
    ((chars ++ text).foldl step ⟨tokens, .between⟩).finish =
      (text.foldl step ⟨.number n :: tokens, .between⟩).finish := by
  cases hnumber with
  | mk negative hwhole hfraction hexponent =>
      obtain ⟨first, hfirst, hscan⟩ := foldl_whole negative hwhole
      obtain ⟨second, hsecond, hpauses⟩ := foldl_fraction hscan hfraction
      obtain ⟨last, hlast, hnumeral⟩ := foldl_exponent hpauses hexponent
      rw [List.foldl_append, List.foldl_append, List.foldl_append, hfirst, hsecond, hlast]
      exact finish_foldl_numeral hnumeral hends

end Scanner

/-! ### The scanner on a string -/

theorem Piece.ofUnit_toNat (c : Char) : ofUnit c.toNat = .char c := by
  have hvalid : c.toNat < 0xD800 ∨ 0xDFFF < c.toNat ∧ c.toNat < 0x110000 := c.valid
  rw [ofUnit, if_neg (by omega), Char.ofNat_toNat]

namespace Scanner

variable {tokens : List Token} {pieces : List Piece}

theorem foldl_unit {unit : Nat} {digits : List Char} (hunit : UnitSpelled unit digits) :
    ('\\' :: 'u' :: digits).foldl step ⟨tokens, .string pieces⟩ =
      ⟨tokens, .string (.ofUnit unit :: pieces)⟩ := by
  cases hunit with
  | mk ha hb hc hd => simp [step, ha, hb, hc, hd]

/-- The pieces that are read make up the characters, after those of the pieces before them. -/
theorem exists_foldl_string (tokens : List Token) {s text : List Char}
    (hstring : StringSpelled s text) (pieces : List Piece) :
    ∃ more, text.foldl step ⟨tokens, .string pieces⟩ = ⟨tokens, .string more⟩ ∧
      ∀ tail, Piece.join? more tail = Piece.join? pieces (s ++ tail) := by
  induction hstring generalizing pieces with
  | done => exact ⟨pieces, rfl, fun tail => rfl⟩
  | @plain c s text hquote hslash hcontrol _ ih =>
      obtain ⟨more, hmore, hjoin⟩ := ih (.char c :: pieces)
      refine ⟨more, ?_, fun tail => by rw [hjoin]; rfl⟩
      rw [List.foldl_cons, ← hmore]
      simp [step, hquote, hslash, Nat.not_lt.mpr hcontrol]
  | @short letter c s text hletter _ ih =>
      obtain ⟨more, hmore, hjoin⟩ := ih (.char c :: pieces)
      refine ⟨more, ?_, fun tail => by rw [hjoin]; rfl⟩
      have hstep : step (step ⟨tokens, .string pieces⟩ '\\') letter =
          ⟨tokens, .string (.char c :: pieces)⟩ := by
        simp only [shortEscapes, List.mem_cons, Prod.mk.injEq, List.not_mem_nil,
          or_false] at hletter
        rcases hletter with ⟨rfl, rfl⟩ | ⟨rfl, rfl⟩ | ⟨rfl, rfl⟩ | ⟨rfl, rfl⟩ | ⟨rfl, rfl⟩ |
          ⟨rfl, rfl⟩ | ⟨rfl, rfl⟩ | ⟨rfl, rfl⟩ <;> rfl
      rw [List.foldl_cons, List.foldl_cons, hstep, hmore]
  | @unit c s digits text hunit _ ih =>
      obtain ⟨more, hmore, hjoin⟩ := ih (.char c :: pieces)
      refine ⟨more, ?_, fun tail => by rw [hjoin]; rfl⟩
      rw [← List.cons_append, ← List.cons_append, List.foldl_append, foldl_unit hunit,
        Piece.ofUnit_toNat, hmore]
  | @pair c high low s first second text hfirst hsecond hhigh hlow hc _ ih =>
      obtain ⟨more, hmore, hjoin⟩ := ih (.half low :: .half high :: pieces)
      have hpair : Piece.pair? high low = some c := by
        rw [Piece.pair?, if_pos ⟨hhigh.2, hlow.1⟩, ← hc, Char.ofNat_toNat]
      refine ⟨more, ?_, fun tail => by rw [hjoin, Piece.join?, hpair]; rfl⟩
      rw [← List.cons_append, ← List.cons_append, List.foldl_append, foldl_unit hfirst,
        ← List.cons_append, ← List.cons_append, List.foldl_append, foldl_unit hsecond, ← hmore,
        Piece.ofUnit, if_pos ⟨by omega, by omega⟩, Piece.ofUnit, if_pos ⟨by omega, by omega⟩]

theorem foldl_string {s : String} {chars : List Char} (hstring : StringSpelled s.toList chars) :
    ('"' :: (chars ++ ['"'])).foldl step ⟨tokens, .between⟩ =
      ⟨.text (some s) :: tokens, .between⟩ := by
  obtain ⟨pieces, hpieces, hjoin⟩ := exists_foldl_string tokens hstring []
  have hopen : step ⟨tokens, .between⟩ '"' = ⟨tokens, .string []⟩ := rfl
  have hclose : step ⟨tokens, .string pieces⟩ '"' =
      ⟨.text ((Piece.join? pieces []).map String.ofList) :: tokens, .between⟩ := rfl
  rw [List.foldl_cons, hopen, List.foldl_append, hpieces, List.foldl_cons, List.foldl_nil, hclose,
    hjoin, List.append_nil, Piece.join?, Option.map_some, String.ofList_toList]

theorem foldl_word (tokens : List Token) {token : Token} {word : List Char}
    (hword : token.word? = some word) :
    word.foldl step ⟨tokens, .between⟩ = ⟨token :: tokens, .between⟩ := by
  cases token with
  | bool value =>
      cases value <;>
      · obtain rfl := Option.some.inj hword
        rfl
  | number | text | stray => cases hword
  | openBrace | closeBrace | openBracket | closeBracket | comma | colon | null =>
      obtain rfl := Option.some.inj hword
      rfl

end Scanner

/-! ### The scanner on a text -/

namespace Spelled

theorem finish_foldl {tokens : List Token} {text : List Char} (hspelled : Spelled tokens text)
    (before : List Token) :
    (text.foldl Scanner.step ⟨before, .between⟩).finish = before.reverse ++ tokens := by
  induction hspelled generalizing before with
  | done => simp [Scanner.finish]
  | @blank c tokens text hblank _ ih =>
      have hstep : Scanner.step ⟨before, .between⟩ c = ⟨before, .between⟩ := by
        simp [Scanner.step, Scanner.start, hblank]
      rw [List.foldl_cons, hstep, ih]
  | word hword _ ih =>
      rw [List.foldl_append, Scanner.foldl_word before hword, ih]
      simp
  | string hstring _ ih =>
      rw [List.append_cons, ← List.cons_append, List.foldl_append, Scanner.foldl_string hstring, ih]
      simp
  | number hnumber hends _ ih =>
      rw [Scanner.finish_foldl_number hnumber hends, ih]
      simp

/-- The scanner finds the tokens that a text spells. -/
theorem scan_eq {tokens : List Token} {text : List Char} (hspelled : Spelled tokens text) :
    Token.scan text = tokens := by
  rw [Token.scan, hspelled.finish_foldl, List.reverse_nil, List.nil_append]

end Spelled

/-! ### Quoted texts and natural numbers -/

theorem hexDigit?_hexDigit : ∀ n < 16, hexDigit? (hexDigit n) = some n := by decide

theorem StringSpelled.escape {s text : List Char} (c : Char) (hrest : StringSpelled s text) :
    StringSpelled (c :: s) (escape c ++ text) := by
  unfold Json.escape
  split_ifs with hquote hslash hback hfeed hline hreturn htab hcontrol
  · exact .short (by simp [shortEscapes, hquote]) hrest
  · exact .short (by simp [shortEscapes, hslash]) hrest
  · exact .short (by simp [shortEscapes, hback]) hrest
  · exact .short (by simp [shortEscapes, hfeed]) hrest
  · exact .short (by simp [shortEscapes, hline]) hrest
  · exact .short (by simp [shortEscapes, hreturn]) hrest
  · exact .short (by simp [shortEscapes, htab]) hrest
  · have hzero : hexDigit? '0' = some 0 := by decide
    have hunit := UnitSpelled.mk hzero hzero (hexDigit?_hexDigit (c.toNat / 16) (by omega))
      (hexDigit?_hexDigit (c.toNat % 16) (by omega))
    have hvalue : 16 * (16 * (16 * 0 + 0) + c.toNat / 16) + c.toNat % 16 = c.toNat := by omega
    rw [hvalue] at hunit
    exact .unit hunit hrest
  · exact .plain hquote hslash (by omega) hrest

theorem stringSpelled_escapes (s : List Char) : StringSpelled s (s.flatMap escape) := by
  induction s with
  | nil => exact .done
  | cons c rest ih => exact .escape c ih

theorem Spelled.quoted (s : String) {tokens : List Token} {text : List Char}
    (hrest : Spelled tokens text) : Spelled (.text (some s) :: tokens) (quote s ++ text) := by
  have hspelled := Spelled.string (stringSpelled_escapes s.toList) hrest
  simpa [quote] using hspelled

private theorem exists_toDigits_eq_cons {n : Nat} (hn : 0 < n) :
    ∃ c rest, Nat.toDigits 10 n = c :: rest ∧ c ≠ '0' := by
  induction n using Nat.strongRecOn with
  | ind n ih =>
    by_cases hsmall : n < 10
    · refine ⟨n.digitChar, [], Nat.toDigits_of_lt_base hsmall, ?_⟩
      rw [Ne, Nat.digitChar_eq_zero]
      omega
    · obtain ⟨c, rest, heq, hc⟩ := ih (n / 10) (by omega) (by omega)
      refine ⟨c, rest ++ [(n % 10).digitChar], ?_, hc⟩
      rw [Nat.toDigits_of_base_le (by omega) (by omega), heq, List.cons_append]

private theorem digitChar_sub {c : Char} (hdigit : c.isDigit = true) :
    c.toNat - '0'.toNat < 10 ∧ (c.toNat - '0'.toNat).digitChar = c := by
  obtain ⟨hlow, hhigh⟩ : 48 ≤ c.toNat ∧ c.toNat ≤ 57 := by
    simpa [Char.isDigit, UInt32.le_iff_toNat_le] using hdigit
  have hzero : '0'.toNat = 48 := rfl
  refine ⟨by omega, Char.toNat_inj.mp ?_⟩
  rw [Nat.toNat_digitChar_of_lt_ten (by omega)]
  omega

theorem wholeDigits_ofNat (n : Nat) : WholeDigits (Numeral.ofNat n).whole := by
  have hdigit {c : Char} (hc : c ∈ Nat.toDigits 10 n) : c.isDigit = true :=
    Nat.isDigit_of_mem_toDigits (by omega) (by omega) hc
  refine ⟨by simp [Numeral.ofNat, Nat.toDigits_ne_nil], ?_, ?_⟩
  · intro d hd
    obtain ⟨c, hc, rfl⟩ := List.mem_map.mp hd
    exact (digitChar_sub (hdigit hc)).1
  · intro hhead
    rcases Nat.eq_zero_or_pos n with rfl | hn
    · rfl
    · obtain ⟨c, rest, heq, hc⟩ := exists_toDigits_eq_cons hn
      have hchar := (digitChar_sub (hdigit (heq ▸ List.mem_cons_self))).2
      have hzero : c.toNat - '0'.toNat = 0 := by simpa [Numeral.ofNat, heq] using hhead
      rw [hzero] at hchar
      exact absurd hchar.symm hc

theorem Numeral.spelled_ofNat (n : Nat) : (ofNat n).Spelled (Nat.toDigits 10 n) := by
  have hchars : (ofNat n).whole.map Nat.digitChar = Nat.toDigits 10 n := by
    rw [ofNat, List.map_map]
    refine (List.map_congr_left fun c hc => ?_).trans (List.map_id _)
    exact (digitChar_sub (Nat.isDigit_of_mem_toDigits (by omega) (by omega) hc)).2
  have hspelled : (ofNat n).Spelled
      ([] ++ (ofNat n).whole.map Nat.digitChar ++ fractionChars [] ++ []) :=
    .mk false (wholeDigits_ofNat n) (by simp) .absent
  rw [hchars] at hspelled
  simpa [fractionChars] using hspelled

theorem Spelled.natural (n : Nat) {tokens : List Token} {text : List Char} (hends : Ends text)
    (hrest : Spelled tokens text) :
    Spelled (.number (.ofNat n) :: tokens) (Nat.toDigits 10 n ++ text) :=
  .number (Numeral.spelled_ofNat n) hends hrest

end ClassLayout.Json
