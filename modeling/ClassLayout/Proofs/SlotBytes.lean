import ClassLayout.Roots
import Mathlib.Data.List.Basic
import Mathlib.Tactic.MkIffOfInductiveProp
import Mathlib.Tactic.SplitIfs

/-!
# Slots in a row of bytes

The parts of a slot stand in a row without lengths and without marks between them. Who reads them back
can only go by the character after a part: the tag after a name, the parenthesis after a result, a
comma or a parenthesis after a parameter, a colon after the name of a class. Where no name contains
the character that ends it (`Slot.Legible`) the bytes of a slot tell what the slot is and where it
ends (`Slot.Legible.bytes_inj`).
-/

namespace ClassLayout

/-! ### Texts in a row of bytes -/

theorem utf8_append (one other : String) : utf8 (one ++ other) = utf8 one ++ utf8 other := by
  rw [utf8, String.toList_append, List.flatMap_append, utf8, utf8]

theorem utf8_injective {one other : String} (heq : utf8 one = utf8 other) : one = other := by
  rw [← String.ofList_toList (s := one), ← String.ofList_toList (s := other),
    ← String.toByteArray_inj, String.toByteArray_ofList, String.toByteArray_ofList]
  exact congrArg List.toByteArray heq

/-- A byte below 128 stands for the character of that code, and for no part of another. -/
private theorem toNat_of_mem_utf8EncodeChar {c : Char} {byte : UInt8}
    (hbyte : byte ∈ String.utf8EncodeChar c) (hascii : byte.toNat < 128) :
    byte.toNat = c.toNat := by
  change _ = c.val.toNat
  unfold String.utf8EncodeChar at hbyte
  generalize c.val.toNat = value at hbyte
  dsimp only at hbyte
  split_ifs at hbyte
  all_goals
    simp only [List.mem_cons, List.not_mem_nil, or_false, ← UInt8.toNat_inj,
      UInt8.toNat_ofNat'] at hbyte
    omega

/-- No character of the text is one of those that end it. -/
def Avoids (stops : List Char) (text : String) : Prop := ∀ c ∈ text.toList, c ∉ stops

instance (stops : List Char) (text : String) : Decidable (Avoids stops text) :=
  List.decidableBAll (· ∉ stops) text.toList

/-- The bytes go on with one of the characters. -/
def Stops (stops : List Char) (bytes : List UInt8) : Prop :=
  ∃ c ∈ stops, c.toNat < 128 ∧ bytes.head? = some c.toNat.toUInt8

/-- A text that is followed by a character it does not contain can be read back. -/
theorem Avoids.utf8_append_inj {stops : List Char} {one other : String} {left right : List UInt8}
    (hone : Avoids stops one) (hother : Avoids stops other) (hleft : Stops stops left)
    (hright : Stops stops right) (heq : utf8 one ++ left = utf8 other ++ right) :
    one = other ∧ left = right := by
  have hfree : ∀ {text : String}, Avoids stops text → ∀ {bytes : List UInt8}, Stops stops bytes →
      ∀ byte ∈ utf8 text, bytes.head? ≠ some byte := by
    rintro text htext bytes ⟨c, hc, hascii, hhead⟩ byte hbyte heq
    obtain rfl := Option.some.inj (hhead.symm.trans heq)
    obtain ⟨found, hfound, hbyte⟩ := List.mem_flatMap.mp hbyte
    have hcode : c.toNat.toUInt8.toNat = c.toNat := Nat.mod_eq_of_lt (by omega)
    have hsame := toNat_of_mem_utf8EncodeChar hbyte (by omega)
    obtain rfl : c = found := Char.toNat_inj.mp (hcode.symm.trans hsame)
    exact htext c hfound hc
  rcases List.append_eq_append_iff.mp heq with ⟨more, hutf8, rfl⟩ | ⟨more, hutf8, rfl⟩
  · cases more with
    | nil => exact ⟨utf8_injective (by simpa using hutf8.symm), rfl⟩
    | cons first more => exact absurd rfl (hfree hother hleft first (by simp [hutf8]))
  · cases more with
    | nil => exact ⟨utf8_injective (by simpa using hutf8), rfl⟩
    | cons first more => exact absurd rfl (hfree hone hright first (by simp [hutf8]))

/-! ### Signatures and targets -/

namespace Signature

variable {one other : Signature} {owner : String} {left right : List UInt8}

def paramBytes (params : List TypeName) : List UInt8 :=
  params.flatMap fun type => utf8 ", " ++ utf8 type

/-- A result and parameters that do not contain what ends them. -/
@[mk_iff]
structure Legible (signature : Signature) : Prop where
  result : Avoids ['('] signature.result
  params : ∀ type ∈ signature.params, Avoids [',', ')'] type

theorem utf8_argsText (owner : String) (params : List TypeName) :
    utf8 (", ".intercalate (owner :: params)) = utf8 owner ++ paramBytes params := by
  induction params generalizing owner with
  | nil => simp [paramBytes]
  | cons first params ih =>
      rw [String.intercalate_cons_cons, utf8_append, utf8_append, ih, paramBytes, paramBytes,
        List.flatMap_cons, List.append_assoc, List.append_assoc]

theorem utf8_pointerType (hreceiver : one.receiver? = some owner) :
    utf8 one.pointerType = utf8 one.result ++
      (utf8 "(*)(" ++ (utf8 owner ++ (paramBytes one.params ++ utf8 ")"))) := by
  rw [pointerType, argsText, args, hreceiver, Option.toList_some, List.singleton_append, utf8_append,
    utf8_append, utf8_append, utf8_argsText]
  simp only [List.append_assoc]

theorem stops_paramBytes (params : List TypeName) (rest : List UInt8) :
    Stops [',', ')'] (paramBytes params ++ (utf8 ")" ++ rest)) := by
  cases params with
  | nil => exact ⟨')', by decide, by decide, rfl⟩
  | cons first params => exact ⟨',', by decide, by decide, rfl⟩

theorem paramBytes_inj {one other : List TypeName} (hone : ∀ type ∈ one, Avoids [',', ')'] type)
    (hother : ∀ type ∈ other, Avoids [',', ')'] type)
    (heq : paramBytes one ++ (utf8 ")" ++ left) = paramBytes other ++ (utf8 ")" ++ right)) :
    one = other ∧ left = right := by
  induction one generalizing other with
  | nil =>
      cases other with
      | nil => exact ⟨rfl, List.append_cancel_left heq⟩
      | cons second others => cases heq
  | cons first rest ih =>
      cases other with
      | nil => cases heq
      | cons second others =>
          simp only [paramBytes, List.flatMap_cons, List.append_assoc] at heq
          -- A type ends where the comma of the next one or the parenthesis stands.
          obtain ⟨rfl, hrest⟩ := (hone first List.mem_cons_self).utf8_append_inj
            (hother second List.mem_cons_self) (stops_paramBytes rest left)
            (stops_paramBytes others right) (List.append_cancel_left heq)
          obtain ⟨rfl, hend⟩ := ih (fun type htype => hone type (List.mem_cons_of_mem _ htype))
            (fun type htype => hother type (List.mem_cons_of_mem _ htype)) hrest
          exact ⟨rfl, hend⟩

theorem Legible.pointerType_inj (hone : one.Legible) (hother : other.Legible)
    (hreceiver : one.receiver? = some owner) (hsame : other.receiver? = some owner)
    (heq : utf8 one.pointerType ++ left = utf8 other.pointerType ++ right) :
    one = other ∧ left = right := by
  rw [utf8_pointerType hreceiver, utf8_pointerType hsame] at heq
  simp only [List.append_assoc] at heq
  obtain ⟨hresult, heq⟩ := hone.result.utf8_append_inj hother.result
    ⟨'(', by decide, by decide, rfl⟩ ⟨'(', by decide, by decide, rfl⟩ heq
  obtain ⟨hparams, hend⟩ := paramBytes_inj hone.params hother.params
    (List.append_cancel_left (List.append_cancel_left heq))
  rcases one with ⟨_, _, _⟩
  rcases other with ⟨_, _, _⟩
  cases hreceiver
  cases hsame
  cases hresult
  cases hparams
  exact ⟨rfl, hend⟩

end Signature

instance (signature : Signature) : Decidable signature.Legible :=
  decidable_of_iff _ (Signature.legible_iff signature).symm

namespace Slot

/-- What a fingerprint is meant to protect: the name of a slot, its kind, how it is called and what
it holds. -/
def face (slot : Slot) : String × SlotKind × Signature × Target :=
  (slot.name, slot.decl.kind, slot.decl.signature, slot.binding.target)

def definer (slot : Slot) : String := slot.decl.origin?.getD baseName

/-- A slot through which objects of the class `owner` call a method of that class or of another one,
with no name that contains what ends it. -/
@[mk_iff]
structure Legible (slot : Slot) (owner : String) : Prop where
  receiver : slot.decl.signature.receiver? = some owner
  target : slot.binding.target = .own owner slot.name ∨
    slot.binding.target = .forward slot.decl.signature slot.definer slot.name
  name : Avoids ['\x02'] slot.name
  signature : slot.decl.signature.Legible
  definer : Avoids [':'] slot.definer

instance (slot : Slot) (owner : String) : Decidable (slot.Legible owner) :=
  decidable_of_iff _ (legible_iff slot owner).symm

variable {one other : Slot} {owner : String} {left right : List UInt8}

theorem bytes_congr (hface : one.face = other.face) (index : Nat) :
    one.bytes index = other.bytes index := by
  simp only [face, Prod.mk.injEq] at hface
  obtain ⟨hname, hkind, hsignature, htarget⟩ := hface
  rw [bytes, bytes, hname, hkind, hsignature, htarget]

theorem Legible.render_inj (hone : one.Legible owner) (hother : other.Legible owner)
    (hname : one.name = other.name) (hsignature : one.decl.signature = other.decl.signature)
    (heq : utf8 one.binding.target.render ++ left = utf8 other.binding.target.render ++ right) :
    one.binding.target = other.binding.target ∧ left = right := by
  rcases hone.target with hown | hforward <;> rcases hother.target with hown' | hforward'
  · rw [hown, hown', hname] at heq ⊢
    exact ⟨rfl, List.append_cancel_left heq⟩
  -- The second character tells a method of the class itself from one that is forwarded to.
  · rw [hown, hforward'] at heq
    simp only [Target.render, utf8_append, List.append_assoc] at heq
    cases heq
  · rw [hforward, hown'] at heq
    simp only [Target.render, utf8_append, List.append_assoc] at heq
    cases heq
  · rw [hforward, hforward', hname, hsignature] at heq ⊢
    simp only [Target.render, utf8_append, List.append_assoc] at heq
    have hrest := List.append_cancel_left (List.append_cancel_left (List.append_cancel_left heq))
    obtain ⟨hdefiner, hend⟩ := hone.definer.utf8_append_inj hother.definer
      ⟨':', by decide, by decide, rfl⟩ ⟨':', by decide, by decide, rfl⟩ hrest
    rw [hdefiner]
    exact ⟨rfl, by simpa using hend⟩

theorem Legible.bytes_inj (hone : one.Legible owner) (hother : other.Legible owner)
    (hkind : one.decl.kind = .method) (hsame : other.decl.kind = .method) {index : Nat}
    (heq : one.bytes index ++ left = other.bytes index ++ right) :
    one.face = other.face ∧ left = right := by
  rw [bytes, bytes, hkind, hsame] at heq
  simp only [List.append_assoc, List.cons_append] at heq
  obtain ⟨hname, heq⟩ := hone.name.utf8_append_inj hother.name
    ⟨'\x02', by decide, by decide, rfl⟩ ⟨'\x02', by decide, by decide, rfl⟩
    (List.append_cancel_left heq)
  obtain ⟨hsignature, heq⟩ := hone.signature.pointerType_inj hother.signature hone.receiver
    hother.receiver (List.cons.inj heq).2
  obtain ⟨htarget, hend⟩ := hone.render_inj hother hname hsignature heq
  rw [face, face, hname, hkind, hsame, hsignature, htarget]
  exact ⟨rfl, hend⟩

theorem bytes_ne_nil (slot : Slot) (index : Nat) : slot.bytes index ≠ [] := by
  rw [bytes, Digest.littleEndian]
  exact List.cons_ne_nil _ _

end Slot

end ClassLayout
