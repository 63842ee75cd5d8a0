import ClassLayout.Proofs.NameIndex

/-!
# An entry in focus

An entry is replaced while its parent is read, so the two are taken from different parts of the
registry. Nothing is known of parents here: `setParent` may have left any position behind. Yet the
cut never fails and its parts always have what is taken from them (`focus_eq`), because the parent
is compared with the position of the entry first. Put together again, the parts are the registry with
one entry replaced (`modifyChild_eq`).
-/

namespace ClassLayout

namespace Registry

variable {registry : Registry} {focus : Focus} {id : Nat}

theorem focus_eq_some_iff : registry.focus id = .ok (some focus) ↔
    ∃ parent < id, registry.entries[id]? = some focus.child ∧ focus.child.parent? = some parent ∧
      registry.entries[parent]? = some focus.parent ∧
      focus.before = registry.entries.take id ∧ focus.after = registry.entries.drop (id + 1) := by
  constructor
  · intro hfocus
    rw [focus_eq] at hfocus
    obtain ⟨pair, hfamily, rfl⟩ := Option.map_eq_some_iff.mp (Except.ok.inj hfocus)
    obtain ⟨parent, hlt, hchild, hparent, habove⟩ := family?_eq_some_iff.mp hfamily
    exact ⟨parent, hlt, hchild, hparent, habove, rfl, rfl⟩
  · rintro ⟨parent, hlt, hchild, hparent, habove, hbefore, hafter⟩
    rw [focus_eq_some hlt hchild hparent habove, ← hbefore, ← hafter]

theorem exists_focus_iff : (∃ focus, registry.focus id = .ok (some focus)) ↔
    ∃ entry parent, registry.entries[id]? = some entry ∧ entry.parent? = some parent ∧
      parent < id := by
  constructor
  · rintro ⟨focus, hfocus⟩
    obtain ⟨parent, hlt, hchild, hparent, -⟩ := focus_eq_some_iff.mp hfocus
    exact ⟨focus.child, parent, hchild, hparent, hlt⟩
  · rintro ⟨entry, parent, hentry, hparent, hlt⟩
    obtain ⟨above, habove⟩ := exists_getElem?_of_lt hentry hlt
    exact ⟨_, focus_eq_some hlt hentry hparent habove⟩

theorem modifyChild_of_focus (hfocus : registry.focus id = .ok (some focus))
    (change : Entry → Entry → Entry) :
    registry.modifyChild id change =
      .ok (some { registry with
        entries := registry.entries.set id (change focus.parent focus.child) }) := by
  obtain ⟨parent, hlt, hchild, hparent, habove, -⟩ := focus_eq_some_iff.mp hfocus
  have hfamily := family?_eq_some_iff.mpr ⟨parent, hlt, hchild, hparent, habove⟩
  rw [modifyChild_eq, modifyChild?, hfamily, Option.map_some]

end Registry

/-- Whatever the parents of the entries are, and at whatever position, taking an entry into focus
never looks for something that is not there. The entry comes into focus exactly when it is there and
its parent is a position before its own, and then it is the entry of that position and the other is
that of its parent. Whatever is made of the entry, no other entry changes, nor the name index. -/
theorem Registry.focus_total (registry : Registry) (id : Nat) :
    (∃ focus?, registry.focus id = .ok focus?) ∧
    ((∃ focus, registry.focus id = .ok (some focus)) ↔
      ∃ entry parent, registry.entries[id]? = some entry ∧ entry.parent? = some parent ∧
        parent < id) ∧
    ∀ focus, registry.focus id = .ok (some focus) →
      registry.entries[id]? = some focus.child ∧
      (∃ parent, focus.child.parent? = some parent ∧
        registry.entries[parent]? = some focus.parent) ∧
      ∀ change, ∃ next, registry.modifyChild id change = .ok (some next) ∧
        next.entries[id]? = some (change focus.parent focus.child) ∧
        next.size = registry.size ∧
        (∀ other ≠ id, next.entries[other]? = registry.entries[other]?) ∧
        next.index = registry.index := by
  refine ⟨⟨_, focus_eq registry id⟩, exists_focus_iff, fun focus hfocus => ?_⟩
  obtain ⟨parent, -, hchild, hparent, habove, -⟩ := focus_eq_some_iff.mp hfocus
  refine ⟨hchild, ⟨parent, hparent, habove⟩, fun change => ?_⟩
  refine ⟨_, modifyChild_of_focus hfocus change, ?_, ?_, fun other hother => ?_, rfl⟩
  · exact List.getElem?_set_self (List.getElem?_eq_some_iff.mp hchild).1
  · rw [size, List.length_set, size]
  · exact List.getElem?_set_ne (Ne.symm hother)

/-- A base, a leaf and a late leaf of it, with three between them that have parents which are nowhere,
the entry itself and an entry to come. -/
def Registry.tangle : List Operation :=
  [.push { name := "Base" }, .push { name := "Leaf", parent? := some 0 },
    .push { name := "Lost", parent? := some 9 }, .push { name := "Loop" }, .setParent 3 (some 3),
    .push { name := "Early", parent? := some 5 }, .push { name := "Late", parent? := some 1 }]

/-- The leaf can get a new name and lose its parent, and it is found as before. The three, and a
position past the end, do not come into focus, though to ask for the parent of the lost one fails. -/
theorem Registry.focus_total_tangle :
    (∃ focus, (after tangle).focus 1 = .ok (some focus) ∧
      (after tangle).entries[0]? = some focus.parent ∧
      ∃ next, (after tangle).modifyChild 1 (fun above _ => { name := above.name }) = .ok (some next) ∧
        next.entries[1]? = some { name := "Base" } ∧ next.lookup? "Leaf" = some 1 ∧
        next.entries[0]? = (after tangle).entries[0]? ∧
        next.entries[5]? = (after tangle).entries[5]?) ∧
    (∀ id ∈ [2, 3, 4, 6], (after tangle).focus id = .ok none) ∧
    (after tangle).parentOf 2 = .error ⟨9⟩ := by
  refine ⟨?_, by decide, by decide⟩
  obtain ⟨-, hiff, hfound⟩ := focus_total (after tangle) 1
  obtain ⟨focus, hfocus⟩ := hiff.mpr ⟨{ name := "Leaf", parent? := some 0 }, 0, by decide⟩
  obtain ⟨hchild, ⟨parent, hparent, habove⟩, hmodify⟩ := hfound focus hfocus
  have hleaf : focus.child = { name := "Leaf", parent? := some 0 } :=
    Option.some.inj (hchild.symm.trans (by decide))
  obtain rfl : 0 = parent := by simpa [hleaf] using hparent
  have hbase : focus.parent = { name := "Base" } := Option.some.inj (habove.symm.trans (by decide))
  obtain ⟨next, hnext, hnew, -, hothers, hindex⟩ := hmodify fun above _ => { name := above.name }
  have hlookup : next.lookup? "Leaf" = some 1 := by
    rw [lookup?, hindex]
    decide
  rw [hbase] at hnew
  exact ⟨focus, hfocus, habove, next, hnext, hnew, hlookup, hothers 0 (by decide),
    hothers 5 (by decide)⟩

end ClassLayout
