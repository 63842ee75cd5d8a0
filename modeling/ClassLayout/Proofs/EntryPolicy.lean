import ClassLayout.Proofs.Emission
import ClassLayout.Proofs.RoundTrip

/-!
# The entry policy

The strict policy lets programs through or refuses them and changes none: whatever goes wrong
without it goes wrong with it, in the same way, and a program it lets through is the one that comes
out without it. Whether it refuses a program is seen in the unit that was read, by counting the
classes with a method of the entry point's name.
-/

namespace ClassLayout

theorem lowerSource_required (text entryPoint : String) :
    lowerSource text ⟨entryPoint, .required⟩ =
      match lowerSource text ⟨entryPoint, .optional⟩ with
      | .error error => .error error
      | .ok program =>
        match LoweringOptions.check ⟨entryPoint, .required⟩ program with
        | .error fault => .error (.entryPoint fault)
        | .ok () => .ok program := by
  simp only [lowerSource]
  cases Source.Unit.ofJson text with
  | error error => rfl
  | ok unit =>
      simp only
      cases lower unit entryPoint <;> rfl

theorem lowerSource_optional_eq_ok_iff {text entryPoint : String} {program : Program} :
    lowerSource text ⟨entryPoint, .optional⟩ = .ok program ↔
      ∃ unit, Source.Unit.ofJson text = .ok unit ∧ lower unit entryPoint = .ok program := by
  simp only [lowerSource]
  cases Source.Unit.ofJson text with
  | error error => simp
  | ok unit =>
      simp only [Except.ok.injEq, exists_eq_left']
      cases lower unit entryPoint <;> simp [LoweringOptions.check]

theorem LoweringOptions.check_required (entryPoint : String) (program : Program) :
    check ⟨entryPoint, .required⟩ program =
      if program.candidates.length = 0 then .error (.undeclared entryPoint)
      else if program.candidates.length = 1 then .ok ()
      else .error (.ambiguous entryPoint program.candidates) := by
  unfold check
  rcases program.candidates with _ | ⟨first, _ | ⟨second, rest⟩⟩
  · rfl
  · rfl
  · simp

/-- What fails without the strict policy fails with it for the same reason. What succeeds without it
comes out the same with it if exactly one class of the unit has a method of the entry point's name;
otherwise the entry point is at fault, and several such classes are listed in linearized order. -/
theorem lowerSource_policy (text entryPoint : String) :
    (∀ error, lowerSource text ⟨entryPoint, .optional⟩ = .error error →
      lowerSource text ⟨entryPoint, .required⟩ = .error error) ∧
    ∀ program, lowerSource text ⟨entryPoint, .optional⟩ = .ok program →
      ∃ (unit : Source.Unit) (ordered : Linearized) (classes : List Source.Class),
        Source.Unit.ofJson text = .ok unit ∧
        linearize .seeded (unit.classes.map Declaration.ofSource) = .ok ordered ∧
        ordered.registry.names = rootNames ++ classes.map Source.Class.name ∧
        classes.Perm unit.classes ∧
        program.candidates = (classes.filter (·.declares entryPoint)).map Source.Class.name ∧
        (unit.classes.countP (·.declares entryPoint) = 1 →
          lowerSource text ⟨entryPoint, .required⟩ = .ok program) ∧
        (unit.classes.countP (·.declares entryPoint) = 0 →
          ∃ fault : EntryFault,
            lowerSource text ⟨entryPoint, .required⟩ = .error (.entryPoint fault) ∧
            fault.message = "no class declares `" ++ entryPoint ++ "`") ∧
        (1 < unit.classes.countP (·.declares entryPoint) →
          ∃ fault : EntryFault,
            lowerSource text ⟨entryPoint, .required⟩ = .error (.entryPoint fault) ∧
            fault.message = "`" ++ entryPoint ++ "` is declared by several classes: " ++
              ", ".intercalate program.candidates) := by
  rw [lowerSource_required]
  refine ⟨fun error herror => by rw [herror], fun program hprogram => ?_⟩
  obtain ⟨unit, hunit, hlower⟩ := lowerSource_optional_eq_ok_iff.mp hprogram
  obtain ⟨ordered, classes, hordered, hnames, hperm, hcandidates, -⟩ :=
    Program.exists_candidates_of_lower hlower
  have hcount : program.candidates.length = unit.classes.countP (·.declares entryPoint) := by
    rw [hcandidates, List.length_map, ← List.countP_eq_length_filter, hperm.countP_eq]
  simp only [hprogram, LoweringOptions.check_required, hcount]
  refine ⟨unit, ordered, classes, hunit, hordered, hnames, hperm, hcandidates, fun hone => ?_,
    fun hnone => ?_, fun hseveral => ?_⟩
  · rw [if_neg (by omega), if_pos hone]
  · rw [if_pos hnone]
    exact ⟨_, rfl, rfl⟩
  · rw [if_neg (by omega), if_neg (by omega)]
    exact ⟨_, rfl, rfl⟩

theorem lowerSource_policy_troupe :
    (∃ fault : EntryFault,
      lowerSource Source.Unit.troupe.toJson.compact ⟨"main", .required⟩ =
        .error (.entryPoint fault) ∧
      fault.message = "`main` is declared by several classes: Lead, Critic") ∧
    (∃ fault : EntryFault,
      lowerSource Source.Unit.troupe.toJson.compact ⟨"play", .required⟩ =
        .error (.entryPoint fault) ∧
      fault.message = "no class declares `play`") ∧
    (∃ program, lowerSource Source.Unit.notes.toJson.compact ⟨"main", .optional⟩ = .ok program ∧
      lowerSource Source.Unit.notes.toJson.compact ⟨"main", .required⟩ = .ok program) ∧
    lowerSource "" ⟨"main", .required⟩ = .error (.input .malformed) := by
  have hfits : Source.Unit.troupe.Fits ∧ Source.Unit.notes.Fits := by
    simp [Source.Unit.Fits, Source.Unit.troupe, Source.Unit.notes, Source.Class.Fits,
      Source.Class.withMethod, Source.Class.extending, Source.Class.named, Source.Class.withMember,
      Source.params, Source.Member.Fits, Source.TypeExpr.ofSpelling, Source.TypeExpr.stripBrackets,
      Source.TypeExpr.Fits, Json.wordLimit]
  have htroupe := Source.Unit.ofJson_toJson hfits.1
  have hnotes := Source.Unit.ofJson_toJson hfits.2
  obtain ⟨troupe, hmain, hcandidates⟩ :
      ∃ program, lower .troupe "main" = .ok program ∧ program.candidates = ["Lead", "Critic"] :=
    ⟨_, by cbv, rfl⟩
  obtain ⟨untitled, hplay⟩ : ∃ program, lower .troupe "play" = .ok program := ⟨_, by cbv⟩
  obtain ⟨notes, hnoted⟩ : ∃ program, lower .notes "main" = .ok program := ⟨_, by cbv⟩
  refine ⟨?_, ?_, ⟨notes, ?_⟩, ?_⟩
  · -- Two candidates are refused, and both are named in linearized order.
    have hlax := lowerSource_optional_eq_ok_iff.mpr ⟨_, htroupe, hmain⟩
    obtain ⟨unit, -, -, hunit, -, -, -, -, -, -, hseveral⟩ := (lowerSource_policy _ _).2 _ hlax
    obtain rfl := Except.ok.inj (htroupe.symm.trans hunit)
    rw [hcandidates] at hseveral
    exact hseveral (by decide)
  · -- For another entry point the unit is refused for having none.
    have hlax := lowerSource_optional_eq_ok_iff.mpr ⟨_, htroupe, hplay⟩
    obtain ⟨unit, -, -, hunit, -, -, -, -, -, hnone, -⟩ := (lowerSource_policy _ _).2 _ hlax
    obtain rfl := Except.ok.inj (htroupe.symm.trans hunit)
    exact hnone (by decide)
  · -- A unit with one candidate comes out as it would without the policy.
    have hlax := lowerSource_optional_eq_ok_iff.mpr ⟨_, hnotes, hnoted⟩
    obtain ⟨unit, -, -, hunit, -, -, -, -, hone, -⟩ := (lowerSource_policy _ _).2 _ hlax
    obtain rfl := Except.ok.inj (hnotes.symm.trans hunit)
    exact ⟨hlax, hone (by decide)⟩
  · exact (lowerSource_policy "" "main").1 _ (by decide)

end ClassLayout
