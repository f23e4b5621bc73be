import GameClient.Proofs.Arguments
/-!
Where a token is an option. Whether a token is looked at as an option or as a value depends on all the
tokens before it, one after the other; at every place where an option is looked for, the arguments may be
cut in two and each part be read alone. From this follows when help is what comes of the arguments.
-/

namespace GameClient

/-- The place of a token is one where an option is looked for: it is not right behind the flag of a
setting that itself stands at such a place. -/
def StandsAsOption (args : List String) : Nat → Prop
  | 0 => True
  | i + 1 => ¬ (StandsAsOption args i ∧ ∃ setting : Setting, args[i]? = some setting.flag)

/-- From such a place on, the places are those of the rest alone. -/
theorem standsAsOption_add {args : List String} {k : Nat} (h : StandsAsOption args k) (i : Nat) :
    StandsAsOption args (k + i) ↔ StandsAsOption (args.drop k) i := by
  induction i with
  | zero => exact iff_of_true h trivial
  | succ i ih => rw [← Nat.add_assoc, StandsAsOption, StandsAsOption, ih, List.getElem?_drop]

/-- What comes behind a place does not matter for it. -/
theorem standsAsOption_append {before : List String} (after : List String) {i : Nat}
    (h : i ≤ before.length) : StandsAsOption (before ++ after) i ↔ StandsAsOption before i := by
  induction i with
  | zero => exact Iff.rfl
  | succ i ih =>
      rw [StandsAsOption, StandsAsOption, ih (by omega), List.getElem?_append_left (by omega)]

theorem standsAsOption_one_iff {token : String} {rest : List String} :
    StandsAsOption (token :: rest) 1 ↔ Setting.ofFlag? token = none := by
  simp [StandsAsOption, Setting.ofFlag?_eq_none_iff]

/-- Behind a flag and the token after it, an option is looked for again. -/
theorem standsAsOption_two {token value : String} {rest : List String} {setting : Setting}
    (flag : Setting.ofFlag? token = some setting) : StandsAsOption (token :: value :: rest) 2 := by
  rintro ⟨one, -⟩
  rw [standsAsOption_one_iff, flag] at one
  exact Option.some_ne_none setting one

namespace Argument

/-- Tokens may be cut into units on both sides of a place where an option is looked for. -/
theorem ofTokens_append {before : List String} (after : List String)
    (h : StandsAsOption before before.length) :
    ofTokens (before ++ after) = ofTokens before ++ ofTokens after := by
  fun_induction ofTokens before with
  | case1 => rfl
  | case2 token rest single ih =>
      have place : StandsAsOption rest rest.length := by
        rw [List.length_cons, Nat.add_comm,
          standsAsOption_add (standsAsOption_one_iff.mpr single)] at h
        exact h
      rw [List.cons_append, ofTokens, single]
      simp [ih place]
  | case3 token setting flag =>
      rw [List.length_singleton, standsAsOption_one_iff, flag] at h
      simp at h
  | case4 token setting flag value rest ih =>
      have place : StandsAsOption rest rest.length := by
        rw [List.length_cons, List.length_cons, Nat.add_assoc, Nat.add_comm,
          standsAsOption_add (standsAsOption_two flag)] at h
        exact h
      rw [List.cons_append, List.cons_append, ofTokens, flag]
      simp [ih place]

/-- The units that are one token are those at the places where an option is looked for. -/
theorem single_mem_ofTokens_iff {args : List String} {token : String}
    (single : Setting.ofFlag? token = none) :
    .single token ∈ ofTokens args ↔ ∃ i, StandsAsOption args i ∧ args[i]? = some token := by
  constructor
  · -- Along the units: the place of a unit is counted from the end of the unit before it.
    intro member
    fun_induction ofTokens args with
    | case1 => simp at member
    | case2 first rest noFlag ih =>
        rcases List.mem_cons.mp member with same | later
        · cases same
          exact ⟨0, trivial, rfl⟩
        · obtain ⟨i, place, found⟩ := ih later
          refine ⟨1 + i, (standsAsOption_add (standsAsOption_one_iff.mpr noFlag) i).mpr place, ?_⟩
          rw [Nat.add_comm]
          exact found
    | case3 first setting flag => simp at member
    | case4 first setting flag value rest ih =>
        have later : Argument.single token ∈ ofTokens rest := by simpa using member
        obtain ⟨i, place, found⟩ := ih later
        refine ⟨2 + i, (standsAsOption_add (standsAsOption_two flag) i).mpr place, ?_⟩
        rw [Nat.add_comm]
        exact found
  · -- The tokens are cut in front of the place, where the next unit then begins.
    rintro ⟨i, place, found⟩
    obtain ⟨before, after, rfl, rfl⟩ :
        ∃ before after, args = before ++ token :: after ∧ before.length = i := by
      obtain ⟨inside, here⟩ := List.getElem?_eq_some_iff.mp found
      refine ⟨args.take i, args.drop (i + 1), ?_, by simp [Nat.le_of_lt inside]⟩
      rw [← here, ← List.drop_eq_getElem_cons inside, List.take_append_drop]
    have placed := (standsAsOption_append _ (Nat.le_refl _)).mp place
    rw [ofTokens_append _ placed, ofTokens, single]
    simp

end Argument

namespace Draft

theorem settle_ne_help (draft : Draft) : draft.settle ≠ .help := by
  unfold settle
  split
  · simp
  · split
    · split <;> simp
    · simp

/-- A scan may be stopped wherever an option is looked for and taken up there again. -/
theorem scan_append (draft : Draft) {before : List String} (after : List String)
    (h : StandsAsOption before before.length) :
    draft.scan (before ++ after) = (draft.scan before).scan after := by
  simp only [scan_eq_foldl, Argument.ofTokens_append after h, List.foldl_append]

/-- The token behind a flag that stands where an option is looked for belongs to that flag. -/
theorem scan_append_flag (draft : Draft) {before : List String} (setting : Setting)
    (token : String) (after : List String) (h : StandsAsOption before before.length) :
    draft.scan (before ++ setting.flag :: token :: after) =
      ((draft.scan before).takeValue setting token).scan after := by
  rw [scan_append draft _ h, scan, Setting.ofFlag?_flag]

end Draft

/-- Help is what comes of the arguments exactly if some unit asks for it. -/
theorem resolve_eq_help_iff_asksForHelp (args : List String) (env : Environment) :
    resolve args env = .help ↔ ∃ argument ∈ Argument.ofTokens args, argument.AsksForHelp := by
  have wanted : ((Draft.ofEnvironment env).scan args).help = true ↔
      ∃ argument ∈ Argument.ofTokens args, argument.AsksForHelp := by
    rw [Draft.scan_help]
    simp [Draft.ofEnvironment]
  rw [← wanted, resolve]
  cases ((Draft.ofEnvironment env).scan args).help with
  | true => simp
  | false => simpa using Draft.settle_ne_help _

theorem resolve_ne_help_iff {args : List String} {env : Environment} :
    resolve args env ≠ .help ↔ ∀ argument ∈ Argument.ofTokens args, ¬ argument.AsksForHelp := by
  simp only [ne_eq, resolve_eq_help_iff_asksForHelp, not_exists, not_and]

/-- A client that is not asked for help does what its draft settles into. -/
theorem resolve_eq_settle {args : List String} {env : Environment} (noHelp : resolve args env ≠ .help) :
    resolve args env = ((Draft.ofEnvironment env).scan args).settle := by
  unfold resolve at noHelp ⊢
  cases wanted : ((Draft.ofEnvironment env).scan args).help with
  | true => simp [wanted] at noHelp
  | false => simp [wanted]

/-- A token in the place of a value asks for nothing, whatever it is and whatever the environment. -/
theorem resolve_eq_help_of_value {before : List String} {setting : Setting} {after : List String}
    (h : StandsAsOption before before.length) (token other : String) (env env' : Environment) :
    resolve (before ++ setting.flag :: token :: after) env = .help ↔
      resolve (before ++ setting.flag :: other :: after) env' = .help := by
  have units : ∀ value, Argument.ofTokens (before ++ setting.flag :: value :: after) =
      Argument.ofTokens before ++ .option setting (some value) :: Argument.ofTokens after := by
    intro value
    rw [Argument.ofTokens_append _ h, Argument.ofTokens, Setting.ofFlag?_flag]
  simp [resolve_eq_help_iff_asksForHelp, units, or_and_right, exists_or]

/-- Help is what comes of the arguments exactly if one of its two names stands where an option is looked
for, whatever else there is. In the place of a value neither name brings help: there `-h` is the value, and
for `--help` the value is missing. Without help the outcome is what the draft settles into. -/
theorem resolve_eq_help_iff :
    (∀ args env, resolve args env = .help ↔
      ∃ i, StandsAsOption args i ∧ (args[i]? = some "-h" ∨ args[i]? = some "--help")) ∧
    (∀ before setting after, StandsAsOption before before.length →
      (∀ token other env env', resolve (before ++ Setting.flag setting :: token :: after) env = .help ↔
        resolve (before ++ Setting.flag setting :: other :: after) env' = .help) ∧
      ∀ draft : Draft,
        draft.scan (before ++ Setting.flag setting :: "-h" :: after) =
          ((draft.scan before).assign setting "-h").scan after ∧
        draft.scan (before ++ Setting.flag setting :: "--help" :: after) =
          ((draft.scan before).report (.missingValue setting.flag)).scan after) ∧
    ∀ args env, resolve args env ≠ .help →
      resolve args env = ((Draft.ofEnvironment env).scan args).settle := by
  refine ⟨?positions, ?values, fun _ _ => resolve_eq_settle⟩
  case positions =>
    intro args env
    have short : Argument.single "-h" ∈ Argument.ofTokens args ↔
        ∃ i, StandsAsOption args i ∧ args[i]? = some "-h" :=
      Argument.single_mem_ofTokens_iff (by decide)
    have long : Argument.single "--help" ∈ Argument.ofTokens args ↔
        ∃ i, StandsAsOption args i ∧ args[i]? = some "--help" :=
      Argument.single_mem_ofTokens_iff (by decide)
    rw [resolve_eq_help_iff_asksForHelp]
    simp only [Argument.AsksForHelp, and_or_left, exists_or, exists_eq_right, short, long]
  case values =>
    intro before setting after place
    refine ⟨resolve_eq_help_of_value place, fun draft => ⟨?_, ?_⟩⟩
    · rw [Draft.scan_append_flag draft setting _ after place]
      rfl
    · rw [Draft.scan_append_flag draft setting _ after place]
      rfl

/-- In the chain `--title --width --help` the middle token is a value, so that the last one is an option;
one flag less, and the same token is a value that is missing. -/
theorem resolve_eq_help_of_chain :
    resolve ["--title", "--width", "--help"] (fun _ => some "0") = .help ∧
      StandsAsOption ["--nope"] 1 ∧
      resolve ["--nope", "--width", "--help"] (fun _ => none) ≠ .help ∧
      resolve ["--nope", "--width", "--help"] (fun _ => none) =
        .rejected [.unknownOption "--nope", .missingValue "--width"] := by
  obtain ⟨positions, values, rest⟩ := resolve_eq_help_iff
  have place : StandsAsOption ["--nope"] 1 := standsAsOption_one_iff.mpr (by decide)
  have quiet : resolve ["--nope", "--width", "x"] (fun _ => none) ≠ .help := by decide
  have slot := values ["--nope"] .width [] place
  have noHelp : resolve ["--nope", "--width", "--help"] (fun _ => none) ≠ .help := fun help =>
    quiet ((slot.1 "--help" "x" _ _).mp help)
  have scanned : (Draft.ofEnvironment fun _ => none).scan ["--nope", "--width", "--help"] =
      (((Draft.ofEnvironment fun _ => none).scan ["--nope"]).report
        (.missingValue "--width")).scan [] := (slot.2 _).2
  refine ⟨(positions _ _).mpr ⟨2, standsAsOption_two rfl, Or.inr rfl⟩, place, noHelp, ?_⟩
  rw [rest _ _ noHelp, scanned]
  decide

end GameClient
