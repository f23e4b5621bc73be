import GameClient.Proofs.Masking
import GameClient.Proofs.OptionPlace
import GameClient.Proofs.Precedence
/-!
A width or a height read digit by digit in signed arithmetic of 32 bits. Each step is checked and nothing wraps
around; since the digits read so far never have a greater value than all of them, a text is refused for its size only
if its value is out of range, however many zeros it starts with. What comes of a text and where its problem stands
among the others is then followed to the outcome, for the two options and the two variables.
-/

namespace GameClient

open Text

namespace Text.Signed

/-- The result of an operation, if a signed integer of 32 bits can hold it. -/
def fit (result : Int) : Option Int :=
  if -2147483648 ≤ result ∧ result ≤ 2147483647 then some result else none

/-- Takes one digit more: ten times the value, and then the digit, which goes away from zero. Both steps are
checked. -/
def push (negative : Bool) (value : Int) (c : Char) : Option Int :=
  if c.isDigit then
    (fit (value * 10)).bind fun tens =>
      fit (if negative then tens - (c.toNat - '0'.toNat : Nat) else tens + (c.toNat - '0'.toNat : Nat))
  else none

/-- One sign that the text may start with, and the rest. -/
def split : List Char → Bool × List Char
  | '+' :: digits => (false, digits)
  | '-' :: digits => (true, digits)
  | digits => (false, digits)

/-- The signed integer of 32 bits that a text writes: one sign or none, and at least one digit. -/
def read (text : List Char) : Option Int :=
  if (split text).2 = [] then none else (split text).2.foldlM (push (split text).1) 0

example : read "-2147483648".toList = some (-2147483648) ∧ read "2147483648".toList = none ∧
    read "+".toList = none ∧ read "+-1".toList = none := by decide

/-- The integer with this absolute value. -/
def ofAbs (negative : Bool) (n : Nat) : Int :=
  if negative then -n else n

/-- The greatest absolute value, which depends on the sign. -/
def limit (negative : Bool) : Nat :=
  if negative then 2147483648 else 2147483647

theorem fit_ofAbs (negative : Bool) (n : Nat) :
    fit (ofAbs negative n) = if n ≤ limit negative then some (ofAbs negative n) else none := by
  have range : (-2147483648 ≤ ofAbs negative n ∧ ofAbs negative n ≤ 2147483647) ↔ n ≤ limit negative := by
    cases negative <;> simp only [ofAbs, limit, if_true, Bool.false_eq_true, if_false] <;> omega
  simp only [fit, range]

/-- The two checks of a step come to one check of its result. -/
theorem push_ofAbs (negative : Bool) (n : Nat) {c : Char} (digit : c.isDigit = true) :
    push negative (ofAbs negative n) c = fit (ofAbs negative (10 * n + (c.toNat - '0'.toNat))) := by
  have tens : ofAbs negative n * 10 = ofAbs negative (10 * n) := by
    unfold ofAbs
    split <;> omega
  have next : ∀ d : Nat, (if negative then ofAbs negative (10 * n) - d else ofAbs negative (10 * n) + d) =
      ofAbs negative (10 * n + d) := by
    intro d
    unfold ofAbs
    split <;> omega
  rw [push, if_pos digit, tens, fit_ofAbs]
  by_cases small : 10 * n ≤ limit negative
  · rw [if_pos small, Option.bind_some, next]
  · have large : ¬ 10 * n + (c.toNat - '0'.toNat) ≤ limit negative := by omega
    rw [if_neg small, fit_ofAbs, if_neg large, Option.bind_none]

/-- More digits never make the value smaller. -/
theorem le_ofDigitChars (digits : List Char) (n : Nat) : n ≤ Nat.ofDigitChars 10 digits n := by
  induction digits generalizing n with
  | nil => simp
  | cons c rest ih =>
      rw [Nat.ofDigitChars_cons]
      have later := ih (10 * n + (c.toNat - '0'.toNat))
      omega

/-- Along the digits nothing is refused that would not be refused in the end. -/
theorem foldlM_push (negative : Bool) (digits : List Char) {n : Nat} (inside : n ≤ limit negative) :
    digits.foldlM (push negative) (ofAbs negative n) =
      if digits.all Char.isDigit then fit (ofAbs negative (Nat.ofDigitChars 10 digits n)) else none := by
  induction digits generalizing n with
  | nil => simp [fit_ofAbs, inside]
  | cons c rest ih =>
      rw [List.foldlM_cons, Nat.ofDigitChars_cons]
      by_cases digit : c.isDigit = true
      · rw [push_ofAbs negative n digit, fit_ofAbs]
        generalize 10 * n + (c.toNat - '0'.toNat) = next
        by_cases small : next ≤ limit negative
        · simp [small, ih small, digit]
        · -- The step is refused, and no more digits would bring the value back into range.
          have more := le_ofDigitChars rest next
          have large : ¬ Nat.ofDigitChars 10 rest next ≤ limit negative := by omega
          simp [small, fit_ofAbs, large]
      · simp [push, digit]

/-- A sign as it stands in front of the digits. -/
inductive IsSign : Bool → List Char → Prop where
  | none : IsSign false []
  | plus : IsSign false ['+']
  | minus : IsSign true ['-']

theorem split_append {negative : Bool} {sign digits : List Char} (isSign : IsSign negative sign)
    (fits : ∀ c ∈ digits, c.isDigit = true) : split (sign ++ digits) = (negative, digits) := by
  cases isSign with
  | plus => rfl
  | minus => rfl
  | none =>
      -- Without a sign, the first character is a digit, which is no sign either.
      cases digits with
      | nil => rfl
      | cons c rest =>
          have digit : c.isDigit = true := fits c (by simp)
          have noPlus : c ≠ '+' := by
            rintro rfl
            exact absurd digit (by decide)
          have noMinus : c ≠ '-' := by
            rintro rfl
            exact absurd digit (by decide)
          simp [split, noPlus, noMinus]

theorem exists_isSign_split (text : List Char) :
    ∃ sign, IsSign (split text).1 sign ∧ text = sign ++ (split text).2 := by
  unfold split
  split
  · exact ⟨_, .plus, rfl⟩
  · exact ⟨_, .minus, rfl⟩
  · exact ⟨_, .none, rfl⟩

/-- The reader accepts a sign or none and then digits, if their value is in range, and gives that value. -/
theorem read_eq_some_iff {text : List Char} {value : Int} :
    read text = some value ↔
      ∃ negative sign digits, IsSign negative sign ∧ text = sign ++ digits ∧ digits ≠ [] ∧
        (∀ c ∈ digits, c.isDigit = true) ∧ Nat.ofDigitChars 10 digits 0 ≤ limit negative ∧
        ofAbs negative (Nat.ofDigitChars 10 digits 0) = value := by
  have zero : ∀ negative, ofAbs negative 0 = 0 := by
    intro negative
    cases negative <;> rfl
  have folded : ∀ negative (digits : List Char), digits.foldlM (push negative) 0 = some value ↔
      (∀ c ∈ digits, c.isDigit = true) ∧ Nat.ofDigitChars 10 digits 0 ≤ limit negative ∧
        ofAbs negative (Nat.ofDigitChars 10 digits 0) = value := by
    intro negative digits
    have along := foldlM_push negative digits (Nat.zero_le (limit negative))
    rw [zero] at along
    simp only [along, fit_ofAbs, Option.ite_none_right_eq_some, Option.some.injEq, List.all_eq_true]
  constructor
  · intro accepted
    unfold read at accepted
    split at accepted
    · simp at accepted
    · next nonempty =>
        obtain ⟨sign, isSign, same⟩ := exists_isSign_split text
        exact ⟨_, sign, _, isSign, same, nonempty, (folded _ _).mp accepted⟩
  · rintro ⟨negative, sign, digits, isSign, rfl, nonempty, fits, range⟩
    rw [read, split_append isSign fits, if_neg nonempty]
    exact (folded negative digits).mpr ⟨fits, range⟩

end Text.Signed

/-! ### One width or height -/

/-- Reads a width or a height. A text that is none leaves a problem with the label behind those found before. -/
def readPositive (given label : String) (problems : List Problem) : Option Nat × List Problem :=
  match Signed.read (trim given.toList) with
  | none => (none, problems ++ [.notPositive label])
  | some value =>
    if 0 < value then (some value.toNat, problems) else (none, problems ++ [.notPositive label])

/-- A positive integer of 32 bits is read exactly from the texts that write a dimension. -/
theorem exists_read_iff {given : String} {n : Nat} :
    (∃ value, Signed.read (trim given.toList) = some value ∧ 0 < value ∧ value.toNat = n) ↔
      WritesDimension given n := by
  constructor
  · rintro ⟨value, accepted, positive, rfl⟩
    obtain ⟨negative, sign, digits, isSign, same, nonempty, fits, range, rfl⟩ :=
      Signed.read_eq_some_iff.mp accepted
    cases isSign with
    | minus => simp [Signed.ofAbs] at positive; omega
    | none =>
        simp only [Signed.ofAbs, Signed.limit, Bool.false_eq_true, if_false] at positive range ⊢
        exact ⟨[], digits, same, Or.inl rfl, nonempty, fits, by simp, by omega, by omega⟩
    | plus =>
        simp only [Signed.ofAbs, Signed.limit, Bool.false_eq_true, if_false] at positive range ⊢
        exact ⟨['+'], digits, same, Or.inr rfl, nonempty, fits, by simp, by omega, by omega⟩
  · rintro ⟨sign, digits, same, signed, nonempty, fits, rfl, positive, small⟩
    have isSign : Signed.IsSign false sign := by
      rcases signed with rfl | rfl
      · exact .none
      · exact .plus
    have accepted := Signed.read_eq_some_iff.mpr ⟨false, sign, digits, isSign, same, nonempty, fits, small, rfl⟩
    refine ⟨_, accepted, ?_, ?_⟩
    · simp [Signed.ofAbs]; omega
    · simp [Signed.ofAbs]

/-- Reading with checked arithmetic and reading without a bound come to the same. -/
theorem readPositive_eq (given label : String) (problems : List Problem) :
    readPositive given label problems =
      (readDimension given, problems ++ if IsDimension given then [] else [.notPositive label]) := by
  by_cases written : IsDimension given
  · obtain ⟨n, writes⟩ := written
    obtain ⟨value, accepted, positive, rfl⟩ := exists_read_iff.mpr writes
    have isDimension : IsDimension given := ⟨_, writes⟩
    simp [readPositive, accepted, positive, isDimension, readDimension_eq_some_iff.mpr writes]
  · have refused : ∀ value, Signed.read (trim given.toList) = some value → ¬ 0 < value :=
      fun value accepted positive => written ⟨_, exists_read_iff.mp ⟨value, accepted, positive, rfl⟩⟩
    rw [readDimension_eq_none_iff.mpr written, if_neg written, readPositive]
    split
    · rfl
    · next value accepted => rw [if_neg (refused value accepted)]

/-! ### The two sides of a window -/

/-- A side of the window. -/
inductive Side where
  | width
  | height
deriving Repr, DecidableEq

namespace Side

/-- The setting that gives its length. -/
def setting : Side → Setting
  | .width => .width
  | .height => .height

/-- What a complaint about the value of its option calls it; one about its variable names the variable. -/
def label : Side → String
  | .width => "Width"
  | .height => "Height"

/-- Its length in a draft. -/
def inDraft (draft : Draft) : Side → Nat
  | .width => draft.width
  | .height => draft.height

/-- Its length in settings. -/
def inSettings (settings : Settings) : Side → Nat
  | .width => settings.width
  | .height => settings.height

/-- The draft with the length that was read, if it was, and all that was found until then. -/
def update (draft : Draft) (read : Option Nat × List Problem) : Side → Draft
  | .width => { draft with width := read.1.getD draft.width, problems := read.2 }
  | .height => { draft with height := read.1.getD draft.height, problems := read.2 }

/-- The length to start with and what is wrong with the variable, if it is set. -/
def start (env : Environment) (default : Nat) (side : Side) : Nat × List Problem :=
  match env side.setting.envName with
  | none => (default, [])
  | some given =>
    let read := readPositive given side.setting.envName []
    (read.1.getD default, read.2)

variable (side : Side)

/-- The value of an option is read behind the problems of the draft. -/
theorem assign_eq (draft : Draft) (given : String) :
    draft.assign side.setting given = side.update draft (readPositive given side.label draft.problems) := by
  rw [readPositive_eq]
  cases side <;> cases read : readDimension given <;>
    simp [setting, label, update, Draft.assign, Draft.report, read, ← readDimension_isSome_iff]

/-- The value of a variable is read by itself; the default stays if there is none or it is no length. -/
theorem dimension_eq (env : Environment) (default : Nat) :
    Draft.dimension env side.setting default = side.start env default := by
  unfold Draft.dimension start
  cases env side.setting.envName with
  | none => rfl
  | some given =>
      simp only [readPositive_eq]
      cases read : readDimension given <;> simp [read, ← readDimension_isSome_iff]

theorem problem_option {given : String} (accepted : isFlagLike given = false) :
    (Argument.option side.setting (some given)).problem =
      if IsDimension given then none else some (.notPositive side.label) := by
  cases side <;> simp [Argument.problem, Argument.dimensionLabel, setting, label, accepted]

theorem valueFor_server (value : Option String) :
    (Argument.option side.setting value).valueFor .server = none := by
  cases side <;> cases value <;> simp [Argument.valueFor, setting]

theorem inDraft_scan (draft : Draft) (args : List String) :
    side.inDraft (draft.scan args) =
      ((Argument.ofTokens args).filterMap (Argument.dimensionFor side.setting)).getLast?.getD
        (side.inDraft draft) := by
  cases side with
  | width => exact Draft.scan_of_getD Draft.width _ (fun _ _ => rfl) draft args
  | height => exact Draft.scan_of_getD Draft.height _ (fun _ _ => rfl) draft args

theorem inDraft_ofEnvironment {env : Environment} {given : String} {n : Nat}
    (found : env side.setting.envName = some given) (read : readDimension given = some n) :
    side.inDraft (Draft.ofEnvironment env) = n := by
  cases side <;>
    · rw [setting] at found
      simp [inDraft, Draft.ofEnvironment, Draft.dimension, found, read]

theorem inSettings_eq {args : List String} {env : Environment} {settings : Settings}
    (h : resolve args env = .ready settings) :
    side.inSettings settings = side.inDraft ((Draft.ofEnvironment env).scan args) := by
  have becomes := becomes_of_resolve h
  cases side with
  | width => exact becomes.width
  | height => exact becomes.height

/-- Units without a value for the side leave it alone. -/
theorem filterMap_dimensionFor_eq_nil {units : List Argument}
    (silent : ∀ value, .option side.setting value ∉ units) :
    units.filterMap (Argument.dimensionFor side.setting) = [] := by
  rw [List.filterMap_eq_nil_iff]
  intro unit member
  cases unit with
  | single token => rfl
  | option given value =>
      have other : given ≠ side.setting := by
        rintro rfl
        exact silent value member
      cases value <;> simp [Argument.dimensionFor, Argument.valueFor, other]

end Side

/-! ### Places of a text -/

/-- A client that is not asked for help starts if nothing is wrong. -/
theorem exists_ready_iff {args : List String} {env : Environment} (noHelp : resolve args env ≠ .help) :
    (∃ settings, resolve args env = .ready settings) ↔ (resolve args env).problems = [] := by
  cases outcome : resolve args env with
  | help => exact absurd outcome noHelp
  | ready settings => simp [Outcome.problems]
  | rejected problems =>
      obtain ⟨_, wrong, rfl⟩ := resolve_eq_rejected_iff.mp outcome
      simp [Outcome.problems, wrong]

/-- A place where a text gives the length of a side, and what comes of all input with a text in this place or without
one. A text that the place accepts is read after `front` was found and before `back` is; its problem, if there is one,
stands between them, and without any problem the client starts. The length is the one read, unless a unit that is read
later speaks of the side. -/
structure ReadsAt (side : Side) (label : String) (accepts : String → Prop) (later : List Argument)
    (outcome : Option String → Outcome) (front back : List Problem) : Prop where
  without : (outcome none).problems = front ++ back
  problems : ∀ given, accepts given →
    (outcome (some given)).problems = (readPositive given label front).2 ++ back
  starts : ∀ given, accepts given →
    ((∃ settings, outcome (some given) = .ready settings) ↔
      (∃ n, (readPositive given label front).1 = some n) ∧ (outcome none).problems = [])
  length : ∀ given, accepts given → (∀ value, .option side.setting value ∉ later) →
    ∀ settings, outcome (some given) = .ready settings →
      (readPositive given label front).1 = some (side.inSettings settings)

/-- Where the client starts as soon as nothing is wrong, it is enough to know the problems and the length. -/
theorem readsAt_of_problems {side : Side} {label : String} {accepts : String → Prop} {later : List Argument}
    {outcome : Option String → Outcome} {front back : List Problem}
    (ready : ∀ given, (∃ settings, outcome given = .ready settings) ↔ (outcome given).problems = [])
    (without : (outcome none).problems = front ++ back)
    (problems : ∀ given, accepts given →
      (outcome (some given)).problems = (readPositive given label front).2 ++ back)
    (length : ∀ given, accepts given → (∀ value, .option side.setting value ∉ later) →
      ∀ settings, outcome (some given) = .ready settings → readDimension given = some (side.inSettings settings)) :
    ReadsAt side label accepts later outcome front back where
  without := without
  problems := problems
  starts given accepted := by
    rw [ready, problems given accepted, without, readPositive_eq, ← Option.isSome_iff_exists,
      readDimension_isSome_iff]
    by_cases written : IsDimension given <;> simp [written]
  length given accepted last settings h := by
    rw [readPositive_eq]
    exact length given accepted last settings h

/-! ### Behind an option -/

section Places

variable {side : Side} {given : String} {before after : List String} {env : Environment}

/-- The tokens of an option, if it is given. -/
def Side.tokens (side : Side) (given : Option String) : List String :=
  given.toList.flatMap fun text => [side.setting.flag, text]

theorem ofTokens_place (side : Side) (place : StandsAsOption before before.length) (after : List String)
    (given : Option String) :
    Argument.ofTokens (before ++ (side.tokens given ++ after)) =
      Argument.ofTokens before ++
        (given.toList.map (fun text => .option side.setting (some text)) ++ Argument.ofTokens after) := by
  rw [Argument.ofTokens_append _ place]
  cases given with
  | none => rfl
  | some text => simp [Side.tokens, Argument.ofTokens, Setting.ofFlag?_flag]

/-- The last text for a side is read as its length, if the client starts. -/
theorem readDimension_option (place : StandsAsOption before before.length) (accepted : isFlagLike given = false)
    (last : ∀ value, .option side.setting value ∉ Argument.ofTokens after) {settings : Settings}
    (h : resolve (before ++ (side.tokens (some given) ++ after)) env = .ready settings) :
    readDimension given = some (side.inSettings settings) := by
  have units := ofTokens_place side place after (some given)
  have here : (Argument.option side.setting (some given)).dimensionFor side.setting = readDimension given := by
    simp [Argument.dimensionFor, Argument.valueFor, accepted]
  have clean := (clean_of_resolve h).2.2 (.option side.setting (some given)) (by simp [units])
  have written : IsDimension given := by
    by_contra wrong
    simp [side.problem_option accepted, wrong] at clean
  obtain ⟨n, writes⟩ := written
  have read := readDimension_eq_some_iff.mpr writes
  rw [side.inSettings_eq h, side.inDraft_scan, units]
  simp [side.filterMap_dimensionFor_eq_nil last, here, read]

/-- A text behind an option is read in its turn: what is wrong with it stands behind all that is wrong in front of it
and before all that is wrong later. -/
theorem exists_readsAt_option (side : Side) (place : StandsAsOption before before.length)
    (noHelp : resolve (before ++ after) env ≠ .help) :
    ∃ back, ReadsAt side side.label (isFlagLike · = false) (Argument.ofTokens after)
      (fun given => resolve (before ++ (side.tokens given ++ after)) env)
      ((Draft.ofEnvironment env).scan before).problems back := by
  have asked : ∀ given, ∀ unit ∈ Argument.ofTokens (before ++ (side.tokens given ++ after)),
      ¬ unit.AsksForHelp := by
    intro given unit member
    rw [resolve_ne_help_iff, Argument.ofTokens_append _ place] at noHelp
    rw [ofTokens_place side place] at member
    simp only [List.mem_append, List.mem_map] at member noHelp
    rcases member with early | ⟨text, _, rfl⟩ | late
    · exact noHelp unit (Or.inl early)
    · simp
    · exact noHelp unit (Or.inr late)
  have front := Draft.scan_problems (Draft.ofEnvironment env) before
  rw [Draft.problems_ofEnvironment] at front
  let back := (Argument.ofTokens after).filterMap Argument.problem ++
    (serverProblem (effectiveText .server (before ++ after) env)).toList
  have server : ∀ given, effectiveText .server (before ++ (side.tokens given ++ after)) env =
      effectiveText .server (before ++ after) env := by
    intro given
    cases given with
    | none => simp [Side.tokens]
    | some text =>
        simp [effectiveText, ofTokens_place side place, Argument.ofTokens_append _ place, side.valueFor_server]
  have without : (resolve (before ++ (side.tokens none ++ after)) env).problems =
      ((Draft.ofEnvironment env).scan before).problems ++ back := by
    rw [problems_resolve (asked none), expectedProblems, server, ofTokens_place side place, front]
    simp [back]
  have problems : ∀ given, isFlagLike given = false →
      (resolve (before ++ (side.tokens (some given) ++ after)) env).problems =
        (readPositive given side.label ((Draft.ofEnvironment env).scan before).problems).2 ++ back := by
    intro given accepted
    rw [problems_resolve (asked _), expectedProblems, server, ofTokens_place side place, readPositive_eq, front]
    by_cases written : IsDimension given <;> simp [side.problem_option accepted, written, back]
  exact ⟨back, readsAt_of_problems (fun given => exists_ready_iff (resolve_ne_help_iff.mpr (asked given)))
    without problems fun given accepted last settings h => readDimension_option place accepted last h⟩

end Places

/-! ### In a variable -/

/-- The environment with this text, or none, in the variable of a setting. -/
def Environment.put (env : Environment) (setting : Setting) (given : Option String) : Environment :=
  fun name => if name = setting.envName then given else env name

section Variables

variable {env : Environment} {setting other : Setting} {given : Option String}

theorem put_envName :
    (env.put setting given) other.envName = if other = setting then given else env other.envName := by
  simp [Environment.put, Setting.envName_inj]

theorem environmentProblem_put :
    environmentProblem (env.put setting given) other =
      if other = setting then
        given.bind fun text => if IsDimension text then none else some (.notPositive setting.envName)
      else environmentProblem env other := by
  unfold environmentProblem
  rw [put_envName]
  by_cases same : other = setting
  · cases given <;> simp [same]
  · simp [same]

variable {side : Side} {args : List String}

/-- What is found in the variables before that of the side is looked at. -/
def Side.foundBefore (env : Environment) : Side → List Problem
  | .width => []
  | .height => (Draft.dimension env .width Settings.defaultWidth).2

/-- A text in a variable is read as the length of the side, if no option speaks of it and the client starts. -/
theorem readDimension_variable {given : String}
    (silent : ∀ value, .option side.setting value ∉ Argument.ofTokens args)
    {settings : Settings} (h : resolve args (env.put side.setting (some given)) = .ready settings) :
    readDimension given = some (side.inSettings settings) := by
  have found : (env.put side.setting (some given)) side.setting.envName = some given := by simp [put_envName]
  obtain ⟨width, height, _⟩ := clean_of_resolve h
  have written : IsDimension given := by
    cases side with
    | width => exact environmentProblem_eq_none_iff.mp width given found
    | height => exact environmentProblem_eq_none_iff.mp height given found
  obtain ⟨n, writes⟩ := written
  have read := readDimension_eq_some_iff.mpr writes
  rw [side.inSettings_eq h, side.inDraft_scan, side.filterMap_dimensionFor_eq_nil silent, read,
    side.inDraft_ofEnvironment found read]
  rfl

/-- A text in a variable is read in its turn, the width before the height and both before all arguments. -/
theorem exists_readsAt_variable (side : Side) (noHelp : resolve args env ≠ .help) :
    ∃ back, ReadsAt side side.setting.envName (fun _ => True) (Argument.ofTokens args)
      (fun given => resolve args (env.put side.setting given)) (side.foundBefore env) back := by
  have asked : ∀ unit ∈ Argument.ofTokens args, ¬ unit.AsksForHelp := resolve_ne_help_iff.mp noHelp
  have server : ∀ given, effectiveText .server args (env.put side.setting given) =
      effectiveText .server args env := by
    intro given
    cases side <;> simp [effectiveText, put_envName, Side.setting]
  let arguments := (Argument.ofTokens args).filterMap Argument.problem ++
    (serverProblem (effectiveText .server args env)).toList
  -- Where the problem of the variable stands depends on the side: the width comes first.
  have eachProblem : ∃ back, ∀ given, (resolve args (env.put side.setting given)).problems =
      side.foundBefore env ++ ((given.bind fun text =>
        if IsDimension text then none else some (.notPositive side.setting.envName)).toList ++ back) := by
    cases side with
    | width =>
        refine ⟨(environmentProblem env .height).toList ++ arguments, fun given => ?_⟩
        rw [problems_resolve asked, expectedProblems, server]
        simp [environmentProblem_put, Side.setting, Side.foundBefore, arguments]
    | height =>
        refine ⟨arguments, fun given => ?_⟩
        rw [problems_resolve asked, expectedProblems, server, Side.foundBefore, Draft.dimension_problems]
        simp [environmentProblem_put, Side.setting, arguments]
  obtain ⟨back, each⟩ := eachProblem
  have without : (resolve args (env.put side.setting none)).problems = side.foundBefore env ++ back := by
    simp [each none]
  have problems : ∀ given, (resolve args (env.put side.setting (some given))).problems =
      (readPositive given side.setting.envName (side.foundBefore env)).2 ++ back := by
    intro given
    rw [each, readPositive_eq]
    by_cases written : IsDimension given <;> simp [written]
  exact ⟨back, readsAt_of_problems (fun given => exists_ready_iff (resolve_ne_help_iff.mpr asked)) without
    (fun given _ => problems given) fun given _ silent settings h => readDimension_variable silent h⟩

end Variables

/-! ### All texts -/

/-- A text is read as a width or a height exactly if it writes a positive integer of 32 bits: white space around it
aside, perhaps a plus sign and then digits, as many as there may be. The number read is the one written and no problem
is added; with any other text exactly one problem is added, behind those found before and with the label given. The
two options are read so with the labels `Width` and `Height` and the two variables with their names, and for all four
it is seen in the outcome. -/
theorem readPositive_iff :
    (∀ given label problems n,
      readPositive given label problems = (some n, problems) ↔ WritesDimension given n) ∧
    (∀ given label problems,
      readPositive given label problems = (none, problems ++ [.notPositive label]) ↔ ¬ IsDimension given) ∧
    (∀ side : Side,
      (∀ draft given, Draft.assign draft side.setting given =
        side.update draft (readPositive given side.label draft.problems)) ∧
      ∀ env default, Draft.dimension env side.setting default = side.start env default) ∧
    (∀ side before after env, StandsAsOption before before.length → resolve (before ++ after) env ≠ .help →
      ∃ back, ReadsAt side side.label (isFlagLike · = false) (Argument.ofTokens after)
        (fun given => resolve (before ++ (side.tokens given ++ after)) env)
        ((Draft.ofEnvironment env).scan before).problems back) ∧
    ∀ side args env, resolve args env ≠ .help →
      ∃ back, ReadsAt side side.setting.envName (fun _ => True) (Argument.ofTokens args)
        (fun given => resolve args (env.put side.setting given)) (side.foundBefore env) back := by
  refine ⟨?written, ?refused, fun side => ⟨side.assign_eq, side.dimension_eq⟩,
    fun side _ _ _ => exists_readsAt_option side,
    fun side _ _ => exists_readsAt_variable side⟩
  case written =>
    intro given label problems n
    rw [readPositive_eq, ← readDimension_eq_some_iff, Prod.mk.injEq]
    constructor
    · exact And.left
    · intro read
      have written : IsDimension given := ⟨n, readDimension_eq_some_iff.mp read⟩
      exact ⟨read, by simp [written]⟩
  case refused =>
    intro given label problems
    rw [readPositive_eq, ← readDimension_eq_none_iff, Prod.mk.injEq]
    constructor
    · exact And.left
    · intro read
      have refused : ¬ IsDimension given := readDimension_eq_none_iff.mp read
      exact ⟨read, by simp [refused]⟩

/-- The greatest width behind many zeros is read, the next number is not, and neither is a digit of another script in
a variable. -/
theorem readPositive_iff_of_zeros :
    ∃ before after env, StandsAsOption before before.length ∧ resolve (before ++ after) env ≠ .help ∧
      (∃ settings, resolve (before ++ "--width" :: "\t+0000000000002147483647 " :: after) env = .ready settings ∧
        settings.width = 2147483647) ∧
      (resolve (before ++ "--width" :: "2147483648" :: after) env).problems = [.notPositive "Width"] ∧
      (resolve (before ++ after) (env.put .height (some "\u0661"))).problems =
        [.notPositive "FLAPPYBINGUS_CLIENT_HEIGHT"] := by
  let before := ["--title", "-h"]
  let after := ["--height", " 7"]
  let env : Environment := fun _ => none
  have place : StandsAsOption before before.length := standsAsOption_two rfl
  have noHelp : resolve (before ++ after) env ≠ .help := by decide
  have clean : (resolve (before ++ after) env).problems = [] := by decide
  have unset : (resolve (before ++ after) (env.put .height none)).problems = [] := by decide
  obtain ⟨written, refused, _, ofOption, ofVariable⟩ := readPositive_iff
  obtain ⟨_, ofWidth⟩ := ofOption .width before after env place noHelp
  obtain ⟨_, ofHeight⟩ := ofVariable .height (before ++ after) env noHelp
  refine ⟨before, after, env, place, noHelp, ?_, ?_, ?_⟩
  · have read := (written "\t+0000000000002147483647 " "Width"
      ((Draft.ofEnvironment env).scan before).problems 2147483647).mpr (readDimension_eq_some_iff.mp (by decide))
    obtain ⟨settings, ready⟩ := (ofWidth.starts "\t+0000000000002147483647 " (by decide)).mpr
      ⟨⟨_, congrArg Prod.fst read⟩, clean⟩
    have units : Argument.ofTokens after = [.option .height (some " 7")] := by decide
    have length := ofWidth.length _ (by decide) (by simp [units, Side.setting]) settings ready
    exact ⟨settings, ready, (Option.some.inj ((congrArg Prod.fst read).symm.trans length)).symm⟩
  · obtain ⟨front, rfl⟩ := List.append_eq_nil_iff.mp (ofWidth.without.symm.trans clean)
    have problems := ofWidth.problems "2147483648" (by decide)
    rwa [(refused "2147483648" _ _).mpr (by decide), front] at problems
  · obtain ⟨front, rfl⟩ := List.append_eq_nil_iff.mp (ofHeight.without.symm.trans unset)
    have problems := ofHeight.problems "\u0661" trivial
    rwa [(refused "\u0661" _ _).mpr (by decide), front] at problems

end GameClient
