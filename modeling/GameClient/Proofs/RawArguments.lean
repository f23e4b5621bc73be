import GameClient.Proofs.Lossy
import GameClient.Proofs.Trace
/-!
Arguments as the system gives them. If all of them encode texts, the client runs with those texts. Otherwise
nothing of what they say counts: each argument that encodes no text is reported, with its invalid parts replaced,
and the replacements show that it is none of the options.
-/

namespace GameClient

open Text

/-- The bytes of a text. -/
def bytesOf (text : String) : List UInt8 :=
  Utf8.encode text.toList

/-- The bytes encode no text. -/
def IsGarbled (bytes : List UInt8) : Prop :=
  ¬ ∃ text, bytes = Utf8.encode text

theorem isGarbled_iff {bytes : List UInt8} : IsGarbled bytes ↔ Utf8.decode? bytes = none := by
  rw [Utf8.decode?_eq_none_iff, IsGarbled, not_exists]

instance : DecidablePred IsGarbled := fun _ => decidable_of_iff _ isGarbled_iff.symm

theorem not_isGarbled_bytesOf (text : String) : ¬ IsGarbled (bytesOf text) := fun garbled =>
  garbled ⟨text.toList, rfl⟩

/-- Bytes that are not garbled are those of a text. -/
theorem exists_bytesOf_eq {bytes : List UInt8} (h : ¬ IsGarbled bytes) : ∃ text, bytes = bytesOf text := by
  obtain ⟨text, rfl⟩ := not_not.mp h
  exact ⟨String.ofList text, by rw [bytesOf, String.toList_ofList]⟩

/-- The text that is shown for bytes. -/
def shownFor (bytes : List UInt8) : String :=
  String.ofList (Utf8.decodeLossy bytes)

/-- What is shown for garbled bytes is no option: no option holds the character that replaces an invalid
part. -/
theorem not_option_shownFor {bytes : List UInt8} (garbled : IsGarbled bytes) :
    Setting.ofFlag? (shownFor bytes) = none ∧ Switch.ofToken? (shownFor bytes) = none := by
  have replaced : '\ufffd' ∈ (shownFor bytes).toList := by
    rw [shownFor, String.toList_ofList]
    exact Utf8.replacement_mem_decodeLossy garbled
  constructor
  · have flags : ∀ setting : Setting, '\ufffd' ∉ setting.flag.toList := by
      intro setting
      cases setting <;> decide
    rw [Option.eq_none_iff_forall_ne_some]
    intro setting found
    rw [← Setting.flag_of_ofFlag? found] at replaced
    exact flags setting replaced
  · have tokens : ∀ token ∈ Switch.tokens, '\ufffd' ∉ token.toList := by decide
    rw [Switch.ofToken?_eq_none_iff]
    intro known
    exact tokens _ known replaced

namespace Program

theorem readArgument_bytesOf (text : String) : readArgument (bytesOf text) = .ok text := by
  have decoded : Utf8.decode? (bytesOf text) = some text.toList := Utf8.decode?_eq_some_iff.mpr rfl
  rw [readArgument, decoded]
  exact congrArg Except.ok String.ofList_toList

theorem readArgument_of_isGarbled {bytes : List UInt8} (garbled : IsGarbled bytes) :
    readArgument bytes = .error (.unknownOption (shownFor bytes)) := by
  rw [readArgument, isGarbled_iff.mp garbled]
  rfl

/-- The arguments that are reported are the garbled ones, in their order. -/
theorem unreadable_eq (args : List (List UInt8)) :
    unreadable args = (args.filter IsGarbled).map fun bytes => .unknownOption (shownFor bytes) := by
  rw [← List.filterMap_eq_map, List.filterMap_filter, unreadable]
  congr 1
  funext bytes
  by_cases garbled : IsGarbled bytes
  · simp [readArgument_of_isGarbled garbled, garbled]
  · obtain ⟨text, rfl⟩ := exists_bytesOf_eq garbled
    simp [readArgument_bytesOf, garbled]

theorem readable_map_bytesOf (texts : List String) : readable (texts.map bytesOf) = texts := by
  rw [readable, List.filterMap_map]
  simp [readArgument_bytesOf]

/-- With the bytes of texts the program runs as with the texts. -/
theorem runRaw_map_bytesOf (texts : List String) (env : Environment) :
    runRaw (texts.map bytesOf) env = run texts env := by
  have nothing : unreadable (texts.map bytesOf) = [] := by
    simp [unreadable_eq, not_isGarbled_bytesOf]
  rw [runRaw, nothing, readable_map_bytesOf]

/-- A garbled argument is reported, whatever the others are and whatever the environment says. -/
theorem runRaw_of_isGarbled {args : List (List UInt8)} (garbled : ∃ bytes ∈ args, IsGarbled bytes)
    (env : Environment) : runRaw args env = report (unreadable args) ∧ unreadable args ≠ [] := by
  have something : unreadable args ≠ [] := by
    obtain ⟨bytes, member, isGarbled⟩ := garbled
    rw [unreadable_eq, ne_eq, List.map_eq_nil_iff]
    exact List.ne_nil_of_mem (List.mem_filter.mpr ⟨member, by simpa using isGarbled⟩)
  refine ⟨?_, something⟩
  rw [runRaw]
  cases found : unreadable args with
  | nil => exact absurd found something
  | cons problem rest => rfl

end Program

/-- If all arguments encode texts, the program runs with those texts. Otherwise it reports just the arguments
that encode none, in their order, and does nothing else, whatever the environment says. What is shown for such an
argument are its characters and, for each of its invalid parts, one replacement; there is at least one, so that
it is none of the options. -/
theorem runRaw_reads_or_reports (args : List (List UInt8)) :
    ((∀ bytes ∈ args, ¬ IsGarbled bytes) → ∃ texts, args = texts.map bytesOf ∧
      ∀ env, Program.runRaw args env = Program.run texts env) ∧
    ((∃ bytes ∈ args, IsGarbled bytes) → ∀ env,
      Program.runRaw args env =
          ⟨.err "FlappyBingus Desktop Client failed to start:" ::
            (args.filter IsGarbled).map (fun bytes =>
              .err (" - Unknown option: " ++ String.ofList (Utf8.decodeLossy bytes))) ++
            [.err "", .err Help.text], 2⟩ ∧
        (Program.runRaw args env).outs = [] ∧ (Program.runRaw args env).window? = none) ∧
    ∀ bytes, IsGarbled bytes →
      (∃ found, Utf8.Cuts bytes found ∧
        Utf8.decodeLossy bytes = found.map Utf8.Piece.orReplacement) ∧
      '\ufffd' ∈ Utf8.decodeLossy bytes ∧
      Setting.ofFlag? (String.ofList (Utf8.decodeLossy bytes)) = none ∧
      Switch.ofToken? (String.ofList (Utf8.decodeLossy bytes)) = none := by
  refine ⟨?texts, ?garbled, ?shown⟩
  case texts =>
    intro every
    obtain ⟨texts, rfl⟩ := Utf8.exists_eq_map_iff.mpr fun bytes member =>
      exists_bytesOf_eq (every bytes member)
    exact ⟨texts, rfl, Program.runRaw_map_bytesOf texts⟩
  case garbled =>
    intro garbled env
    obtain ⟨reported, nonempty⟩ := Program.runRaw_of_isGarbled garbled env
    obtain ⟨silent, windowless⟩ := (Goes.refused_report nonempty).outs_of_code_eq_two rfl
    rw [reported]
    refine ⟨?_, silent, windowless⟩
    rw [Program.report_eq, Program.unreadable_eq, List.map_map]
    rfl
  case shown =>
    intro bytes garbled
    exact ⟨⟨_, Utf8.cuts_pieces bytes, rfl⟩, Utf8.replacement_mem_decodeLossy garbled,
      not_option_shownFor garbled⟩

/-- Of four arguments two are garbled: a character that is cut short in front of a flag, and a surrogate, which
is three invalid parts. Help is not given, though it is asked for. -/
theorem runRaw_reads_or_reports_of_surrogate :
    let args := [bytesOf "--help", [0xE2, 0x82, 0x2D, 0x2D], bytesOf "Día", [0xED, 0xA0, 0x80]]
    (∀ env, Program.runRaw args env =
      ⟨[.err "FlappyBingus Desktop Client failed to start:", .err " - Unknown option: �--",
        .err " - Unknown option: ���", .err "", .err Help.text], 2⟩) ∧
      Utf8.Cuts [0xE2, 0x82, 0x2D, 0x2D] [.invalid, .char '-', .char '-'] ∧
      Switch.ofToken? (String.ofList (Utf8.decodeLossy [0xE2, 0x82, 0x2D, 0x2D])) = none ∧
      ∃ texts, [bytesOf "--help", bytesOf "Día"] = texts.map bytesOf ∧
        ∀ env, Program.runRaw [bytesOf "--help", bytesOf "Día"] env = Program.run texts env := by
  intro args
  obtain ⟨_, garbled, shown⟩ := runRaw_reads_or_reports args
  obtain ⟨texts, _, _⟩ := runRaw_reads_or_reports [bytesOf "--help", bytesOf "Día"]
  have isGarbled : IsGarbled [0xE2, 0x82, 0x2D, 0x2D] := by decide
  obtain ⟨⟨found, cuts, _⟩, _, _, noSwitch⟩ := shown _ isGarbled
  have pieces := Utf8.cuts_iff.mp cuts
  have same : Utf8.pieces [0xE2, 0x82, 0x2D, 0x2D] = [.invalid, .char '-', .char '-'] := by decide
  rw [same] at pieces
  subst pieces
  refine ⟨fun env => ?_, cuts, noSwitch, texts (by decide)⟩
  obtain ⟨report, _⟩ := garbled (by decide) env
  have reported : args.filter IsGarbled = [[0xE2, 0x82, 0x2D, 0x2D], [0xED, 0xA0, 0x80]] := by decide
  rw [report, reported]
  rfl

end GameClient
