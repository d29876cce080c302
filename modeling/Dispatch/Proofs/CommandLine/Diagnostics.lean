import Dispatch.Proofs.CommandLine.Words
import Dispatch.Proofs.Compile.Loudness
import Dispatch.Proofs.Manifest.Acceptance

/-!
# Diagnostics

How much is told of a run influences nothing else. Whether second terminals are warnings decides about the levels
of their reports, and whether all events are asked for decides about the lines in front of the output. The error,
the exit code, the trie and the way in which it is printed are the same. Without the request and without warnings,
what is printed is the trie and nothing else: of the two events that are reported whenever a manifest is loaded,
one is not of note, and the other one is not reported by the library.

## Main definitions

* `Report.Quieter` — an answer that shows only what is of note in another one

## Main results

* `Options.run_louder` — the request for all events shows in the events alone
* `Options.exists_output_of_exitCode` — what is shown and printed when nothing fails
* `Options.shown_eq_nil` — nothing is shown if there are no warnings
* `Options.diagnostics_keep_outcome` — diagnostics never change the outcome
-/

set_option autoImplicit false

namespace Dispatch

/-- An answer is another one of which only the events of note are shown. -/
structure Report.Quieter (quiet loud : Report) : Prop where
  exitCode_eq : quiet.exitCode = loud.exitCode
  failure_eq : quiet.failure = loud.failure
  output_eq : quiet.output = loud.output
  events_eq : quiet.events = loud.events.filter (·.level.isNotable)

/-! ### What is shown -/

theorem Level.isNotable_eq (level : Level) : level.isNotable = decide (Level.info.rank ≤ level.rank) := by
  cases level <;> rfl

namespace Directive

variable (target : String) (event : Event)

/-- From the lowest level on, the target alone decides. -/
theorem admits_trace : admits ⟨target, .trace⟩ event = target.toList.isPrefixOf event.target.toList := by
  have lowest : decide (Level.trace.rank ≤ event.level.rank) = true := decide_eq_true (Nat.zero_le _)
  rw [admits, lowest, Bool.and_true]

theorem admits_info :
    admits ⟨target, .info⟩ event =
      (event.level.isNotable && target.toList.isPrefixOf event.target.toList) := by
  rw [admits, Level.isNotable_eq, Bool.and_comm]

end Directive

namespace Options

variable {options : Options} {read : Toml.DocumentReader} {bytes : Option ByteArray} {text : String}
  {manifest : Manifest}

/-- On request, everything that the library reports is shown. -/
theorem shown_louder (options : Options) (events : List Event) :
    options.louder.shown events =
      events.filter fun event => "command_graph".toList.isPrefixOf event.target.toList :=
  List.filter_congr fun event _ => Directive.admits_trace "command_graph" event

/-- Without the request, what is of note among that is shown. -/
theorem shown_of_silent (silent : options.verbose = false) (events : List Event) :
    options.shown events = (options.louder.shown events).filter (·.level.isNotable) := by
  have directive : options.directive = ⟨"command_graph", .info⟩ := by simp [directive, silent]
  rw [shown_louder, shown, directive, List.filter_filter]
  exact List.filter_congr fun event _ => Directive.admits_info "command_graph" event

/-- The request for all events shows in the events alone. -/
theorem run_louder (silent : options.verbose = false) (bytes : Option ByteArray) (read : Toml.DocumentReader) :
    (options.run bytes read).Quieter (options.louder.run bytes read) := by
  have compiles (manifest : Manifest) : options.louder.compile manifest = options.compile manifest := rfl
  have loads (manifest : Manifest) : options.louder.loadEvents manifest = options.loadEvents manifest := rfl
  simp only [run, compiles, loads, shown_of_silent silent]
  -- Both take the same way to the end, and differ there in the events alone.
  cases Source.text bytes with
  | error failure => exact ⟨rfl, rfl, rfl, rfl⟩
  | ok text =>
    dsimp only
    cases Manifest.ofText text read with
    | error error => exact ⟨rfl, rfl, rfl, rfl⟩
    | ok manifest =>
      dsimp only
      cases options.compile manifest with
      | error failure => exact ⟨rfl, rfl, rfl, rfl⟩
      | ok compilation =>
        dsimp only
        cases compilation.result with
        | error error => exact ⟨rfl, rfl, rfl, rfl⟩
        | ok trie => exact ⟨rfl, rfl, rfl, rfl⟩

/-- If nothing fails, then something was loaded and compiled; what is shown is selected from what was reported
of both, and the output is the trie in the format that is asked for. -/
theorem exists_output_of_exitCode (successful : (options.run bytes read).exitCode = 0) :
    ∃ text manifest compilation trie, Source.text bytes = .ok text ∧
      Manifest.ofText text read = .ok manifest ∧ options.compile manifest = .ok compilation ∧
      compilation.result = .ok trie ∧
      ∀ other : Options, other.path = options.path → other.command = options.command →
        (other.run bytes read).events =
            other.shown (options.loadEvents manifest ++ compilation.log.toList) ∧
          (other.run bytes read).output = other.render trie := by
  -- Every step that can fail would have ended with another exit code.
  cases loaded : Source.text bytes with
  | error failure => simp [run, loaded, Report.ofFailure] at successful
  | ok text =>
    cases accepted : Manifest.ofText text read with
    | error error => simp [run, loaded, accepted, Report.ofFailure] at successful
    | ok manifest =>
      cases compiled : options.compile manifest with
      | error failure => simp [run, loaded, accepted, compiled, Report.ofFailure] at successful
      | ok compilation =>
        cases ended : compilation.result with
        | error error => simp [run, loaded, accepted, compiled, ended, Report.ofFailure] at successful
        | ok trie =>
          refine ⟨text, manifest, compilation, trie, rfl, accepted, compiled, ended, ?_⟩
          intro other samePath sameCommand
          have compiled' : other.compile manifest = .ok compilation := by
            rw [← compiled, compile, compile, sameCommand]
          have loads : other.loadEvents manifest = options.loadEvents manifest := by
            rw [loadEvents, loadEvents, samePath]
          simp only [run, loaded, accepted, compiled', loads, ended, and_self]

/-- Nothing is shown of a manifest that does not ask for warnings. That it was loaded is not reported by the
library, and everything else is not of note. -/
theorem shown_eq_nil (silent : options.verbose = false) (calm : manifest.settings.warnOnDuplicate = false)
    {compilation : Compilation Permission Label} (compiled : options.compile manifest = .ok compilation) :
    options.shown (options.loadEvents manifest ++ compilation.log.toList) = [] := by
  rw [shown_of_silent silent, shown_louder, List.filter_filter, List.filter_eq_nil_iff]
  intro event mem
  rw [Bool.and_eq_true, not_and_or, Bool.not_eq_true]
  rcases List.mem_append.mp mem with loading | reported
  · rcases List.mem_pair.mp loading with rfl | rfl
    · exact .inl rfl
    · exact .inr (by simp [Event.target])
  · rcases options.asksFor_or_absent manifest with ⟨unit, asked⟩ | ⟨name, named, absent⟩
    · rw [compile_of_asksFor asked] at compiled
      obtain rfl := Except.ok.inj compiled
      exact .inl (unit.not_isNotable_of_mem calm reported)
    · simp [compile_of_absent named absent] at compiled

/-- Diagnostics never change the outcome. Compilations of the same commands that differ in loudness end with the
same error or with the same trie, and report the same but for the level of second terminals. The request for all
events can be put into every command line that is accepted without one, and taken out of every one that has one;
and whatever the file is and however documents are read, the program then answers with the same exit code and
the same failure, and the one shows what is of note among what the other one shows. If nothing fails, both print
lines of the log, however the log writes them, and then the same trie: as JSON if that is asked for, and otherwise
as an outline. The lines are about what the library reports, and without the request about what of this is of note.
Without the request and without warnings there are no such lines. -/
theorem diagnostics_keep_outcome :
    (∀ (γ ε : Type) (unit : CompileUnit γ ε) (precedence : Precedence) (warns otherWarns : Bool),
      (unit.compile ⟨precedence, warns⟩).result = (unit.compile ⟨precedence, otherWarns⟩).result ∧
        List.Forall₂ (Event.AgreeButLevel warns otherWarns) (unit.compile ⟨precedence, warns⟩).log.toList
          (unit.compile ⟨precedence, otherWarns⟩).log.toList) ∧
    (∀ words options, parse words = .ok options →
      (options.verbose = false → ∃ loud, AddsVerbose words loud ∧ parse loud = .ok options.louder) ∧
      (options.verbose = true → ∃ quiet other, AddsVerbose quiet words ∧ parse quiet = .ok other ∧
        other.verbose = false ∧ options = other.louder)) ∧
    ∀ quiet loud options other, AddsVerbose quiet loud → parse quiet = .ok options → parse loud = .ok other →
      other = options.louder ∧
      ∀ (read : Toml.DocumentReader) bytes, (options.run bytes read).Quieter (other.run bytes read) ∧
        ((options.run bytes read).exitCode = 0 →
          ∃ text manifest compilation trie, Source.text bytes = .ok text ∧
            Manifest.ofText text read = .ok manifest ∧ options.compile manifest = .ok compilation ∧
            compilation.result = .ok trie ∧
            let reported := .readManifest manifest.commands.length ::
              .loaded manifest.commands.length options.path :: compilation.log.toList
            let library := reported.filter fun event => "command_graph".toList.isPrefixOf event.target.toList
            let linesOf (line : Nat → Event → String) (events : List Event) :=
              String.join (events.mapIdx fun earlier event => line earlier event ++ "\n")
            let rendering :=
              if options.format = "json" then trie.layout.toJson.pretty ++ "\n" else trie.text
            ∀ line : Nat → Event → String,
              (options.run bytes read).text line =
                linesOf line (library.filter (·.level.isNotable)) ++ rendering ∧
              (other.run bytes read).text line = linesOf line library ++ rendering ∧
              (manifest.settings.warnOnDuplicate = false →
                (options.run bytes read).text line = rendering)) := by
  refine ⟨?_, ?_, ?_⟩
  · intro γ ε unit precedence warns otherWarns
    obtain ⟨same, logs⟩ := unit.compile_eqButLoudness precedence warns otherWarns
    exact ⟨same, logs.imp fun _ _ retold => retold.agreeButLevel⟩
  · intro words options accepted
    exact ⟨exists_addsVerbose accepted, exists_quiet accepted⟩
  · intro quiet loud options other adds accepted accepted'
    obtain ⟨silent, rfl⟩ := verbose_of_addsVerbose adds accepted accepted'
    refine ⟨rfl, fun read bytes => ⟨run_louder silent bytes read, fun successful => ?_⟩⟩
    obtain ⟨text, manifest, compilation, trie, loaded, ofText, compiled, ended, answers⟩ :=
      exists_output_of_exitCode successful
    refine ⟨text, manifest, compilation, trie, loaded, ofText, compiled, ended, ?_⟩
    intro reported library linesOf rendering line
    obtain ⟨shown, printed⟩ := answers options rfl rfl
    obtain ⟨shown', printed'⟩ := answers options.louder rfl rfl
    rw [shown_louder] at shown'
    have quietly : options.shown (options.loadEvents manifest ++ compilation.log.toList) =
        library.filter (·.level.isNotable) := by
      rw [shown_of_silent silent, shown_louder]
      rfl
    refine ⟨?_, ?_, ?_⟩
    · rw [Report.text, Report.logText, shown, quietly, printed]
      rfl
    · rw [Report.text, Report.logText, shown', printed']
      rfl
    · intro calm
      rw [Report.text, Report.logText, shown, shown_eq_nil silent calm compiled, printed]
      exact String.empty_append

/-- The trie of the sample as an outline. -/
def sampleOutline : String := "(root)\n  admin [guard]\n    stop [guard, exec]\n"

/-- The trie of the sample as JSON. -/
def sampleJson : String :=
  String.join <| List.map (· ++ "\n")
    ["\x7b", "  \"has_guard\": false,", "  \"has_executor\": false,", "  \"children\": [", "    \x7b",
      "      \"argument\": \x7b", "        \"type\": \"literal\",", "        \"text\": \"admin\"", "      \x7d,",
      "      \"has_guard\": true,", "      \"has_executor\": false,", "      \"children\": [", "        \x7b",
      "          \"argument\": \x7b", "            \"type\": \"literal\",", "            \"text\": \"stop\"",
      "          \x7d,", "          \"has_guard\": true,", "          \"has_executor\": true", "        \x7d",
      "      ]", "    \x7d", "  ]", "\x7d"]

theorem sample_rendered {trie : Trie Permission Label}
    (compiled : Manifest.sampleManifest.compile.result = .ok trie) :
    trie.text = sampleOutline ∧ trie.layout.toJson.pretty ++ "\n" = sampleJson := by
  have evaluated : Manifest.sampleManifest.compile.result.map
      (fun trie => (trie.text, trie.layout.toJson.pretty ++ "\n")) = .ok (sampleOutline, sampleJson) := by
    decide +kernel
  rw [compiled] at evaluated
  exact Prod.mk.inj (Except.ok.inj evaluated)

/-- Of what is reported about the sample, the log shows everything but that the file was loaded. -/
theorem sample_shown :
    ((.readManifest 1 :: .loaded 1 "sample.toml" :: Manifest.sampleManifest.compile.log.toList).filter
        fun event => "command_graph".toList.isPrefixOf event.target.toList) =
      [.readManifest 1, .createdNode ⟨0, by decide⟩ ⟨1, by decide⟩ (.literal "admin"),
        .createdNode ⟨1, by decide⟩ ⟨2, by decide⟩ (.literal "stop"), .merged 1 3 2] := by
  decide +kernel

/-- With the file of the sample, the program prints the trie and nothing else, as an outline or as JSON, and the
same behind four lines of the log if all events are asked for. -/
theorem sample_printed :
    parse ["sample.toml"] = .ok ⟨"sample.toml", none, "text", false⟩ ∧
    parse ["sample.toml", "-v"] = .ok ⟨"sample.toml", none, "text", true⟩ ∧
    parse ["--format=json", "sample.toml"] = .ok ⟨"sample.toml", none, "json", false⟩ ∧
    parse ["--format=json", "--verbose", "sample.toml"] = .ok ⟨"sample.toml", none, "json", true⟩ ∧
    let file := some Manifest.sampleText.toUTF8
    ∀ line : Nat → Event → String,
      let lines := String.join
        [line 0 (.readManifest 1) ++ "\n",
          line 1 (.createdNode ⟨0, by decide⟩ ⟨1, by decide⟩ (.literal "admin")) ++ "\n",
          line 2 (.createdNode ⟨1, by decide⟩ ⟨2, by decide⟩ (.literal "stop")) ++ "\n",
          line 3 (.merged 1 3 2) ++ "\n"]
      (run ⟨"sample.toml", none, "text", false⟩ file).text line = sampleOutline ∧
      (run ⟨"sample.toml", none, "text", true⟩ file).text line = lines ++ sampleOutline ∧
      (run ⟨"sample.toml", none, "json", false⟩ file).text line = sampleJson ∧
      (run ⟨"sample.toml", none, "json", true⟩ file).text line = lines ++ sampleJson := by
  have accepted : Manifest.ofText Manifest.sampleText = .ok Manifest.sampleManifest :=
    Manifest.ofText_eq_ok_iff.mpr ⟨Manifest.sample, Manifest.sample_decoded, rfl, .cons rfl .nil⟩
  have loaded := Source.text_toUTF8 Manifest.sampleText
  have quiet : parse ["sample.toml"] = .ok ⟨"sample.toml", none, "text", false⟩ := by decide +kernel
  have loud : parse ["sample.toml", "-v"] = .ok ⟨"sample.toml", none, "text", true⟩ := by decide +kernel
  have quiet' : parse ["--format=json", "sample.toml"] = .ok ⟨"sample.toml", none, "json", false⟩ := by
    decide +kernel
  have loud' : parse ["--format=json", "--verbose", "sample.toml"] = .ok ⟨"sample.toml", none, "json", true⟩ := by
    decide +kernel
  have adds : AddsVerbose ["sample.toml"] ["sample.toml", "-v"] :=
    ⟨["sample.toml"], "-v", [], mem_verboseFlags.mpr (.inl rfl), rfl, rfl⟩
  have adds' : AddsVerbose ["--format=json", "sample.toml"] ["--format=json", "--verbose", "sample.toml"] :=
    ⟨["--format=json"], "--verbose", ["sample.toml"], mem_verboseFlags.mpr (.inr rfl), rfl, rfl⟩
  have fits : (CompileUnit.together Manifest.sampleManifest.commands).nodeCount ≤ NodeId.capacity := by decide
  have usable : (CompileUnit.together Manifest.sampleManifest.commands).Usable :=
    Manifest.offence?_of_ofText accepted
  obtain ⟨trie, compiled⟩ : ∃ trie, Manifest.sampleManifest.compile.result = .ok trie :=
    (CompileUnit.exists_compile_eq_ok_iff {} (.together Manifest.sampleManifest.commands)).mpr ⟨usable, fits⟩
  refine ⟨quiet, loud, quiet', loud', ?_⟩
  intro file line lines
  obtain ⟨inText, inJson⟩ := sample_rendered compiled
  -- The two formats are printed alike, so this is said once for both.
  have printed (words words' : List String) (format : String) (adds : AddsVerbose words words')
      (quiet : parse words = .ok ⟨"sample.toml", none, format, false⟩)
      (loud : parse words' = .ok ⟨"sample.toml", none, format, true⟩) :
      let rendering := if format = "json" then sampleJson else sampleOutline
      (run ⟨"sample.toml", none, format, false⟩ file).text line = rendering ∧
        (run ⟨"sample.toml", none, format, true⟩ file).text line = lines ++ rendering := by
    obtain ⟨-, answers⟩ := diagnostics_keep_outcome.2.2 _ _ _ _ adds quiet loud
    have successful : (run ⟨"sample.toml", none, format, false⟩ file).exitCode = 0 := by
      rw [exitCode_run, failure_run loaded accepted]
      simp only [compile, compiled]
    obtain ⟨text, manifest, compilation, same, loaded', accepted', asked, ended, printed⟩ :=
      (answers _ _).2 successful
    -- The file, its manifest and the trie are those of the sample.
    obtain rfl := Except.ok.inj (loaded.symm.trans loaded')
    obtain rfl := Except.ok.inj (accepted.symm.trans accepted')
    obtain rfl : Manifest.sampleManifest.compile = compilation := Except.ok.inj asked
    obtain rfl := Except.ok.inj (compiled.symm.trans ended)
    obtain ⟨-, behindLog, alone⟩ := printed line
    rw [← inText, ← inJson]
    refine ⟨alone rfl, behindLog.trans ?_⟩
    dsimp only
    rw [show Manifest.sampleManifest.commands.length = 1 from rfl, sample_shown]
    rfl
  obtain ⟨alone, behindLog⟩ := printed _ _ _ adds quiet loud
  obtain ⟨alone', behindLog'⟩ := printed _ _ _ adds' quiet' loud'
  exact ⟨alone, behindLog, alone', behindLog'⟩

end Options

end Dispatch
