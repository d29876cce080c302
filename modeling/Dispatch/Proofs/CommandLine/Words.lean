import Dispatch.CommandLine
import Dispatch.Proofs.Sequence

/-!
# The words of a command line

A command line is a row of settings: a file, an option with its value attached or behind it, or one of the two
ways to ask for all events. Behind a lone double hyphen only a file can follow. The request for all events stands
for itself wherever it stands, so it can be put in or taken out without any influence on what else is asked for.

## Main definitions

* `Options.Word.Spelled` — how words of a form are spelled
* `Options.Sets` — the words that make one setting
* `Options.Reads` — which words lead from which draft to which
* `Options.AddsVerbose` — one command line is another one with a request for all events

## Main results

* `Options.parseWords_eq_ok_iff` — words are accepted if they can be read as settings
* `Options.exists_addsVerbose`, `Options.exists_quiet` — the request can be put in and taken out
* `Options.verbose_of_addsVerbose` — it changes nothing but whether all events are shown
-/

set_option autoImplicit false

namespace Dispatch.Options

/-! ### Settings -/

/-- The two ways to ask for all events. -/
def verboseFlags : List String := ["-v", "--verbose"]

/-- What a command line tells apart from whether all events are shown. -/
inductive Setting where
  | path (word : String)
  | command (name : String)
  | format (name : String)

/-- What an option with a value sets. -/
def Setting.ofSwitch? : Switch → String → Option Setting
  | .command, value => some (.command value)
  | .format, value => some (.format value)
  | .verbose, _ => none
  | .help, _ => none

/-- Takes a setting. -/
def Draft.set (draft : Draft) : Setting → Except Refusal Draft
  | .path word => draft.setPath word
  | .command name => draft.setCommand name
  | .format name => draft.setFormat name

/-- The draft with the request for all events. -/
def Draft.louder (draft : Draft) : Draft := { draft with verbose := true }

/-- The words that make one setting: a file, or an option with its value. -/
inductive Sets : List String → Setting → Prop
  | file {word : String} (form : Word.classify word = .file) : Sets [word] (.path word)
  | attached {word value : String} {switch : Switch} {setting : Setting}
      (form : Word.classify word = .long switch (some value))
      (takes : Setting.ofSwitch? switch value = some setting) : Sets [word] setting
  | apart {word value : String} {switch : Switch} {setting : Setting}
      (form : Word.classify word = .long switch none)
      (takes : Setting.ofSwitch? switch value = some setting) (proper : isValue value = true) :
      Sets [word, value] setting

/-- The words that lead from a draft to another one. Behind the mark for the end of the options there is room for
one file. -/
inductive Reads : Draft → List String → Draft → Prop
  | done (draft : Draft) : Reads draft [] draft
  | setting {draft next last : Draft} {taken words : List String} {setting : Setting}
      (sets : Sets taken setting) (accepted : draft.set setting = .ok next)
      (read : Reads next words last) : Reads draft (taken ++ words) last
  | verbose {draft last : Draft} {flag : String} {words : List String} (isFlag : flag ∈ verboseFlags)
      (unasked : draft.verbose = false) (read : Reads draft.louder words last) :
      Reads draft (flag :: words) last
  | ended (draft : Draft) : Reads draft ["--"] draft
  | endedByFile {draft next : Draft} {word : String} (accepted : draft.set (.path word) = .ok next) :
      Reads draft ["--", word] next

variable {draft next last : Draft} {word flag value : String} {words taken rest before behind : List String}
  {setting : Setting}

/-! ### The forms of words -/

theorem mem_verboseFlags : flag ∈ verboseFlags ↔ flag = "-v" ∨ flag = "--verbose" := by
  simp [verboseFlags]

theorem classify_of_mem_verboseFlags (isFlag : flag ∈ verboseFlags) :
    Word.classify flag = .short ['v'] ∨ Word.classify flag = .long .verbose none := by
  rcases mem_verboseFlags.mp isFlag with rfl | rfl
  · exact .inl rfl
  · exact .inr (by cbv)

/-- A request for all events is not taken as the value of an option. -/
theorem isValue_of_mem_verboseFlags (isFlag : flag ∈ verboseFlags) : isValue flag = false := by
  rcases mem_verboseFlags.mp isFlag with rfl | rfl <;> rfl

/-- A name without a value attached is the whole name. -/
theorem splitValue_of_bare {name : List Char} (bare : (splitValue name).2 = none) :
    (splitValue name).1 = name := by
  revert bare
  unfold splitValue
  split
  · intro bare
    simp at bare
  · exact fun _ => rfl

/-- How a word of a form is spelled, if nothing is attached to it. -/
def Word.Spelled (spelling : List Char) : Word → Prop
  | .endOfOptions => spelling = ['-', '-']
  | .short letters => letters ≠ [] ∧ spelling = '-' :: letters
  | .long switch none => ∃ name, Switch.ofName? name = some switch ∧ spelling = '-' :: '-' :: name
  | _ => True

theorem Word.spelled_classify (word : String) : (Word.classify word).Spelled word.toList := by
  unfold classify
  split
  · assumption
  · rename_i name _ spelled
    dsimp only
    split
    · rename_i switch named
      cases attached : (splitValue name).2 with
      | some value => trivial
      | none => exact ⟨name, splitValue_of_bare attached ▸ named, spelled⟩
    · trivial
  · rename_i spelled
    exact ⟨List.cons_ne_nil _ _, spelled⟩
  · trivial

theorem eq_of_classify_endOfOptions (form : Word.classify word = .endOfOptions) : word = "--" := by
  have spelled := Word.spelled_classify word
  rw [form] at spelled
  exact String.toList_inj.mp spelled

theorem eq_of_classify_verbose (form : Word.classify word = .long .verbose none) : word = "--verbose" := by
  have spelled := Word.spelled_classify word
  rw [form] at spelled
  obtain ⟨name, named, spelled⟩ := spelled
  have : name = "verbose".toList := by
    unfold Switch.ofName? at named
    split at named <;> simp_all
  exact String.toList_inj.mp (spelled.trans (by rw [this]; rfl))

/-! ### What is read -/

theorem parseWords_setting (sets : Sets taken setting) (draft : Draft) (rest : List String) :
    parseWords draft (taken ++ rest) = draft.set setting >>= fun next => parseWords next rest := by
  cases sets with
  | file form =>
    rw [List.singleton_append, parseWords.eq_def]
    simp only [form]
    rfl
  | @attached word value switch _ form takes =>
    rw [List.singleton_append, parseWords.eq_def]
    simp only [form]
    cases switch <;> cases takes <;> rfl
  | @apart word value switch _ form takes proper =>
    rw [List.cons_append, List.singleton_append, parseWords.eq_def]
    simp only [form]
    cases switch <;> cases takes <;> simp only [proper, if_true] <;> rfl

theorem parseWords_verbose (isFlag : flag ∈ verboseFlags) (draft : Draft) (rest : List String) :
    parseWords draft (flag :: rest) = draft.setVerbose >>= fun next => parseWords next rest := by
  rw [parseWords.eq_def]
  rcases classify_of_mem_verboseFlags isFlag with form | form
  · simp only [form, Draft.setLetters, bind_assoc]
    rfl
  · simp only [form]

theorem setVerbose_eq_ok_iff : draft.setVerbose = .ok next ↔ draft.verbose = false ∧ next = draft.louder := by
  rw [Draft.setVerbose]
  cases asked : draft.verbose with
  | true => simp
  | false => simp [Draft.louder, eq_comm]

/-- Of short options, only the request for all events is accepted, and only once. -/
theorem setLetters_eq_ok {letters : List Char} (accepted : draft.setLetters letters = .ok next) :
    letters = [] ∧ next = draft ∨ letters = ['v'] ∧ draft.verbose = false ∧ next = draft.louder := by
  unfold Draft.setLetters at accepted
  split at accepted
  · exact .inl ⟨rfl, (Except.ok.inj accepted).symm⟩
  · rename_i letters
    obtain ⟨asked, first, further⟩ := bind_eq_ok_iff.mp accepted
    obtain ⟨unasked, rfl⟩ := setVerbose_eq_ok_iff.mp first
    refine .inr ?_
    -- A second request is refused, so no letter follows.
    unfold Draft.setLetters at further
    split at further
    · exact ⟨rfl, unasked, (Except.ok.inj further).symm⟩
    · simp [Draft.setVerbose, Draft.louder, bind, Except.bind] at further
    · simp at further
    · simp at further
  · simp at accepted
  · simp at accepted

theorem path_of_setPath (accepted : draft.setPath word = .ok next) :
    draft.path = none ∧ next.path.isSome := by
  unfold Draft.setPath at accepted
  split at accepted
  · simp at accepted
  · rename_i free
    rw [← Except.ok.inj accepted]
    simp_all

/-- Of files, one is accepted at most. -/
theorem foldlM_setPath_eq_ok {files : List String} (accepted : files.foldlM Draft.setPath draft = .ok next) :
    files = [] ∧ next = draft ∨ ∃ word, files = [word] ∧ draft.setPath word = .ok next := by
  cases files with
  | nil => exact .inl ⟨rfl, (Except.ok.inj accepted).symm⟩
  | cons word files =>
    obtain ⟨named, first, further⟩ := bind_eq_ok_iff.mp accepted
    cases files with
    | nil => exact .inr ⟨word, rfl, first.trans further⟩
    | cons second files =>
      obtain ⟨_, again, -⟩ := bind_eq_ok_iff.mp further
      have taken := (path_of_setPath first).2
      rw [(path_of_setPath again).1] at taken
      simp at taken

theorem reads_of_setting (sets : Sets taken setting)
    (below : ∀ next, parseWords next rest = .ok last → Reads next rest last)
    (accepted : parseWords draft (taken ++ rest) = .ok last) : Reads draft (taken ++ rest) last := by
  rw [parseWords_setting sets, bind_eq_ok_iff] at accepted
  obtain ⟨next, first, further⟩ := accepted
  exact .setting sets first (below next further)

theorem reads_of_verbose (isFlag : flag ∈ verboseFlags)
    (below : ∀ next, parseWords next rest = .ok last → Reads next rest last)
    (accepted : parseWords draft (flag :: rest) = .ok last) : Reads draft (flag :: rest) last := by
  rw [parseWords_verbose isFlag, bind_eq_ok_iff] at accepted
  obtain ⟨next, first, further⟩ := accepted
  obtain ⟨unasked, rfl⟩ := setVerbose_eq_ok_iff.mp first
  exact .verbose isFlag unasked (below _ further)

theorem reads_of_parseWords (accepted : parseWords draft words = .ok last) : Reads draft words last := by
  induction draft, words using parseWords.induct with
  | case1 draft =>
    rw [parseWords] at accepted
    exact Except.ok.inj accepted ▸ .done draft
  | case2 draft word rest form ih => exact reads_of_setting (.file form) ih accepted
  | case3 draft word rest form =>
    obtain rfl := eq_of_classify_endOfOptions form
    rw [parseWords.eq_def] at accepted
    simp only [form] at accepted
    rcases foldlM_setPath_eq_ok accepted with ⟨rfl, rfl⟩ | ⟨word, rfl, named⟩
    · exact .ended last
    · exact .endedByFile named
  | case4 draft word rest letters form ih =>
    rw [parseWords.eq_def] at accepted
    simp only [form] at accepted
    obtain ⟨next, first, further⟩ := bind_eq_ok_iff.mp accepted
    have spelled := Word.spelled_classify word
    rw [form] at spelled
    rcases setLetters_eq_ok first with ⟨rfl, -⟩ | ⟨rfl, unasked, rfl⟩
    · exact absurd rfl spelled.1
    · obtain rfl : word = "-v" := String.toList_inj.mp spelled.2
      exact .verbose (mem_verboseFlags.mpr (.inl rfl)) unasked (ih _ further)
  | case6 draft word rest form ih =>
    obtain rfl := eq_of_classify_verbose form
    exact reads_of_verbose (mem_verboseFlags.mpr (.inr rfl)) ih accepted
  | case7 draft word rest value form ih => exact reads_of_setting (.attached form rfl) ih accepted
  | case8 draft word rest value form ih => exact reads_of_setting (.attached form rfl) ih accepted
  | case10 draft word form value rest proper ih => exact reads_of_setting (.apart form rfl proper) ih accepted
  | case13 draft word form value rest proper ih => exact reads_of_setting (.apart form rfl proper) ih accepted
  -- In the other cases the words are refused.
  | case5 draft word rest form | case9 draft word form | case12 draft word form =>
    rw [parseWords.eq_def] at accepted
    simp [form] at accepted
  | case11 draft word form value rest improper | case14 draft word form value rest improper =>
    rw [parseWords.eq_def] at accepted
    simp [form, improper] at accepted
  | case15 draft word rest =>
    rw [parseWords.eq_def] at accepted
    split at accepted <;> simp_all

theorem parseWords_of_reads (read : Reads draft words last) : parseWords draft words = .ok last := by
  induction read with
  | done draft => rfl
  | setting sets accepted _ ih =>
    rw [parseWords_setting sets, accepted]
    exact ih
  | verbose isFlag unasked _ ih =>
    rw [parseWords_verbose isFlag, setVerbose_eq_ok_iff.mpr ⟨unasked, rfl⟩]
    exact ih
  | ended draft => rfl
  | @endedByFile draft next word accepted =>
    change (draft.set (.path word) >>= fun next => pure next) = .ok next
    rw [bind_pure, accepted]

/-- Words are accepted if and only if they can be read. -/
theorem parseWords_eq_ok_iff : parseWords draft words = .ok last ↔ Reads draft words last :=
  ⟨reads_of_parseWords, parseWords_of_reads⟩

namespace Reads

theorem unique (read : Reads draft words last) (read' : Reads draft words next) : next = last :=
  Except.ok.inj ((parseWords_of_reads read').symm.trans (parseWords_of_reads read))

/-- What follows a setting is read from the draft with the setting. -/
theorem behind_setting (sets : Sets taken setting) (accepted : draft.set setting = .ok next)
    (read : Reads draft (taken ++ rest) last) : Reads next rest last := by
  have further := parseWords_of_reads read
  rw [parseWords_setting sets, accepted] at further
  exact reads_of_parseWords further

/-- A request is accepted if there was none before, and what follows is read from the draft with it. -/
theorem behind_verbose (isFlag : flag ∈ verboseFlags) (read : Reads draft (flag :: rest) last) :
    draft.verbose = false ∧ Reads draft.louder rest last := by
  have accepted := parseWords_of_reads read
  rw [parseWords_verbose isFlag, bind_eq_ok_iff] at accepted
  obtain ⟨_, first, further⟩ := accepted
  obtain ⟨unasked, rfl⟩ := setVerbose_eq_ok_iff.mp first
  exact ⟨unasked, reads_of_parseWords further⟩

/-- Behind the mark for the end of the options there is nothing or a file. -/
theorem behind_mark (read : Reads draft ("--" :: rest) last) :
    rest = [] ∧ last = draft ∨ ∃ word, rest = [word] ∧ draft.setPath word = .ok last :=
  foldlM_setPath_eq_ok (parseWords_of_reads read)

end Reads

/-! ### The request for all events -/

/-- A setting is taken or refused whether or not all events are asked for. -/
theorem set_louder (draft : Draft) (setting : Setting) :
    draft.louder.set setting = (draft.set setting).map Draft.louder := by
  cases setting <;> simp only [Draft.set, Draft.setPath, Draft.setCommand, Draft.setFormat,
    apply_ite (Except.map Draft.louder)] <;> rfl

theorem set_louder_eq_ok_iff : draft.louder.set setting = .ok last ↔
    ∃ next, draft.set setting = .ok next ∧ next.louder = last := by
  rw [set_louder]
  cases draft.set setting <;> simp [Except.map]

theorem verbose_of_set (accepted : draft.set setting = .ok next) : next.verbose = draft.verbose := by
  cases setting <;> simp only [Draft.set, Draft.setPath, Draft.setCommand, Draft.setFormat] at accepted <;>
    split at accepted <;> cases accepted <;> rfl

/-- The request is not taken back. -/
theorem verbose_of_reads (read : Reads draft words last) (asked : draft.verbose = true) : last.verbose = true := by
  induction read with
  | done draft => exact asked
  | setting sets accepted _ ih => exact ih ((verbose_of_set accepted).trans asked)
  | verbose isFlag unasked _ ih => exact ih rfl
  | ended draft => exact asked
  | endedByFile accepted => exact (verbose_of_set accepted).trans asked

/-- Words without a request are read in the same way behind a request. -/
theorem louder_reads (read : Reads draft words last) (unasked : last.verbose = false) :
    Reads draft.louder words last.louder := by
  induction read with
  | done draft => exact .done _
  | setting sets accepted _ ih => exact .setting sets (set_louder_eq_ok_iff.mpr ⟨_, accepted, rfl⟩) (ih unasked)
  | verbose isFlag _ read _ =>
    rw [verbose_of_reads read rfl] at unasked
    simp at unasked
  | ended draft => exact .ended _
  | endedByFile accepted => exact .endedByFile (set_louder_eq_ok_iff.mpr ⟨_, accepted, rfl⟩)

/-- Words that are read behind a request are read in the same way without it. -/
theorem reads_of_louder (read : Reads draft.louder words last) (unasked : draft.verbose = false) :
    ∃ quiet, Reads draft words quiet ∧ quiet.verbose = false ∧ last = quiet.louder := by
  generalize loud : draft.louder = start at read
  induction read generalizing draft with
  | done start => exact ⟨draft, .done draft, unasked, loud.symm⟩
  | setting sets accepted _ ih =>
    obtain ⟨next, taken, rfl⟩ := set_louder_eq_ok_iff.mp (loud ▸ accepted)
    obtain ⟨quiet, read, silent, rfl⟩ := ih ((verbose_of_set taken).trans unasked) rfl
    exact ⟨quiet, .setting sets taken read, silent, rfl⟩
  | verbose isFlag free =>
    rw [← loud] at free
    simp [Draft.louder] at free
  | ended start => exact ⟨draft, .ended draft, unasked, loud.symm⟩
  | endedByFile accepted =>
    obtain ⟨next, taken, rfl⟩ := set_louder_eq_ok_iff.mp (loud ▸ accepted)
    exact ⟨next, .endedByFile taken, (verbose_of_set taken).trans unasked, rfl⟩

/-- A request at the front changes nothing but what it asks for. -/
theorem louder_of_front (isFlag : flag ∈ verboseFlags) (quiet : Reads draft words last)
    (loud : Reads draft (flag :: words) next) : last.verbose = false ∧ next = last.louder := by
  obtain ⟨unasked, further⟩ := loud.behind_verbose isFlag
  obtain ⟨same, read, silent, rfl⟩ := reads_of_louder further unasked
  obtain rfl := quiet.unique read
  exact ⟨silent, rfl⟩

/-- A request does not stand between an option and its value. -/
theorem parseWords_between (sets : Sets (before ++ behind) setting) (isFlag : flag ∈ verboseFlags)
    (begun : before ≠ []) (unfinished : behind ≠ []) :
    parseWords draft (before ++ flag :: rest) ≠ .ok last := by
  obtain ⟨first, before, rfl⟩ := List.exists_cons_of_ne_nil begun
  obtain ⟨second, behind, rfl⟩ := List.exists_cons_of_ne_nil unfinished
  generalize whole : first :: before ++ second :: behind = taken at sets
  cases sets with
  | file form => simp at whole
  | attached form takes => simp at whole
  | @apart word value switch _ form takes proper =>
    obtain ⟨rfl, rfl⟩ : first = word ∧ before = [] := by
      have length := congrArg List.length whole
      simp only [List.cons_append, List.length_cons, List.length_append, List.length_nil] at length
      exact ⟨(List.cons.inj whole).1, List.length_eq_zero_iff.mp (by omega)⟩
    have refused := isValue_of_mem_verboseFlags isFlag
    rw [List.singleton_append, parseWords.eq_def]
    simp only [form]
    cases switch <;> cases takes <;> simp [refused]

/-- A request that is put in anywhere changes nothing but what it asks for. -/
theorem louder_of_inserted (isFlag : flag ∈ verboseFlags) (quiet : Reads draft (before ++ behind) last)
    (named : last.path.isSome) (loud : Reads draft (before ++ flag :: behind) next) :
    last.verbose = false ∧ next = last.louder := by
  generalize whole : before ++ behind = words at quiet
  induction quiet generalizing before with
  | done draft =>
    obtain ⟨rfl, rfl⟩ := List.append_eq_nil_iff.mp whole
    exact louder_of_front isFlag (.done draft) loud
  | @setting draft middle last taken words setting sets accepted read ih =>
    rcases before with _ | ⟨first, before⟩
    · obtain rfl : behind = taken ++ words := whole
      exact louder_of_front isFlag (.setting sets accepted read) loud
    rcases List.append_eq_append_iff.mp whole with ⟨unfinished, rfl, rfl⟩ | ⟨later, divided, rfl⟩
    · -- The words before the request are the first ones of the setting, and perhaps all of them.
      rcases unfinished with _ | ⟨missing, unfinished⟩
      · rw [List.append_nil] at sets
        exact louder_of_front isFlag read (loud.behind_setting sets accepted)
      · exact absurd (parseWords_of_reads loud)
          (parseWords_between sets isFlag (List.cons_ne_nil _ _) (List.cons_ne_nil _ _))
    · rw [divided, List.append_assoc] at loud
      exact ih named (loud.behind_setting sets accepted) rfl
  | @verbose draft last other words isOther unasked read ih =>
    rcases before with _ | ⟨first, before⟩
    · obtain rfl : behind = other :: words := whole
      exact louder_of_front isFlag (.verbose isOther unasked read) loud
    obtain ⟨rfl, rfl⟩ := List.cons.inj whole
    exact ih named (loud.behind_verbose isOther).2 rfl
  | ended draft =>
    rcases before with _ | ⟨first, before⟩
    · obtain rfl : behind = ["--"] := whole
      exact louder_of_front isFlag (.ended draft) loud
    obtain ⟨rfl, rfl, rfl⟩ : first = "--" ∧ before = [] ∧ behind = [] := by simpa using whole
    -- Behind the mark the request would be taken as the file, but there is one already.
    rcases loud.behind_mark with ⟨none, -⟩ | ⟨word, -, taken⟩
    · simp at none
    · rw [(path_of_setPath taken).1] at named
      simp at named
  | @endedByFile draft last word accepted =>
    rcases before with _ | ⟨first, before⟩
    · obtain rfl : behind = ["--", word] := whole
      exact louder_of_front isFlag (.endedByFile accepted) loud
    obtain ⟨rfl, files⟩ : first = "--" ∧ before ++ behind = [word] := List.cons.inj whole
    -- With the request there would be two words behind the mark.
    have two := congrArg List.length files
    rw [List.cons_append] at loud
    rcases loud.behind_mark with ⟨none, -⟩ | ⟨file, single, -⟩
    · simp at none
    · have one := congrArg List.length single
      simp only [List.length_append, List.length_cons, List.length_nil] at one two
      omega

/-- A request can be taken out. -/
theorem exists_reads_without (read : Reads draft words last) (unasked : draft.verbose = false)
    (asked : last.verbose = true) :
    ∃ before flag behind, words = before ++ flag :: behind ∧ flag ∈ verboseFlags ∧
      ∃ quiet, Reads draft (before ++ behind) quiet ∧ quiet.verbose = false ∧ last = quiet.louder := by
  induction read with
  | done draft => simp [unasked] at asked
  | setting sets accepted _ ih =>
    obtain ⟨before, flag, behind, rfl, isFlag, quiet, read, silent, rfl⟩ :=
      ih ((verbose_of_set accepted).trans unasked) asked
    refine ⟨_ ++ before, flag, behind, (List.append_assoc ..).symm, isFlag, quiet, ?_, silent, rfl⟩
    rw [List.append_assoc]
    exact .setting sets accepted read
  | verbose isFlag _ read _ =>
    obtain ⟨quiet, without, silent, rfl⟩ := reads_of_louder read unasked
    exact ⟨[], _, _, rfl, isFlag, quiet, without, silent, rfl⟩
  | ended draft => simp [unasked] at asked
  | endedByFile accepted =>
    rw [verbose_of_set accepted, unasked] at asked
    simp at asked

/-! ### Whole command lines -/

/-- One command line is another one with a request for all events put in somewhere. -/
def AddsVerbose (quiet loud : List String) : Prop :=
  ∃ before flag behind, flag ∈ verboseFlags ∧ quiet = before ++ behind ∧ loud = before ++ flag :: behind

/-- The options with the request for all events. -/
def louder (options : Options) : Options := { options with verbose := true }

variable {options other : Options} {quiet loud : List String}

theorem parse_eq_ok_iff :
    parse words = .ok options ↔ ∃ last, Reads {} words last ∧ last.finish = .ok options := by
  rw [parse, bind_eq_ok_iff]
  simp only [parseWords_eq_ok_iff]

theorem finish_louder (draft : Draft) : draft.louder.finish = draft.finish.map louder := by
  unfold Draft.finish
  cases named : draft.path <;> simp [Draft.louder, named, Except.map, louder]

theorem finish_eq_ok (finished : draft.finish = .ok options) :
    draft.path.isSome ∧ options.verbose = draft.verbose := by
  unfold Draft.finish at finished
  split at finished
  · simp at finished
  · rename_i named
    rw [← Except.ok.inj finished, named]
    exact ⟨rfl, rfl⟩

/-- A request can be put in front of a command line that has none. -/
theorem exists_addsVerbose (accepted : parse words = .ok options) (silent : options.verbose = false) :
    ∃ loud, AddsVerbose words loud ∧ parse loud = .ok options.louder := by
  obtain ⟨last, read, finished⟩ := parse_eq_ok_iff.mp accepted
  have unasked : last.verbose = false := (finish_eq_ok finished).2 ▸ silent
  have isFlag : "-v" ∈ verboseFlags := mem_verboseFlags.mpr (.inl rfl)
  refine ⟨"-v" :: words, ⟨[], "-v", words, isFlag, rfl, rfl⟩, parse_eq_ok_iff.mpr ?_⟩
  refine ⟨last.louder, .verbose isFlag rfl (louder_reads read unasked), ?_⟩
  rw [finish_louder, finished]
  rfl

/-- A request can be taken out of a command line that has one. -/
theorem exists_quiet (accepted : parse words = .ok options) (asked : options.verbose = true) :
    ∃ quiet other, AddsVerbose quiet words ∧ parse quiet = .ok other ∧ other.verbose = false ∧
      options = other.louder := by
  obtain ⟨last, read, finished⟩ := parse_eq_ok_iff.mp accepted
  obtain ⟨before, flag, behind, rfl, isFlag, without, readWithout, silent, rfl⟩ :=
    exists_reads_without read rfl ((finish_eq_ok finished).2 ▸ asked)
  rw [finish_louder] at finished
  cases left : without.finish with
  | error refusal => simp [left, Except.map] at finished
  | ok other =>
    rw [left] at finished
    exact ⟨before ++ behind, other, ⟨before, flag, behind, isFlag, rfl, rfl⟩,
      parse_eq_ok_iff.mpr ⟨without, readWithout, left⟩, (finish_eq_ok left).2.trans silent,
      (Except.ok.inj finished).symm⟩

/-- Two command lines of which one is the other one with a request differ in nothing but the request. -/
theorem verbose_of_addsVerbose (adds : AddsVerbose quiet loud) (accepted : parse quiet = .ok options)
    (accepted' : parse loud = .ok other) : options.verbose = false ∧ other = options.louder := by
  obtain ⟨before, flag, behind, isFlag, rfl, rfl⟩ := adds
  obtain ⟨last, read, finished⟩ := parse_eq_ok_iff.mp accepted
  obtain ⟨last', read', finished'⟩ := parse_eq_ok_iff.mp accepted'
  obtain ⟨named, verbose⟩ := finish_eq_ok finished
  obtain ⟨silent, rfl⟩ := louder_of_inserted isFlag read named read'
  rw [finish_louder, finished] at finished'
  exact ⟨verbose.trans silent, (Except.ok.inj finished').symm⟩

end Dispatch.Options
