import ApiScribe.CommandLine.Run
import ApiScribe.Proofs.Client.Walk
import ApiScribe.Proofs.Document.Readable
import ApiScribe.Proofs.Document.Stored
import ApiScribe.Proofs.FileSystem.Changes
import ApiScribe.Proofs.FileSystem.Paths
import ApiScribe.Proofs.Text.Controls

set_option autoImplicit false

/-! # The command `generate` and the library

The program does what a caller of the library would do with the same file: it reports a document
that is refused in the words of the library, shows the client, or writes it to the file that is
asked for, and leaves everything else alone (`FollowsLibrary`). The library is given the path of the
schema in normal form, as the program has it.

There is one difference. What the program reports or shows is echoed, and on the way loses its
terminal control sequences; an unpaired half is reported as its escape, and a client that holds one
is not shown at all. So a run agrees with the library to the letter exactly if that text is without
both (`run_followsLibrary`); a client that is written to a file is always complete. -/

namespace ApiScribe.CommandLine

variable {fs : FileSystem} {arguments : List String} {job : Job}

/-! ## Arguments that ask for a job -/

/-- The arguments call `generate` with one schema and without asking for help, and their options
    are those of the job. -/
def Requests (arguments : List String) (job : Job) : Prop :=
  ∃ general rest settings,
    readArguments Command.program.options false arguments = .ok (general, "generate" :: rest) ∧
      readArguments Command.generate.options true rest = .ok (settings, [job.schema]) ∧
      isSet general helpOption = false ∧ isSet settings helpOption = false ∧
      job = ⟨job.schema, lastValue? settings outputOption, !isSet settings noImportOption,
        isSet general verboseOption⟩

/-- The arguments of a plain call. -/
def Job.call (job : Job) : List String :=
  "generate" :: job.schema ::
    ((job.output.map fun output => ["-o", output]).getD [] ++
      if job.importsTransport then [] else ["--no-import"])

theorem readArguments_word {specs : List OptionSpec} {word : String}
    (hword : word.toList.take 1 ≠ ['-']) {rest others : List String} {settings : List Setting}
    (hrest : readArguments specs true rest = .ok (settings, others)) :
    readArguments specs true (word :: rest) = .ok (settings, word :: others) := by
  have hdashes : word ≠ "--" := by
    intro h
    rw [h] at hword
    exact hword (by decide)
  unfold readArguments at hrest ⊢
  rw [readPending, if_neg hdashes, if_neg (by simp [hword]), if_pos rfl, hrest]

theorem readArguments_output {rest others : List String} {settings : List Setting}
    (hrest : readArguments Command.generate.options true rest = .ok (settings, others))
    (output : String) :
    readArguments Command.generate.options true ("-o" :: output :: rest) =
      .ok (⟨outputOption, some output⟩ :: settings, others) := by
  have hread : readOption Command.generate.options "-o".toList =
      .ok ⟨[], some (outputOption, "-o")⟩ := rfl
  unfold readArguments at hrest ⊢
  rw [readPending, if_neg (by decide), if_pos (by decide), hread]
  dsimp only
  rw [readPending, hrest]
  rfl

theorem lastValue?_cons_self (option : OptionSpec) (value : Option String) {settings : List Setting}
    (h : isSet settings option = false) : lastValue? (⟨option, value⟩ :: settings) option = value := by
  have hnone : (settings.reverse.find? fun setting => setting.option == option) = none := by
    simpa [isSet] using h
  rw [lastValue?, List.reverse_cons, List.find?_append, hnone]
  simp

/-- A plain call asks for its job, if its schema is not written like an option. -/
theorem requests_call (hschema : job.schema.toList.take 1 ≠ ['-']) (hquiet : job.verbose = false) :
    Requests job.call job := by
  obtain ⟨schema, output, importsTransport, verbose⟩ := job
  obtain rfl : verbose = false := hquiet
  obtain ⟨settings, hread, hsets⟩ : ∃ settings, readArguments Command.generate.options true
        (if importsTransport then [] else ["--no-import"]) = .ok (settings, []) ∧
      isSet settings noImportOption = !importsTransport ∧ isSet settings helpOption = false ∧
      isSet settings outputOption = false ∧ lastValue? settings outputOption = none := by
    cases importsTransport
    · exact ⟨[⟨noImportOption, none⟩], rfl, by decide⟩
    · exact ⟨[], rfl, by decide⟩
  obtain ⟨himport, hhelp, houtput, hlast⟩ := hsets
  cases output with
  | none =>
    refine ⟨[], _, settings, rfl, readArguments_word hschema hread, rfl, hhelp, ?_⟩
    rw [himport, hlast, Bool.not_not]
    rfl
  | some output =>
    have himport' : isSet (⟨outputOption, some output⟩ :: settings) noImportOption =
        !importsTransport := himport
    refine ⟨[], _, ⟨outputOption, some output⟩ :: settings, rfl,
      readArguments_word hschema (readArguments_output hread output), rfl, hhelp, ?_⟩
    rw [himport', lastValue?_cons_self _ _ houtput, Bool.not_not]
    rfl

/-- A request for an existing file and an output that is accepted starts the job. -/
theorem run_eq_runGenerate (hasked : Requests arguments job) {content : ByteArray}
    (hschema : fs.readFile (Route.ofText job.schema) = .ok content)
    (houtput : checkOutput fs job.output = .ok ()) : run fs arguments = runGenerate fs job := by
  obtain ⟨general, rest, settings, hgeneral, hsettings, hhelp, hhelp', hjob⟩ := hasked
  have hname : Command.ofName? "generate" = some .generate := by decide
  have hcheck : checkFile fs "'SCHEMA_PATH'" job.schema true = .ok () := by
    unfold FileSystem.readFile at hschema
    unfold checkFile
    split at hschema
    · cases hschema
    · cases hschema
    · next hstatus => rw [hstatus]
  have hsetOutput : lastValue? settings outputOption = job.output := by rw [hjob]
  rw [run, hgeneral]
  dsimp only
  rw [hhelp, if_neg (by simp), hname]
  dsimp only
  rw [runCommand, hsettings]
  dsimp only
  rw [hhelp', if_neg (by simp), startGenerate, hsetOutput, houtput]
  dsimp only
  rw [hcheck]
  dsimp only
  rw [if_pos List.isEmpty_nil, ← hsetOutput, ← hjob]

/-! ## What a caller of the library would see -/

/-- The run ends with a message on standard error and leaves everything as it was. -/
structure ReportsRefusal (fs : FileSystem) (message : String) (outcome : Outcome) : Prop where
  status : outcome.status = 1
  errors : outcome.errors = "Error: " ++ message ++ "\n"
  output : outcome.output = ""
  failure : outcome.failure = none
  files : outcome.files = fs

/-- The run shows a text and leaves everything as it was. -/
structure ShowsText (fs : FileSystem) (text : String) (outcome : Outcome) : Prop where
  status : outcome.status = 0
  output : outcome.output = text
  failure : outcome.failure = none
  files : outcome.files = fs

/-- The run shows nothing and ends with a failure that left everything as in `after`. -/
structure Fails (after : FileSystem) (failure : DeliveryError) (outcome : Outcome) : Prop where
  status : outcome.status = 1
  output : outcome.output = ""
  failure : outcome.failure = some failure
  files : outcome.files = after

/-- The run shows nothing and writes a text to a file, and no other file changes. -/
structure WritesText (fs : FileSystem) (target : Path) (text : LooseText) (outcome : Outcome) :
    Prop where
  status : outcome.status = 0
  output : outcome.output = ""
  failure : outcome.failure = none
  files : ∃ bytes, Text.encodeUtf8 text = .ok bytes ∧
    fs.WritesFile outcome.files target.route bytes

/-- The run does what a caller would do who loads the schema and generates its client: it reports
    why there is none, or shows it, or writes it or fails as writing it does. `Reports` and `Shows`
    say of a text of the library what it is for a run to report it and to show it. This is
    irreducible, so that no file is read and parsed while types are compared. -/
@[irreducible]
def DoesJob (Reports Shows : LooseText → Outcome → Prop) (fs : FileSystem) (job : Job)
    (outcome : Outcome) : Prop :=
  match Document.load fs (Path.ofText job.schema).text {} with
  | .error .embeddedNul => False
  | .error (.refused e) => Reports (.ofMarked e.message) outcome
  | .ok (schema, _, _) =>
    ∃ text events,
      Client.source { importsTransport := job.importsTransport } schema = .ok (text, events) ∧
        match job.output with
        | none => Shows (.ofMarked text) outcome
        | some output =>
          match fs.deliver (Path.ofText output) (.ofMarked text) with
          | (.ok _, _) => WritesText fs (Path.ofText output) (.ofMarked text) outcome
          | (.error failure, after) => Fails after failure outcome

/-- The run reports what is left of a message that is echoed, with escapes for the halves. -/
def ReportsEchoed (fs : FileSystem) (message : LooseText) (outcome : Outcome) : Prop :=
  ReportsRefusal fs (Text.escapeHalves (Text.echoed message)) outcome

/-- The run shows what is left of a text that is echoed, if that has an encoding. -/
def ShowsEchoed (fs : FileSystem) (text : LooseText) (outcome : Outcome) : Prop :=
  match Text.asPlain (Text.echoed text) with
  | .ok shown => ShowsText fs shown outcome
  | .error fault => Fails fs (.encoding fault) outcome

/-- The run follows the library, up to what is lost where its texts are echoed. -/
def FollowsLibrary (fs : FileSystem) (job : Job) (outcome : Outcome) : Prop :=
  DoesJob (ReportsEchoed fs) (ShowsEchoed fs) fs job outcome

/-- The run follows the library and gives its texts as they are. -/
def AgreesWithLibrary (fs : FileSystem) (job : Job) (outcome : Outcome) : Prop :=
  DoesJob (fun message outcome => ∃ plain : String, message = plain ∧ ReportsRefusal fs plain outcome)
    (fun text outcome => ∃ plain : String, text = plain ∧ ShowsText fs plain outcome) fs job outcome

/-- The text of the library that is reported or shown: why a document is refused, or the client,
    unless it is written to a file. -/
def shown? (fs : FileSystem) (job : Job) : Option LooseText :=
  match Document.load fs (Path.ofText job.schema).text {} with
  | .error .embeddedNul => none
  | .error (.refused e) => some (.ofMarked e.message)
  | .ok (schema, _, _) =>
    match job.output with
    | none =>
      (Client.source { importsTransport := job.importsTransport } schema).toOption.map fun result =>
        .ofMarked result.1
    | some _ => none

/-- Nothing of the text is lost when it is echoed: it has no halves and no control sequences. -/
def IsKept (text : LooseText) : Prop := ∃ plain : String, text = plain ∧ Text.Plain plain

theorem shown?_of_load {schema : Schema} {after : Scopes} {loaded : Event} {text : String}
    {events : List Event}
    (hload : Document.load fs (Path.ofText job.schema).text {} = .ok (schema, after, loaded))
    (houtput : job.output = none)
    (hsource : Client.source { importsTransport := job.importsTransport } schema =
      .ok (text, events)) : shown? fs job = some (.ofMarked text) := by
  unfold shown?
  rw [hload]
  dsimp only
  rw [houtput]
  dsimp only
  rw [hsource]
  rfl

theorem ReportsRefusal.iff_eq {echoed message : String} {outcome : Outcome}
    (h : ReportsRefusal fs echoed outcome) : ReportsRefusal fs message outcome ↔ echoed = message := by
  constructor
  · intro h'
    have heq := h.errors.symm.trans h'.errors
    simpa [← String.toList_inj] using heq
  · rintro rfl
    exact h

theorem ShowsText.iff_eq {echoed text : String} {outcome : Outcome}
    (h : ShowsText fs echoed outcome) : ShowsText fs text outcome ↔ echoed = text := by
  constructor
  · exact fun h' => h.output.symm.trans h'.output
  · rintro rfl
    exact h

/-- What a run reports is the message itself exactly if nothing of it is lost. -/
theorem ReportsEchoed.iff_isKept {message : LooseText} {outcome : Outcome}
    (h : ReportsEchoed fs message outcome) :
    (∃ plain : String, message = plain ∧ ReportsRefusal fs plain outcome) ↔ IsKept message := by
  refine exists_congr fun plain => and_congr_right ?_
  rintro rfl
  rw [ReportsEchoed, Text.echoed_ofString, Text.escapeHalves_ofString] at h
  rw [h.iff_eq, Text.stripControls_eq_self_iff]

/-- What a run shows is the text itself exactly if nothing of it is lost. -/
theorem ShowsEchoed.iff_isKept {text : LooseText} {outcome : Outcome}
    (h : ShowsEchoed fs text outcome) :
    (∃ plain : String, text = plain ∧ ShowsText fs plain outcome) ↔ IsKept text := by
  refine exists_congr fun plain => and_congr_right ?_
  rintro rfl
  rw [ShowsEchoed, Text.echoed_ofString, Text.asPlain_ofString] at h
  rw [h.iff_eq, Text.stripControls_eq_self_iff]

/-- A run that follows the library agrees with it if nothing that is shown is lost on the way. -/
theorem FollowsLibrary.agrees_iff {outcome : Outcome} (h : FollowsLibrary fs job outcome) :
    AgreesWithLibrary fs job outcome ↔ ∀ text, shown? fs job = some text → IsKept text := by
  unfold AgreesWithLibrary
  unfold FollowsLibrary at h
  unfold DoesJob at h ⊢
  unfold shown?
  cases hload : Document.load fs (Path.ofText job.schema).text {} with
  | error e =>
    rw [hload] at h
    cases e with
    | embeddedNul => exact h.elim
    | refused e => simpa using h.iff_isKept
  | ok result =>
    rw [hload] at h
    obtain ⟨schema, after, loaded⟩ := result
    dsimp only at h ⊢
    obtain ⟨text, events, hsource, hend⟩ := h
    rw [hsource]
    cases houtput : job.output with
    | none =>
      rw [houtput] at hend
      simpa [Except.toOption] using hend.iff_isKept
    | some output =>
      rw [houtput] at hend
      exact iff_of_true ⟨text, events, rfl, hend⟩ (by simp)

/-! ## What the program does -/

/-- A file that exists is refused for what is in it, if at all. -/
theorem load_ne_embeddedNul {content : ByteArray}
    (hschema : fs.readFile (Route.ofText job.schema) = .ok content) :
    Document.load fs (Path.ofText job.schema).text {} ≠ .error .embeddedNul := by
  have htried : fs.readFile (Route.ofText job.schema) ≠ .error .embeddedNul := by simp [hschema]
  intro hload
  have hparse : Document.parseFile fs (Path.ofText job.schema).text = .error .embeddedNul := by
    unfold Document.load at hload
    split at hload
    · next e hparse => rw [hparse, Except.error.inj hload]
    · split at hload <;> cases hload
  unfold Document.parseFile at hparse
  split at hparse
  · next hread => exact FileSystem.readFile_normalForm_ne_embeddedNul htried hread
  · cases hparse
  · split at hparse
    · cases hparse
    · split at hparse <;> cases hparse

theorem showsEchoed_echo (fs : FileSystem) (told : String) (text : LooseText) :
    ShowsEchoed fs text (echo fs told text) := by
  unfold ShowsEchoed echo
  cases Text.asPlain (Text.echoed text) with
  | error fault => exact ⟨rfl, rfl, rfl, rfl⟩
  | ok shown => exact ⟨rfl, rfl, rfl, rfl⟩

/-- **A job is done as the library has it**, up to what is lost where its texts are echoed. -/
theorem runGenerate_followsLibrary {content : ByteArray}
    (hschema : fs.readFile (Route.ofText job.schema) = .ok content) :
    FollowsLibrary fs job (runGenerate fs job) := by
  unfold FollowsLibrary DoesJob runGenerate
  dsimp only
  cases hload : Document.load fs (Path.ofText job.schema).text {} with
  | error e =>
    cases e with
    | embeddedNul => exact absurd hload (load_ne_embeddedNul hschema)
    | refused e => exact ⟨rfl, String.empty_append, rfl, rfl, rfl⟩
  | ok result =>
    obtain ⟨schema, after, loaded⟩ := result
    obtain ⟨value, -, hread, -⟩ := Document.load_eq_ok_iff.1 hload
    obtain ⟨events, hsource⟩ := Client.source_eq_ok
      { importsTransport := job.importsTransport } (Document.allKnown_of_read hread)
    generalize Code.Module.render _ = text at hsource
    dsimp only
    rw [hsource]
    dsimp only
    cases houtput : job.output with
    | none => exact ⟨text, events, rfl, showsEchoed_echo _ _ _⟩
    | some output =>
      refine ⟨text, events, rfl, ?_⟩
      dsimp only
      cases hdeliver : fs.deliver (Path.ofText output) (.ofMarked text) with
      | mk result after =>
        cases result with
        | error failure => exact ⟨rfl, rfl, rfl, rfl⟩
        | ok event => exact ⟨rfl, rfl, rfl, FileSystem.writesFile_of_deliver hdeliver⟩

/-- **The program follows the library**: it reports what the library refuses and writes nothing
    then, and it shows or writes the client that the library generates. It agrees with the library
    exactly where nothing is lost of what is reported or shown, and so always when the client goes
    to a file. -/
theorem run_followsLibrary (hasked : Requests arguments job) {content : ByteArray}
    (hschema : fs.readFile (Route.ofText job.schema) = .ok content)
    (houtput : checkOutput fs job.output = .ok ()) :
    FollowsLibrary fs job (run fs arguments) ∧
      (AgreesWithLibrary fs job (run fs arguments) ↔
        ∀ text, shown? fs job = some text → IsKept text) := by
  have hfollows := runGenerate_followsLibrary hschema
  rw [run_eq_runGenerate hasked hschema houtput]
  exact ⟨hfollows, hfollows.agrees_iff⟩

/-! ## A client without members -/

/-- A document of nothing but a name, which is written as given. -/
def documentNamed (written : String) : String := "\x7b\"name\": \"" ++ written ++ "\"\x7d"

/-- The value of the document. -/
def valueNamed (name : String) : Json := .object [("name", .string name)]

/-- The schema that it describes. -/
def schemaNamed (name : String) : Schema := ⟨some name, none, 0, []⟩

/-- The scopes of the schema. -/
def scopesNamed : Scopes := ⟨[⟨[], none⟩]⟩

/-- The client of the schema. -/
def clientNamed (name : String) : String :=
  "import axios from \"axios\";\nexport class " ++ name ++ " \x7b\n\x7d\n"

/-- The file system with the document in `api.json`. -/
def filesNamed (written : String) : FileSystem := Document.storedText (documentNamed written)

/-- The job to show the client of the schema in `api.json`. -/
def showJob : Job := ⟨"api.json", none, true, false⟩

theorem requests_showJob : Requests ["generate", "api.json"] showJob := by
  have hcall : showJob.call = ["generate", "api.json"] := rfl
  rw [← hcall]
  exact requests_call (by decide) rfl

theorem exists_readFile_filesNamed (written : String) :
    ∃ content, (filesNamed written).readFile (Route.ofText showJob.schema) = .ok content :=
  ⟨_, Document.readFile_storedText (documentNamed written)⟩

/-- Both the library and the program find the client of the schema. -/
theorem exists_source_filesNamed {written name : String}
    (hvalue : Json.read (documentNamed written) = .ok (valueNamed name))
    (hread : Document.read {} (valueNamed name) = .ok (schemaNamed name, scopesNamed))
    (htext : Code.Module.render ⟨Client.Options.imports {},
      (schemaNamed name).branches.map (Client.classOf {})⟩ = clientNamed name)
    (hmark : mark ∉ (clientNamed name).toList) :
    (∃ loaded, Document.load (filesNamed written) "api.json" {} =
        .ok (schemaNamed name, scopesNamed, loaded)) ∧
      (∃ events, Client.source {} (schemaNamed name) = .ok (clientNamed name, events)) ∧
      shown? (filesNamed written) showJob = some (.ofString (clientNamed name)) := by
  have hpath : (Path.ofText showJob.schema).text = "api.json" := by decide
  obtain ⟨events, hsource⟩ := Client.source_eq_ok {} (Document.allKnown_of_read hread)
  have hload := Document.load_storedText hvalue hread
  rw [htext] at hsource
  refine ⟨⟨_, hload⟩, ⟨events, hsource⟩, ?_⟩
  rw [← hpath] at hload
  rw [← LooseText.ofMarked_of_notMem hmark]
  exact shown?_of_load hload rfl hsource

theorem run_followsLibrary_petClient : ∃ content,
    Requests ["generate", "api.json"] showJob ∧
      (filesNamed "PetClient").readFile (Route.ofText showJob.schema) = .ok content ∧
      checkOutput (filesNamed "PetClient") showJob.output = .ok () ∧
      AgreesWithLibrary (filesNamed "PetClient") showJob
        (run (filesNamed "PetClient") ["generate", "api.json"]) := by
  obtain ⟨content, hschema⟩ := exists_readFile_filesNamed "PetClient"
  have hvalue : Json.read (documentNamed "PetClient") = .ok (valueNamed "PetClient") := by
    rw [Json.read_eq_ok_iff, documentNamed]
    simp only [String.reduceAppend, String.reduceToList]
    rfl
  obtain ⟨-, -, hshown⟩ :=
    exists_source_filesNamed hvalue rfl (by decide +kernel) (by decide +kernel)
  refine ⟨content, requests_showJob, hschema, rfl, ?_⟩
  refine (run_followsLibrary requests_showJob hschema rfl).2.2 fun text htext => ?_
  rw [hshown] at htext
  obtain rfl := Option.some.inj htext
  exact ⟨clientNamed "PetClient", rfl, Text.plain_of_notMem (by decide +kernel)⟩

/-- A name that turns the terminal red loses this on the way to standard output. -/
theorem not_agreesWithLibrary_red : ∃ content,
    Requests ["generate", "api.json"] showJob ∧
      (filesNamed "\\u001b[31mRed").readFile (Route.ofText showJob.schema) = .ok content ∧
      checkOutput (filesNamed "\\u001b[31mRed") showJob.output = .ok () ∧
      (∃ loaded, Document.load (filesNamed "\\u001b[31mRed") "api.json" {} =
        .ok (schemaNamed "\x1b[31mRed", scopesNamed, loaded)) ∧
      (∃ events, Client.source {} (schemaNamed "\x1b[31mRed") =
        .ok (clientNamed "\x1b[31mRed", events)) ∧
      ¬AgreesWithLibrary (filesNamed "\\u001b[31mRed") showJob
        (run (filesNamed "\\u001b[31mRed") ["generate", "api.json"]) := by
  obtain ⟨content, hschema⟩ := exists_readFile_filesNamed "\\u001b[31mRed"
  have hvalue : Json.read (documentNamed "\\u001b[31mRed") = .ok (valueNamed "\x1b[31mRed") := by
    rw [Json.read_eq_ok_iff, documentNamed]
    simp only [String.reduceAppend, String.reduceToList]
    rfl
  obtain ⟨hload, hsource, hshown⟩ :=
    exists_source_filesNamed hvalue rfl (by decide +kernel) (by decide +kernel)
  have hstrip : Text.stripControls (clientNamed "\x1b[31mRed") = clientNamed "Red" := by
    decide +kernel
  refine ⟨content, requests_showJob, hschema, rfl, hload, hsource, ?_⟩
  rw [run_eq_runGenerate requests_showJob hschema rfl,
    (runGenerate_followsLibrary hschema).agrees_iff]
  intro hkept
  obtain ⟨plain, hsame, hplain⟩ := hkept _ hshown
  obtain rfl := LooseText.ofString_injective hsame
  rw [← Text.stripControls_eq_self_iff, hstrip] at hplain
  exact absurd hplain (by decide +kernel)

end ApiScribe.CommandLine
