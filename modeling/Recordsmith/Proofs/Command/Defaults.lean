import Recordsmith.Proofs.Command.Arguments
import Recordsmith.Proofs.Command.Runs
import Recordsmith.Proofs.Config.Loading

/-!
The file that `init` writes changes nothing. It says what holds without a file, and the settings of a command line give
the same configuration on top of it as alone. So an `expand` that names the file does what the same `expand` does
without it.
-/

namespace Recordsmith

open Text.Utf8 (encode)

/-! ### Settings -/

namespace Config

theorem load_defaultFile (path : Path) : load path (some (encode defaultFile.toList)) = .ok {} := by
  have htext : ofText (Text.unifyBreaks defaultFile.toList) = .ok {} := by decide +kernel
  exact (load_of_decode path (Text.Utf8.decode_encode _)).trans htext

/-- Settings on top of the configuration that holds without any are these settings alone. -/
theorem override_default (o : Overrides) :
    override {} o = ofSettings { language := o.language, strict := o.strict, path := o.path } := by
  have hname : Text.isIdentifier "value" = true := Synthesis.isIdentifier_default
  have hmarker : bareMarker "Buildable" = "Buildable" := by decide
  unfold override ofSettings
  cases languageOf o.language with
  | error e => rfl
  | ok language => simp [bind, Except.bind, pure, Except.pure, hname, hmarker]

end Config

namespace Command
variable {r : Readers} {store saved : Store} {file target operand : String} {arguments : List String} {input : List Char}
  {g : Given}

/-- With the name of a file that can be read its configuration is loaded, and the settings go on top. -/
theorem configFor_of_read (hr : r.document = Yaml.read) {bytes : List UInt8} (hfile : file ≠ "")
    (hread : store.read (Path.ofText file) = .ok bytes) (language : Option String) (strict : Bool)
    (output : Option String) :
    configFor r store (some file) language strict output =
      ((Config.load (Path.ofText file) (some bytes)).mapError Stop.ofLoadError >>= fun config =>
        (config.override { strict, language, path := (nonEmpty output).map Path.ofText }).mapError .ofConfigError) := by
  have hgiven : nonEmpty (some file) = some file := by simp [nonEmpty, Option.filter_some, hfile]
  have hthere : existing store file = .ok (Path.ofText file) := by simp [existing, Store.exists?_of_read hread]
  simp only [configFor, hgiven, hthere]
  simp [bind, Except.bind, hread, hr, Config.load]

/-- A file that says what holds without it can be left out. -/
theorem configFor_default (hr : r.document = Yaml.read)
    (hread : store.read (Path.ofText file) = .ok (encode Config.defaultFile.toList))
    (language : Option String) (strict : Bool) (output : Option String) :
    configFor r store (some file) language strict output = configFor r store none language strict output := by
  by_cases hfile : file = ""
  · rw [hfile]
    rfl
  · rw [configFor_of_read hr hfile hread, Config.load_defaultFile]
    show (Config.override {} _).mapError Stop.ofConfigError = _
    rw [Config.override_default]
    rfl

/-! ### After initialising -/

theorem save_of_writeDefault {before : List Char} (h : (writeDefault r store target before).exitCode = 0) :
    store.save (Path.ofText target) (encode Config.defaultFile.toList) =
      .ok (writeDefault r store target before).store := by
  unfold writeDefault at h ⊢
  cases hsave : store.save (Path.ofText target) (encode Config.defaultFile.toList) with
  | error e => simp [hsave] at h
  | ok saved =>
    simp only [hsave] at h ⊢
    split
    · rfl
    · rfl

/-- The file that an `init` writes: the one that is named, or that in the working directory. -/
def initTarget (g : Given) : String := (g.value? "output").getD defaultFileName

theorem save_of_init (h : (init r g input store).exitCode = 0) :
    store.save (Path.ofText (initTarget g)) (encode Config.defaultFile.toList) = .ok (init r g input store).store := by
  unfold initTarget
  unfold init at h ⊢
  dsimp only at h ⊢
  split at h
  · rename_i hthere
    rw [if_pos hthere]
    split at h
    · exact save_of_writeDefault h
    · cases h
    · cases h
  · rename_i hthere
    rw [if_neg hthere]
    exact save_of_writeDefault h

/-- An `init` that succeeds without giving help has saved the default configuration. -/
theorem save_of_run_init (hhelp : asksHelp initOptions arguments = false)
    (h : (runWith r ("init" :: arguments) input store).exitCode = 0) : ∃ g, Given.ofArguments? initOptions arguments = some g ∧
      store.save (Path.ofText (initTarget g)) (encode Config.defaultFile.toList) =
        .ok (runWith r ("init" :: arguments) input store).store := by
  rw [run_init] at h ⊢
  cases hgiven : Given.ofArguments? initOptions arguments with
  | none =>
    simp only [hgiven] at h
    exact absurd h (helpOutcome_exitCode_ne_zero hhelp store)
  | some g =>
    refine ⟨g, rfl, ?_⟩
    simp only [hgiven] at h ⊢
    split at h
    · rename_i hoperands
      rw [if_pos hoperands]
      exact save_of_init h
    · cases h

/-! ### Expanding -/

/-- What is given with `-c` and a file in front. -/
def behindConfig (file : String) (g : Given) : Given := Given.followedBy ⟨[("config", file)], []⟩ g

theorem ofArguments?_config {specs : List OptionSpec}
    (hfind : specs.find? (·.short == some 'c') = some ⟨"config", "--config", some 'c', true⟩) (file : String)
    (arguments : List String) : Given.ofArguments? specs ("-c" :: file :: arguments) =
      (Given.ofArguments? specs arguments).map (behindConfig file) :=
  ofArguments?_short hfind rfl (by decide) file arguments

theorem operands_behindConfig (file : String) (g : Given) : (behindConfig file g).operands = g.operands := rfl

theorem value?_behindConfig (file : String) (g : Given) :
    (behindConfig file g).value? "config" = (g.value? "config").or (some file) :=
  Given.value?_followedBy ..

theorem value?_behindConfig_of_ne {name : String} (hname : name ≠ "config") (file : String) (g : Given) :
    (behindConfig file g).value? name = g.value? name := by
  have hnone : Given.value? ⟨[("config", file)], []⟩ name = none := by simp [Given.value?, hname.symm]
  rw [behindConfig, Given.value?_followedBy, hnone, Option.or_none]

/-- The configuration of what is given to an `expand`. -/
def configOf (r : Readers) (store : Store) (g : Given) : Except Stop Config :=
  configFor r store (g.value? "config") (g.value? "language") (g.isSet "strict") (g.value? "output")

/-- The file of defaults in front changes no configuration. Where another file is given, that one counts anyway. -/
theorem configOf_behindConfig (hr : r.document = Yaml.read)
    (hread : store.read (Path.ofText file) = .ok (encode Config.defaultFile.toList)) (g : Given) :
    configOf r store (behindConfig file g) = configOf r store g := by
  unfold configOf Given.isSet
  rw [value?_behindConfig, value?_behindConfig_of_ne (by decide), value?_behindConfig_of_ne (by decide),
    value?_behindConfig_of_ne (by decide)]
  cases g.value? "config" with
  | some other => rfl
  | none => exact configFor_default hr hread ..

theorem expandRequest_eq (g : Given) (operand : String) (store : Store) : expandRequest r g operand store = (do
    let path ← existing store operand
    let config ← configOf r store g
    let kit ← kitFor r config.language path
    let source ← sourceText store path
    return { config, kit, source }) := rfl

theorem expand_behindConfig (hr : r.document = Yaml.read)
    (hread : store.read (Path.ofText file) = .ok (encode Config.defaultFile.toList)) (g : Given) (operand : String) :
    expand r (behindConfig file g) operand store = expand r g operand store := by
  unfold expand
  rw [expandRequest_eq, expandRequest_eq, configOf_behindConfig hr hread]

/-- Whether help is asked for does not depend on the file that is named in front. -/
theorem asksHelp_config (file : String) (arguments : List String) :
    asksHelp expandOptions ("-c" :: file :: arguments) = asksHelp expandOptions arguments := by
  rw [asksHelp, ofArguments?_config (by decide), Option.any_map]
  refine congrArg (Option.any · _) (funext fun g => ?_)
  show ((behindConfig file g).value? "help").isSome = (g.value? "help").isSome
  rw [value?_behindConfig_of_ne (by decide)]

/-- With the file of defaults in front of its arguments a run of `expand` is the run without it. -/
theorem run_expand_config (hr : r.document = Yaml.read)
    (hread : store.read (Path.ofText file) = .ok (encode Config.defaultFile.toList)) (arguments : List String)
    (input : List Char) :
    runWith r ("expand" :: "-c" :: file :: arguments) input store = runWith r ("expand" :: arguments) input store := by
  rw [run_expand, run_expand, withOperand, withOperand, ofArguments?_config (by decide)]
  cases Given.ofArguments? expandOptions arguments with
  | none => simp only [Option.map_none, helpOutcome, asksHelp_config]
  | some g =>
    simp only [Option.map_some, operands_behindConfig]
    split
    · exact expand_behindConfig hr hread g _
    · rfl

/-! ### Before initialising -/

/-- Two runs that say the same. The files that they leave may differ. -/
def Outcome.Agrees (o o' : Outcome) : Prop :=
  o.exitCode = o'.exitCode ∧ o.output = o'.output ∧ o.log = o'.log ∧ o.failure = o'.failure

theorem Stop.agrees_outcome (stop : Stop) (store saved : Store) (log : List LogLine) :
    (stop.outcome r saved log).Agrees (stop.outcome r store log) := by
  cases stop <;> exact ⟨rfl, rfl, rfl, rfl⟩

/-- Without a configuration file the files do not matter for the configuration. -/
theorem configOf_of_plain (hplain : nonEmpty (g.value? "config") = none) (store saved : Store) :
    configOf r saved g = configOf r store g := by
  simp only [configOf, configFor, hplain]

theorem path_of_configOf {config : Config} (hplain : nonEmpty (g.value? "config") = none)
    (hprinting : nonEmpty (g.value? "output") = none) (h : configOf r store g = .ok config) :
    config.output.path = none := by
  simp only [configOf, configFor, hplain, hprinting] at h
  obtain ⟨language, -, hconfig⟩ := bind_eq_ok (mapError_eq_ok h)
  split at hconfig
  · obtain rfl := Except.ok.inj hconfig
    rfl
  · cases hconfig

/-- A source that is there already is expanded in the same way after another file has been saved. -/
theorem expandRequest_of_save {path : Path} {bytes data : List UInt8} (hsave : store.save path bytes = .ok saved)
    (hplain : nonEmpty (g.value? "config") = none) (hsource : store.read (Path.ofText operand) = .ok data)
    (hother : saved.resolve path ≠ saved.resolve (Path.ofText operand)) :
    expandRequest r g operand saved = expandRequest r g operand store := by
  have hsource' : saved.read (Path.ofText operand) = .ok data := Store.read_of_save hsave hsource hother
  have hthere : existing saved operand = existing store operand := by
    simp only [existing, Store.exists?_of_read hsource, Store.exists?_of_read hsource']
  have htext : ∀ place, existing store operand = .ok place → sourceText saved place = sourceText store place := by
    intro place hplace
    simp only [existing, Store.exists?_of_read hsource] at hplace
    obtain rfl := Except.ok.inj hplace
    simp only [sourceText, hsource, hsource']
  rw [expandRequest_eq, expandRequest_eq, hthere, configOf_of_plain hplain store saved]
  cases hplace : existing store operand with
  | error stop => rfl
  | ok place => simp only [bind, Except.bind, htext place hplace]

/-- A printed result does not depend on what else is in the store. -/
theorem agrees_expand (hrequest : expandRequest r g operand saved = expandRequest r g operand store)
    (hprinting : ∀ request, expandRequest r g operand store = .ok request → request.config.output.path = none) :
    (expand r g operand saved).Agrees (expand r g operand store) := by
  simp only [expand, hrequest]
  cases h : expandRequest r g operand store with
  | error stop => exact stop.agrees_outcome store saved []
  | ok request =>
    dsimp only
    split
    · exact Stop.agrees_outcome ..
    · simp only [deliver, hprinting request h, printResult]
      split
      · exact Stop.agrees_outcome ..
      · exact ⟨rfl, rfl, rfl, rfl⟩

/-- The file that says what holds without it: its configuration under any settings is that of the settings alone, or
    the error about them. So the file can be named or left out, for a configuration and for a whole run of `expand`. An
    `init` that succeeds gives help or leaves such a file, and with it every other file is expanded as it was before
    without one, from the same configuration and source. If nothing is written, the two runs say the same. -/
theorem default_file_changes_nothing (r : Readers) (hr : r.document = Yaml.read) (store : Store) :
    (∀ path (o : Config.Overrides), (do
        let config ← Config.load path (some (encode Config.defaultFile.toList))
        (config.override o).mapError .config) =
      (Config.ofSettings { language := o.language, strict := o.strict, path := o.path }).mapError .config) ∧
    (∀ file, store.read (Path.ofText file) = .ok (encode Config.defaultFile.toList) →
      (∀ language strict output,
        configFor r store (some file) language strict output = configFor r store none language strict output) ∧
      ∀ arguments input,
        runWith r ("expand" :: "-c" :: file :: arguments) input store = runWith r ("expand" :: arguments) input store) ∧
    ∀ arguments input, (runWith r ("init" :: arguments) input store).exitCode = 0 →
      asksHelp initOptions arguments = true ∨
      ∃ g saved, Given.ofArguments? initOptions arguments = some g ∧
        (runWith r ("init" :: arguments) input store).store = saved ∧
        saved.read (Path.ofText (initTarget g)) = .ok (encode Config.defaultFile.toList) ∧
        ∀ others g' operand bytes input', Given.ofArguments? expandOptions others = some g' →
          g'.operands = [operand] → nonEmpty (g'.value? "config") = none →
          store.read (Path.ofText operand) = .ok bytes →
          saved.resolve (Path.ofText (initTarget g)) ≠ saved.resolve (Path.ofText operand) →
          expandRequest r (behindConfig (initTarget g) g') operand saved = expandRequest r g' operand store ∧
          (nonEmpty (g'.value? "output") = none →
            (runWith r ("expand" :: "-c" :: initTarget g :: others) input' saved).Agrees
              (runWith r ("expand" :: others) input' store)) := by
  refine ⟨fun path o => ?_, fun file hread => ⟨configFor_default hr hread, run_expand_config hr hread⟩,
    fun arguments input hinit => ?_⟩
  · rw [Config.load_defaultFile, ← Config.override_default]
    rfl
  refine (Bool.eq_false_or_eq_true (asksHelp initOptions arguments)).imp_right fun hhelp => ?_
  obtain ⟨g, hgiven, hsave⟩ := save_of_run_init hhelp hinit
  have hread := (Store.hasSaved_save hsave).read
  refine ⟨g, _, hgiven, rfl, hread, ?_⟩
  intro others g' operand bytes input' hothers hoperands hplain hsource hplace
  have hrequest := expandRequest_of_save (r := r) hsave hplain hsource hplace
  refine ⟨?_, fun hprinting => ?_⟩
  · rw [← hrequest, expandRequest_eq, expandRequest_eq, configOf_behindConfig hr hread]
  · rw [run_expand_config hr hread, run_expand_of_given hothers hoperands, run_expand_of_given hothers hoperands]
    exact agrees_expand hrequest fun request h => path_of_configOf hplain hprinting (expandRequest_eq_ok h).1

def pointSource : List Char := "@Buildable struct Point \x7b var x: Int; let y: Int \x7d\n".toList

/-- One file with a record of two fields. -/
def pointStore : Store := { files := [(["a.txt"], encode pointSource)] }

theorem default_file_changes_nothing_point :
    (runWith .builtIn ["init", "-o", "conf/r.yaml"] [] pointStore).exitCode = 0 ∧
    pointStore.read (Path.ofText "a.txt") = .ok (encode pointSource) ∧
    ∃ saved, (runWith .builtIn ["init", "-o", "conf/r.yaml"] [] pointStore).store = saved ∧
      saved.read (Path.ofText "conf/r.yaml") = .ok (encode Config.defaultFile.toList) ∧
      configFor .builtIn saved (some "conf/r.yaml") (some "Kotlin") true none =
        configFor .builtIn saved none (some "Kotlin") true none ∧
      runWith .builtIn ["expand", "-c", "conf/r.yaml", "a.txt", "-l", "SWIFT", "-o", "b"] [] saved =
        runWith .builtIn ["expand", "a.txt", "-l", "SWIFT", "-o", "b"] [] saved ∧
      (runWith .builtIn ["expand", "-c", "conf/r.yaml", "a.txt", "-l", "SWIFT"] [] saved).Agrees
        (runWith .builtIn ["expand", "a.txt", "-l", "SWIFT"] [] pointStore) := by
  have hexit : (runWith .builtIn ["init", "-o", "conf/r.yaml"] [] pointStore).exitCode = 0 := by decide +kernel
  have hhelp : asksHelp initOptions ["-o", "conf/r.yaml"] = false := by decide +kernel
  have hsource : pointStore.read (Path.ofText "a.txt") = .ok (encode pointSource) :=
    Tree.eq_ok_of_toOption (by decide +kernel)
  have hinit : Given.ofArguments? initOptions ["-o", "conf/r.yaml"] = some ⟨[("output", "conf/r.yaml")], []⟩ := by
    decide +kernel
  have hgiven : Given.ofArguments? expandOptions ["a.txt", "-l", "SWIFT"] =
      some ⟨[("language", "SWIFT")], ["a.txt"]⟩ := by decide +kernel
  obtain ⟨-, -, hafter⟩ := default_file_changes_nothing .builtIn rfl pointStore
  obtain ⟨g, saved, hg, hsaved, hread, hexpands⟩ :=
    (hafter ["-o", "conf/r.yaml"] [] hexit).resolve_left fun hasks => Bool.noConfusion (hhelp.symm.trans hasks)
  obtain rfl := Option.some.inj (hinit.symm.trans hg)
  have hplace : saved.resolve (Path.ofText "conf/r.yaml") ≠ saved.resolve (Path.ofText "a.txt") := by
    rw [← hsaved]
    decide +kernel
  obtain ⟨-, hnamed, -⟩ := default_file_changes_nothing .builtIn rfl saved
  obtain ⟨hconfigs, hruns⟩ := hnamed _ hread
  exact ⟨hexit, hsource, saved, hsaved, hread, hconfigs .., hruns ..,
    (hexpands _ _ _ _ [] hgiven rfl rfl hsource hplace).2 rfl⟩

end Command

end Recordsmith
