import Recordsmith.Proofs.Command.Runs
import Recordsmith.Proofs.Console.Sequences

/-!
What a run of a command may change. A run of `expand` that fails keeps all files, unless it has saved its result and then
cannot print a message about it, or the result has no bytes; one that succeeds changes at most the file at its output
path, which holds the text that is printed otherwise. `inspect` changes nothing, and `init` nothing that exists without
consent.
-/

namespace Recordsmith

open Text (CodePoint)
open Text.Utf8 (encode)

/-! ### Output paths -/

/-- A configuration as it is without an output path. -/
def Config.printing (config : Config) : Config :=
  { config with output := { config.output with path := none, rawPath := none } }

theorem Expansion.treatments_printing (renderer : Code.Renderer) (source : List Char) (config : Config)
    (declarations : List Declaration) :
    treatments renderer source config.printing declarations = treatments renderer source config declarations := by
  induction declarations with
  | nil => rfl
  | cons d rest ih =>
    simp only [treatments, ih]
    rfl

/-- Where a result goes does not change it. -/
theorem LanguageKit.expand_printing (k : LanguageKit) (source : List Char) (config : Config) :
    k.expand source config.printing = k.expand source config := by
  simp only [expand, expandTree, Expansion.treatments_printing]
  rfl

theorem Config.twin_printing (config : Config) : config.printing.twin = config.twin.printing := by
  unfold twin printing
  cases config.output.rawIndent <;> rfl

namespace Command

theorem pointsOf_printing (kit : LanguageKit) (source : List Char) (config : Config) (e : Expansion) :
    pointsOf kit source config.printing e = pointsOf kit source config e := by
  unfold pointsOf
  rw [Config.twin_printing, kit.expand_printing]
  rfl

variable {r : Readers} {config : Config} {path : Path}

/-! ### Runs that fail -/

/-- How a run of `expand` can fail after it has opened its output file. -/
inductive FailsAfterWriting (r : Readers) (store : Store) (config : Config) (path : Path) (e : Expansion)
    (o : Outcome) : Prop
  /-- The result is saved, and a message about it breaks the rules of markup. -/
  | message (text : String) (error : Console.MarkupError) (saved : store.save path (encode e.source) = .ok o.store)
      (about : text ∈ savedMessages e path) (breaks : printed r text = .error error)
      (failure : o.failure = some (.markup error))
  /-- The result is saved, and its path has surrogates, so that the message about it cannot be printed. -/
  | path (saved : store.save path (encode e.source) = .ok o.store) (raw : config.output.rawPath ≠ none)
      (failure : o.failure = some .unprintable)
  /-- The indentation has surrogates, so that the result has no bytes, and the file is left empty. -/
  | indentation (error : CodePoint.EncodeError) (left : Store) (log : List LogLine)
      (raw : CodePoint.surrogates (config.output.rawIndent.getD []) ≠ []) (emptied : store.save path [] = .ok left)
      (outcome : o = (Stop.ofError error.message).outcome r left log)

/-- A result without bytes has got a surrogate from the indentation. -/
theorem surrogates_of_encode_error {output : Output} {text twin : List Char} {error : CodePoint.EncodeError}
    (h : CodePoint.encode (output.points text twin) = .error error) :
    CodePoint.surrogates (output.rawIndent.getD []) ≠ [] := by
  intro hnone
  rw [Output.points, hnone, CodePoint.ofTwins_nil, CodePoint.encode_ofChars] at h
  cases h

/-- A run that fails leaves every file as it was, except where it has opened its output file by then: it has saved
    its result and cannot print a message about it, or the result has no bytes. -/
theorem failed_expansion_keeps_files (r : Readers) (arguments : List String) (input : List Char) (store : Store)
    (h : (runWith r ("expand" :: arguments) input store).exitCode ≠ 0) :
    (runWith r ("expand" :: arguments) input store).store.files = store.files ∨
      ∃ g file text config kit e path, Expands r arguments store g file text config kit e ∧
        config.output.path = some path ∧
        FailsAfterWriting r store config path e (runWith r ("expand" :: arguments) input store) := by
  rcases run_expand_cases r arguments input store with
    ⟨hstore, -⟩ | ⟨g, file, text, config, kit, e, log, twin, hexpands, hrun⟩
  · exact Or.inl (congrArg Store.files hstore)
  rw [hrun] at h ⊢
  cases hpath : config.output.path with
  | none => exact Or.inl (congrArg Store.files (deliver_of_none hpath).1)
  | some path =>
    cases delivers r store log hpath e twin with
    | refused fault files exitCode => exact Or.inl files
    | emptied error left log' raw saved outcome =>
      exact Or.inr ⟨g, file, text, config, kit, e, path, hexpands, hpath,
        .indentation error left log' (surrogates_of_encode_error raw) saved outcome⟩
    | unannounced raw saved failure exitCode =>
      exact Or.inr ⟨g, file, text, config, kit, e, path, hexpands, hpath, .path saved raw failure⟩
    | saved plain saved failure exitCode =>
      -- The file is saved by now, so only a message about it can have failed.
      obtain ⟨f, hf⟩ := Option.ne_none_iff_exists'.mp (mt exitCode.mpr h)
      obtain ⟨message, hmessage, error, hprinted, rfl⟩ := printAll_eq_some hf
      exact Or.inr ⟨g, file, text, config, kit, e, path, hexpands, hpath,
        .message message error saved hmessage hprinted (failure.trans hf)⟩

/-- One file with a marked record whose field has no type. -/
def untypedStore : Store := { files := [(["a.swift"], encode "@Buildable struct A \x7b var x = 1 \x7d\n".toList)] }

theorem failed_expansion_keeps_files_strict :
    (runWith .builtIn ["expand", "a.swift", "--strict", "-o", "b.swift"] [] untypedStore).exitCode ≠ 0 ∧
      (runWith .builtIn ["expand", "a.swift", "--strict", "-o", "b.swift"] [] untypedStore).store.files =
        untypedStore.files := by
  have hrun : (runWith .builtIn ["expand", "a.swift", "--strict", "-o", "b.swift"] [] untypedStore).exitCode ≠ 0 ∧
      (runWith .builtIn ["expand", "a.swift", "--strict", "-o", "b.swift"] [] untypedStore).failure = none := by
    decide +kernel
  have hgiven : Given.ofArguments? expandOptions ["a.swift", "--strict", "-o", "b.swift"] =
      some ⟨[("strict", ""), ("output", "b.swift")], ["a.swift"]⟩ := by decide +kernel
  have hconfig : configFor .builtIn untypedStore none none true (some "b.swift") =
      .ok { synthesis := { strict := true }, output := { path := some (Path.ofText "b.swift") } } :=
    Tree.eq_ok_of_toOption (by decide +kernel)
  obtain ⟨hexit, hfailure⟩ := hrun
  refine ⟨hexit, ?_⟩
  rcases failed_expansion_keeps_files .builtIn ["a.swift", "--strict", "-o", "b.swift"] [] untypedStore hexit with
    hfiles | ⟨g, file, text, config, kit, e, path, hexpands, -, hchanges⟩
  · exact hfiles
  · obtain rfl := Option.some.inj (hgiven.symm.trans hexpands.given)
    obtain rfl := Except.ok.inj (hconfig.symm.trans hexpands.configured)
    cases hchanges with
    | message text error saved about breaks failure => cases hfailure.symm.trans failure
    | path saved raw failure => exact absurd rfl raw
    | indentation error left log raw emptied outcome => exact absurd rfl raw

def bareStore : Store := { files := [(["a.swift"], encode "struct A \x7b\x7d\n".toList)] }

/-- A result is saved although its path cannot be printed and the run fails. -/
theorem failed_expansion_saves_unprintable_path :
    (run ["expand", "a.swift", "-o", "out[/b].swift"] [] bareStore).exitCode = 1 ∧
      bareStore.file? ["out[", "b].swift"] = none ∧
      (run ["expand", "a.swift", "-o", "out[/b].swift"] [] bareStore).store.file? ["out[", "b].swift"] =
        some (encode "struct A \x7b\x7d\n".toList) := by
  decide +kernel

/-! ### Runs that succeed -/

/-- A result that is delivered well has changed no more than the file at its path, which holds what is printed
    without one. -/
theorem Expands.effect {arguments : List String} {input : List Char} {store : Store} {g : Given} {file : String}
    {text : List Char} {kit : LanguageKit} {e : Expansion} (h : Expands r arguments store g file text config kit e)
    (hexit : (runWith r ("expand" :: arguments) input store).exitCode = 0) :
    (config.output.path = none → (runWith r ("expand" :: arguments) input store).store = store ∧
      Console.withoutSequences e.source <+: (runWith r ("expand" :: arguments) input store).output) ∧
    ∀ {path}, config.output.path = some path →
      store.HasSaved path (encode e.source) (runWith r ("expand" :: arguments) input store).store ∧
      pointsOf kit (Text.unifyBreaks text) config e = CodePoint.ofChars e.source := by
  obtain ⟨log, hrun⟩ := h.run_eq input
  rw [hrun] at hexit ⊢
  refine ⟨fun hpath => (deliver_of_none hpath).imp_right (· hexit), fun {path} hpath => ?_⟩
  rw [pointsOf] at hexit ⊢
  cases delivers r store log hpath e ((kit.expand (Text.unifyBreaks text) config.twin).toOption.getD e).source with
  | refused fault files exitCode => exact absurd hexit exitCode
  | emptied error left log raw saved outcome =>
    rw [outcome] at hexit
    exact absurd hexit (Stop.outcome_exitCode_ne_zero _ _ _)
  | unannounced raw saved failure exitCode => exact absurd hexit exitCode
  | saved plain saved failure exitCode => exact ⟨Store.hasSaved_save saved, plain⟩

/-- With another command line that leaves the same configuration without an output path, the same text is printed. -/
theorem Expands.printing {arguments other : List String} {store : Store} {g g' : Given} {file : String}
    {text : List Char} {kit : LanguageKit} {e : Expansion} (h : Expands r arguments store g file text config kit e)
    (hplain : pointsOf kit (Text.unifyBreaks text) config e = CodePoint.ofChars e.source)
    (hgiven : Given.ofArguments? expandOptions other = some g') (hoperands : g'.operands = [file])
    (hconfig : configFor r store (g'.value? "config") (g'.value? "language") (g'.isSet "strict") (g'.value? "output") =
      .ok config.printing) (input : List Char) :
    Console.withoutSequences e.source <+: (runWith r ("expand" :: other) input store).output := by
  have hexpands : Expands r other store g' file text config.printing kit e :=
    ⟨hgiven, hoperands, hconfig, h.served, h.decoded, (kit.expand_printing _ config).trans h.expanded⟩
  obtain ⟨log, hrun⟩ := hexpands.run_eq input
  rw [hrun]
  exact prefix_deliver_of_none rfl ((pointsOf_printing ..).trans hplain)

/-! ### Consent -/

def answerOf (line : List Char) : String := (String.ofList (Text.trim line)).toLower

/-- The first line of an input that answers the question says yes. -/
def Consents (input : List Char) : Prop :=
  ∃ before line after, inputLines input = before ++ line :: after ∧
    (∀ other ∈ before, answerOf other ∉ ["y", "yes", "", "n", "no"]) ∧ answerOf line ∈ ["y", "yes"]

theorem confirm_eq_some_true {prompt : List Char} {lines : List (List Char)} (h : (confirm prompt lines).1 = some true) :
    ∃ before line after, lines = before ++ line :: after ∧
      (∀ other ∈ before, answerOf other ∉ ["y", "yes", "", "n", "no"]) ∧ answerOf line ∈ ["y", "yes"] := by
  induction lines with
  | nil => cases h
  | cons line rest ih =>
    simp only [confirm] at h
    split at h
    · rename_i hyes
      exact ⟨[], line, rest, rfl, by simp, hyes⟩
    · rename_i hyes
      split at h
      · cases h
      · rename_i hno
        obtain ⟨before, found, after, rfl, hbefore, hfound⟩ := ih h
        refine ⟨line :: before, found, after, rfl, List.forall_mem_cons.mpr ⟨?_, hbefore⟩, hfound⟩
        simp only [List.mem_cons, List.not_mem_nil, or_false] at hyes hno ⊢
        unfold answerOf
        tauto

theorem init_of_not_consents {g : Given} {input : List Char} {store : Store}
    (hthere : store.exists? (Path.ofText ((g.value? "output").getD defaultFileName)) = true) (h : ¬Consents input) :
    (init r g input store).store = store := by
  simp only [init, hthere, if_true]
  split
  · rename_i asked hconfirm
    exact absurd (confirm_eq_some_true (congrArg Prod.fst hconfirm)) h
  · rfl
  · rfl

/-! ### What runs touch -/

theorem run_inspect_store (r : Readers) (arguments : List String) (input : List Char) (store : Store) :
    (runWith r ("inspect" :: arguments) input store).store = store := by
  have hrun : runWith r ("inspect" :: arguments) input store =
    withOperand r inspectOptions arguments store (inspect r) := rfl
  rw [hrun, withOperand]
  split
  · split
    · unfold inspect
      split
      · exact Stop.outcome_store ..
      · dsimp only
        split
        · exact Stop.outcome_store ..
        · rfl
    · rfl
  · exact helpOutcome_store ..

theorem run_init_of_not_consents {arguments : List String} {input : List Char} {store : Store} {g : Given}
    (hgiven : Given.ofArguments? initOptions arguments = some g)
    (hthere : store.exists? (Path.ofText ((g.value? "output").getD defaultFileName)) = true) (h : ¬Consents input) :
    (runWith r ("init" :: arguments) input store).store = store := by
  simp only [run_init, hgiven]
  split
  · exact init_of_not_consents hthere h
  · rfl

/-- A run of `expand` that succeeds has given help and kept all files, or it has expanded its source. Without an output
    path it then keeps all files and prints the result first; otherwise the file at that path holds the result, no other
    file has changed, and the result is what the same configuration prints without a path. What is printed is the result
    without its escape sequences, which is the result itself if it has none. `inspect` keeps all files, and so does `init`
    without consent to replace one. -/
theorem expansion_touches_only_its_output (r : Readers) (input : List Char) (store : Store) :
    (∀ arguments, (runWith r ("expand" :: arguments) input store).exitCode = 0 →
      (asksHelp expandOptions arguments = true ∧ (runWith r ("expand" :: arguments) input store).store = store) ∨
      ∃ g file text config kit e, Expands r arguments store g file text config kit e ∧
        (config.output.path = none → (runWith r ("expand" :: arguments) input store).store = store ∧
          Console.withoutSequences e.source <+: (runWith r ("expand" :: arguments) input store).output) ∧
        (∀ path, config.output.path = some path →
          store.HasSaved path (encode e.source) (runWith r ("expand" :: arguments) input store).store ∧
          ∀ other g', Given.ofArguments? expandOptions other = some g' → g'.operands = [file] →
            configFor r store (g'.value? "config") (g'.value? "language") (g'.isSet "strict") (g'.value? "output") =
              .ok config.printing →
            Console.withoutSequences e.source <+: (runWith r ("expand" :: other) input store).output) ∧
        (Console.withoutSequences e.source = e.source ↔ ¬Console.HasSequence e.source)) ∧
    (∀ arguments, (runWith r ("inspect" :: arguments) input store).store = store) ∧
    ∀ arguments g, Given.ofArguments? initOptions arguments = some g →
      store.exists? (Path.ofText ((g.value? "output").getD defaultFileName)) = true → ¬Consents input →
      (runWith r ("init" :: arguments) input store).store = store := by
  refine ⟨fun arguments hexit => ?_, fun arguments => run_inspect_store r arguments input store,
    fun arguments g hgiven hthere => run_init_of_not_consents hgiven hthere⟩
  rcases run_expand_cases r arguments input store with
    ⟨hstore, hhelp⟩ | ⟨g, file, text, config, kit, e, log, twin, hexpands, -⟩
  · exact Or.inl ⟨hhelp hexit, hstore⟩
  · obtain ⟨hprinted, hsaved⟩ := hexpands.effect hexit
    exact Or.inr ⟨g, file, text, config, kit, e, hexpands, hprinted, fun path hpath => ⟨(hsaved hpath).1,
      fun other g' hgiven hoperands hconfig => hexpands.printing (hsaved hpath).2 hgiven hoperands hconfig input⟩,
      Console.withoutSequences_eq_self_iff⟩

theorem not_consents_nil : ¬Consents [] := by
  rintro ⟨before, line, after, hlines, -⟩
  have hnone : inputLines [] = [] := by decide
  rw [hnone] at hlines
  exact List.append_ne_nil_of_right_ne_nil before (List.cons_ne_nil line after) hlines.symm

/-- One file with a marked declaration that is no record. -/
def caseStore : Store := { files := [(["a.swift"], encode "@Buildable enum A \x7b case a \x7d\n".toList)] }

theorem expansion_touches_only_its_output_in_place :
    (runWith .builtIn ["expand", "a.swift", "-o", "a.swift"] [] caseStore).exitCode = 0 ∧
      (∃ result, caseStore.HasSaved (Path.ofText "a.swift") (encode result)
          (runWith .builtIn ["expand", "a.swift", "-o", "a.swift"] [] caseStore).store ∧
        Console.withoutSequences result <+: (runWith .builtIn ["expand", "a.swift"] [] caseStore).output) ∧
      (runWith .builtIn ["init", "-o", "a.swift"] [] caseStore).store = caseStore := by
  have hexit : (runWith .builtIn ["expand", "a.swift", "-o", "a.swift"] [] caseStore).exitCode = 0 := by
    decide +kernel
  have hhelp : asksHelp expandOptions ["a.swift", "-o", "a.swift"] = false := by decide +kernel
  have hgiven : Given.ofArguments? expandOptions ["a.swift", "-o", "a.swift"] =
      some ⟨[("output", "a.swift")], ["a.swift"]⟩ := by decide +kernel
  have hother : Given.ofArguments? expandOptions ["a.swift"] = some ⟨[], ["a.swift"]⟩ := by decide +kernel
  have hinit : Given.ofArguments? initOptions ["-o", "a.swift"] = some ⟨[("output", "a.swift")], []⟩ := by decide +kernel
  have hconfig : configFor .builtIn caseStore none none false (some "a.swift") =
      .ok { output := { path := some (Path.ofText "a.swift") } } := Tree.eq_ok_of_toOption (by decide +kernel)
  have hprinting : configFor .builtIn caseStore none none false none = .ok {} :=
    Tree.eq_ok_of_toOption (by decide +kernel)
  obtain ⟨hexpand, -, hkeeps⟩ := expansion_touches_only_its_output .builtIn [] caseStore
  rcases hexpand ["a.swift", "-o", "a.swift"] hexit with ⟨hasks, -⟩ | ⟨g, file, text, config, kit, e, hexpands, -, hsaved, -⟩
  · cases hhelp.symm.trans hasks
  · obtain rfl := Option.some.inj (hgiven.symm.trans hexpands.given)
    obtain rfl := List.singleton_inj.mp hexpands.operands
    obtain rfl := Except.ok.inj (hconfig.symm.trans hexpands.configured)
    obtain ⟨hfile, hprinted⟩ := hsaved _ rfl
    exact ⟨hexit, ⟨e.source, hfile, hprinted _ _ hother rfl hprinting⟩,
      hkeeps _ _ hinit (by decide +kernel) not_consents_nil⟩

def boldSource : List Char := "// \x1b[1mA\x1b[0m\nstruct A \x7b\x7d\n".toList

def boldStore : Store := { files := [(["a.swift"], encode boldSource)] }

/-- What is printed need not be the result: escape sequences are lost. -/
theorem printed_expansion_loses_sequences :
    (LanguageKit.swift.expand boldSource {}).toOption.map Expansion.source = some boldSource ∧
      (run ["expand", "a.swift"] [] boldStore).exitCode = 0 ∧
      ¬boldSource <+: (run ["expand", "a.swift"] [] boldStore).output ∧
      (run ["expand", "a.swift", "-o", "b.swift"] [] boldStore).store.file? ["b.swift"] = some (encode boldSource) := by
  decide +kernel

end Command

end Recordsmith
