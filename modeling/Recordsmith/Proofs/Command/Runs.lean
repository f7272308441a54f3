import Recordsmith.Command.Run
import Recordsmith.Proofs.Console.Rendering
import Recordsmith.Proofs.Store.Saving
import Recordsmith.Proofs.Text.CodePoints

/-!
What a run of a command can do, with whatever it reads. A run of `expand` either stops, with the files as they were, or it
has expanded its source and delivers the result.
-/

namespace Recordsmith.Command

open Text (CodePoint)
open Text.Utf8 (decode encode)

variable {r : Readers} {arguments : List String} {input : List Char} {store : Store} {log : List LogLine}

/-! ### Messages -/

theorem isOk_printed (markup : String) : (printed r markup).isOk = (r.markup markup.toList).isOk := by
  unfold printed
  cases r.markup markup.toList <;> rfl

theorem printAll_eq_none_iff {messages : List String} :
    (printAll r messages).2 = none ↔ ∀ message ∈ messages, (printed r message).isOk = true := by
  induction messages with
  | nil => simp [printAll]
  | cons message rest ih =>
    rw [List.forall_mem_cons, ← ih, printAll]
    cases hprinted : printed r message with
    | error e => simp [Except.isOk, Except.toBool]
    | ok text => simp [Except.isOk, Except.toBool]

theorem printAll_eq_some {messages : List String} {f : Failure} (h : (printAll r messages).2 = some f) :
    ∃ message ∈ messages, ∃ e, printed r message = .error e ∧ f = .markup e := by
  induction messages with
  | nil => cases h
  | cons message rest ih =>
    rw [printAll] at h
    cases hprinted : printed r message with
    | error e =>
      rw [hprinted] at h
      exact ⟨message, List.mem_cons_self .., e, hprinted, (Option.some.inj h).symm⟩
    | ok text =>
      rw [hprinted] at h
      obtain ⟨other, hother, hfails⟩ := ih h
      exact ⟨other, List.mem_cons_of_mem _ hother, hfails⟩

theorem isPlain_toString (n : Nat) : Console.IsPlain (toString n).toList := by
  intro c hc
  have hdigits : c ∈ Nat.toDigits 10 n := by simpa using hc
  have hdigit := Nat.isDigit_of_mem_toDigits (by omega) (by omega) hdigits
  refine ⟨?_, ?_⟩
  · rintro rfl
    cases hdigit
  · rintro rfl
    cases hdigit

/-- What stands between the mark of success and the path of a saved file. -/
def counts (e : Expansion) : List Char :=
  " Expanded ".toList ++ ((toString e.expanded.length).toList ++ (" declarations (".toList ++
    ((toString e.memberCount).toList ++ " members) -> ".toList)))

theorem isPlain_counts (e : Expansion) : Console.IsPlain (counts e) := by
  have hlead : Console.IsPlain " Expanded ".toList := by decide
  have hmiddle : Console.IsPlain " declarations (".toList := by decide
  have hend : Console.IsPlain " members) -> ".toList := by decide
  exact hlead.append ((isPlain_toString _).append (hmiddle.append ((isPlain_toString _).append hend)))

theorem toList_savedMessage (e : Expansion) (path : Path) :
    (savedMessage e path).toList = Console.successMark ++ (counts e ++ path.text.toList) := by
  have hlead : "[green]✓[/green] Expanded ".toList = Console.successMark ++ " Expanded ".toList := by decide
  unfold savedMessage counts
  repeat rw [String.toList_append]
  rw [hlead]
  repeat rw [List.append_assoc]

/-- By the rules of this library's markup, whether a saved file can be announced depends on nothing but its path. -/
theorem isOk_printed_savedMessage (e : Expansion) (path : Path) :
    (printed .builtIn (savedMessage e path)).isOk = (Console.render path.text.toList).isOk := by
  rw [isOk_printed, toList_savedMessage]
  exact Console.isOk_render_successMark (isPlain_counts e) _

/-! ### Stopping -/

@[simp] theorem Stop.outcome_store (stop : Stop) (store : Store) (log : List LogLine) :
    (stop.outcome r store log).store = store := by
  cases stop <;> rfl

theorem Stop.outcome_exitCode_ne_zero (stop : Stop) (store : Store) (log : List LogLine) :
    (stop.outcome r store log).exitCode ≠ 0 := by
  cases stop <;> exact Nat.succ_ne_zero _

@[simp] theorem helpOutcome_store (specs : List OptionSpec) (arguments : List String) (store : Store) :
    (helpOutcome r specs arguments store).store = store := by
  unfold helpOutcome
  split <;> rfl

theorem helpOutcome_exitCode_ne_zero {specs : List OptionSpec} (h : asksHelp specs arguments = false) (store : Store) :
    (helpOutcome r specs arguments store).exitCode ≠ 0 := by
  rw [helpOutcome, h]
  exact Nat.succ_ne_zero _

/-! ### Kits -/

theorem kit_of_mem {entry : Language × LanguageKit} (h : entry ∈ r.registry.kits) :
    entry.2 = r.kit .swift ∨ entry.2 = r.kit .java := by
  rcases List.mem_cons.mp h with rfl | h
  · exact Or.inl rfl
  · exact Or.inr (congrArg Prod.snd (List.mem_singleton.mp h))

theorem kit_of_kitFor {language : Option Language} {path : Path} {k : LanguageKit}
    (h : kitFor r language path = .ok k) : k = r.kit .swift ∨ k = r.kit .java := by
  have hlookup := mapError_eq_ok h
  cases language with
  | some language =>
    simp only [Registry.lookup, Registry.get] at hlookup
    split at hlookup
    · rename_i kit hkit
      obtain rfl := Except.ok.inj hlookup
      obtain ⟨found, -, hfound⟩ := Option.bind_eq_some_iff.mp hkit
      obtain ⟨entry, hentry, rfl⟩ := Option.map_eq_some_iff.mp hfound
      exact kit_of_mem (List.mem_of_find?_eq_some hentry)
    · cases hlookup
  | none =>
    simp only [Registry.lookup, Registry.forPath] at hlookup
    split at hlookup
    · rename_i entry hentry
      obtain rfl := Except.ok.inj hlookup
      exact kit_of_mem (List.mem_of_find?_eq_some hentry)
    · cases hlookup

/-- Every file with an extension of one of the languages is served, and so is every file if a language is set. -/
theorem exists_kitFor (r : Readers) (language : Option Language) {path : Path}
    (h : path.suffix.toLower ∈ [".swift", ".java"]) : ∃ k, kitFor r language path = .ok k := by
  cases language with
  | some language => cases language <;> exact ⟨_, rfl⟩
  | none =>
    have hascii : path.suffix.toLower.toList.all (·.toNat < 128) = true := by
      rcases List.mem_cons.mp h with hswift | hjava
      · rw [hswift]
        decide
      · rw [List.mem_singleton.mp hjava]
        decide
    simp only [kitFor, Registry.lookup, Registry.forPath, Readers.registry, Registry.initial,
      Text.lowerCase_eq_toLower hascii]
    rcases List.mem_cons.mp h with hswift | hjava
    · rw [hswift]
      exact ⟨r.kit .swift, rfl⟩
    · rw [List.mem_singleton.mp hjava]
      exact ⟨r.kit .java, rfl⟩

/-! ### Choosing the command -/

theorem run_expand (arguments : List String) (input : List Char) (store : Store) :
    runWith r ("expand" :: arguments) input store = withOperand r expandOptions arguments store (expand r) := rfl

theorem run_expand_of_given {g : Given} {file : String} (hgiven : Given.ofArguments? expandOptions arguments = some g)
    (hoperands : g.operands = [file]) (input : List Char) (store : Store) :
    runWith r ("expand" :: arguments) input store = expand r g file store := by
  rw [run_expand, withOperand, hgiven]
  simp only [hoperands]

theorem run_init (arguments : List String) (input : List Char) (store : Store) :
    runWith r ("init" :: arguments) input store =
      match Given.ofArguments? initOptions arguments with
      | some g => if g.operands.isEmpty then init r g input store else Stop.usage.outcome r store []
      | none => helpOutcome r initOptions arguments store := rfl

/-! ### Expanding -/

/-- A run of `expand` that has come to a result: what it took from its arguments and the files, and the expansion. -/
structure Expands (r : Readers) (arguments : List String) (store : Store) (g : Given) (file : String) (text : List Char)
    (config : Config) (kit : LanguageKit) (e : Expansion) : Prop where
  given : Given.ofArguments? expandOptions arguments = some g
  operands : g.operands = [file]
  configured : configFor r store (g.value? "config") (g.value? "language") (g.isSet "strict") (g.value? "output") = .ok config
  served : kitFor r config.language (Path.ofText file) = .ok kit
  decoded : ∃ bytes, store.read (Path.ofText file) = .ok bytes ∧ decode bytes = .ok text
  expanded : kit.expand (Text.unifyBreaks text) config = .ok e

theorem sourceText_eq_ok {path : Path} {source : List Char} (h : sourceText store path = .ok source) :
    ∃ bytes text, store.read path = .ok bytes ∧ decode bytes = .ok text ∧ source = Text.unifyBreaks text := by
  unfold sourceText at h
  split at h
  · cases h
  · rename_i bytes hread
    split at h
    · cases h
    · rename_i text hdecode
      exact ⟨bytes, text, hread, hdecode, (Except.ok.inj h).symm⟩

theorem expandRequest_eq_ok {g : Given} {file : String} {request : Request}
    (h : expandRequest r g file store = .ok request) :
    configFor r store (g.value? "config") (g.value? "language") (g.isSet "strict") (g.value? "output") = .ok request.config ∧
      kitFor r request.config.language (Path.ofText file) = .ok request.kit ∧
      sourceText store (Path.ofText file) = .ok request.source := by
  obtain ⟨path, hpath, h⟩ := bind_eq_ok h
  obtain ⟨config, hconfig, h⟩ := bind_eq_ok h
  obtain ⟨kit, hkit, h⟩ := bind_eq_ok h
  obtain ⟨source, hsource, h⟩ := bind_eq_ok h
  obtain rfl := Except.ok.inj h
  simp only [existing] at hpath
  split at hpath
  · obtain rfl := Except.ok.inj hpath
    exact ⟨hconfig, hkit, hsource⟩
  · cases hpath

theorem expandRequest_of_eq_ok {g : Given} {file : String} {config : Config} {kit : LanguageKit} {text : List Char}
    {bytes : List UInt8}
    (hconfig : configFor r store (g.value? "config") (g.value? "language") (g.isSet "strict") (g.value? "output") = .ok config)
    (hkit : kitFor r config.language (Path.ofText file) = .ok kit) (hread : store.read (Path.ofText file) = .ok bytes)
    (hdecode : decode bytes = .ok text) :
    expandRequest r g file store = .ok ⟨config, kit, Text.unifyBreaks text⟩ := by
  have hthere : existing store file = .ok (Path.ofText file) := by simp [existing, Store.exists?_of_read hread]
  have hsource : sourceText store (Path.ofText file) = .ok (Text.unifyBreaks text) := by simp [sourceText, hread, hdecode]
  rw [expandRequest, hthere, hconfig]
  simp [bind, Except.bind, hkit, hsource, pure, Except.pure]

/-- A run of `expand` stops with everything as it was, or it delivers the expansion of its source. It stops well only to
    give help. -/
theorem run_expand_cases (r : Readers) (arguments : List String) (input : List Char) (store : Store) :
    ((runWith r ("expand" :: arguments) input store).store = store ∧
      ((runWith r ("expand" :: arguments) input store).exitCode = 0 → asksHelp expandOptions arguments = true)) ∨
    ∃ g file text config kit e log twin, Expands r arguments store g file text config kit e ∧
      runWith r ("expand" :: arguments) input store =
        deliver r store log config.output e (config.output.points e.source twin) := by
  have hstops : ∀ (stop : Stop) (log : List LogLine), (stop.outcome r store log).store = store ∧
      ((stop.outcome r store log).exitCode = 0 → asksHelp expandOptions arguments = true) := fun stop log =>
    ⟨stop.outcome_store store log, fun h => absurd h (stop.outcome_exitCode_ne_zero store log)⟩
  rw [run_expand, withOperand]
  split
  · rename_i g hgiven
    split
    · rename_i file hoperands
      unfold expand
      split
      · exact Or.inl (hstops ..)
      · rename_i request hrequest
        obtain ⟨hconfig, hkit, hsource⟩ := expandRequest_eq_ok hrequest
        obtain ⟨bytes, text, hread, hdecode, hunified⟩ := sourceText_eq_ok hsource
        dsimp only
        split
        · exact Or.inl (hstops ..)
        · rename_i e he
          rw [hunified] at he
          exact Or.inr ⟨g, file, text, _, _, e, _, _, ⟨hgiven, hoperands, hconfig, hkit, ⟨bytes, hread, hdecode⟩, he⟩, rfl⟩
    · exact Or.inl (hstops ..)
  · refine Or.inl ⟨helpOutcome_store .., fun h => ?_⟩
    by_contra hhelp
    exact helpOutcome_exitCode_ne_zero (Bool.eq_false_iff.mpr hhelp) store h

/-- The code points of a result. -/
def pointsOf (kit : LanguageKit) (source : List Char) (config : Config) (e : Expansion) : List CodePoint :=
  config.output.points e.source ((kit.expand source config.twin).toOption.getD e).source

theorem Expands.run_eq {g : Given} {file : String} {text : List Char} {config : Config} {kit : LanguageKit} {e : Expansion}
    (h : Expands r arguments store g file text config kit e) (input : List Char) :
    ∃ log, runWith r ("expand" :: arguments) input store =
      deliver r store log config.output e (pointsOf kit (Text.unifyBreaks text) config e) := by
  obtain ⟨bytes, hread, hdecode⟩ := h.decoded
  have hexpand : kit.expandTree (Text.unifyBreaks text) (kit.read (Text.unifyBreaks text)) config = .ok e := h.expanded
  rw [run_expand_of_given h.given h.operands]
  simp only [expand, expandRequest_of_eq_ok h.configured h.served hread hdecode, hexpand]
  exact ⟨_, rfl⟩

/-! ### Delivering -/

variable {output : Output} {path : Path} {e : Expansion} {points : List CodePoint}

/-- A printed result changes no file, and it comes first if it has bytes. -/
theorem deliver_of_none (h : output.path = none) :
    (deliver r store log output e points).store = store ∧
      ((deliver r store log output e points).exitCode = 0 →
        Console.withoutSequences e.source <+: (deliver r store log output e points).output) := by
  simp only [deliver, h, printResult]
  split
  · exact ⟨Stop.outcome_store .., fun hexit => absurd hexit (Stop.outcome_exitCode_ne_zero _ _ _)⟩
  · exact ⟨rfl, fun _ => List.prefix_append _ _⟩

theorem prefix_deliver_of_none (h : output.path = none) (hpoints : points = CodePoint.ofChars e.source) :
    Console.withoutSequences e.source <+: (deliver r store log output e points).output := by
  simp only [deliver, h, printResult, hpoints, CodePoint.mapBetween_ofChars, CodePoint.encode_ofChars]
  exact List.prefix_append _ _

def savedMessages (e : Expansion) (path : Path) : List String := savedMessage e path :: e.skipped.map skippedMessage

/-- What comes of a result that goes to a file. It is saved and announced, unless no file can be there. One without
    bytes leaves the file empty, and one whose path has surrogates cannot be announced. -/
inductive Delivers (r : Readers) (store : Store) (output : Output) (path : Path) (e : Expansion)
    (points : List CodePoint) (o : Outcome) : Prop
  | refused (fault : output.nameFault? path ≠ none ∨ ∃ bytes error, store.save path bytes = .error error)
      (files : o.store.files = store.files) (exitCode : o.exitCode ≠ 0)
  | emptied (error : CodePoint.EncodeError) (left : Store) (log : List LogLine)
      (raw : CodePoint.encode points = .error error) (saved : store.save path [] = .ok left)
      (outcome : o = (Stop.ofError error.message).outcome r left log)
  | unannounced (raw : output.rawPath ≠ none) (saved : store.save path (encode e.source) = .ok o.store)
      (failure : o.failure = some .unprintable) (exitCode : o.exitCode ≠ 0)
  | saved (plain : points = CodePoint.ofChars e.source) (saved : store.save path (encode e.source) = .ok o.store)
      (failure : o.failure = (printAll r (savedMessages e path)).2)
      (exitCode : o.exitCode = 0 ↔ (printAll r (savedMessages e path)).2 = none)

/-- A result with bytes has those of its text. -/
theorem points_of_encode {text twin : List Char} {bytes : List UInt8}
    (h : CodePoint.encode (output.points text twin) = .ok bytes) :
    output.points text twin = CodePoint.ofChars text ∧ bytes = encode text := by
  have hplain : output.points text twin = CodePoint.ofChars text :=
    CodePoint.ofTwins_of_surrogates_eq_nil (CodePoint.surrogates_of_encode h)
  rw [hplain, CodePoint.encode_ofChars] at h
  exact ⟨hplain, (Except.ok.inj h).symm⟩

theorem files_refusePath (r : Readers) (store : Store) (log : List LogLine) (path : Path) (position : Nat)
    (message : String) :
    (refusePath r store log path position message).store.files = store.files ∧
      (refusePath r store log path position message).exitCode ≠ 0 := by
  unfold refusePath
  split
  · exact ⟨congrArg Store.files (Stop.outcome_store ..), Stop.outcome_exitCode_ne_zero _ _ _⟩
  · split
    · rename_i error hfails
      exact ⟨Store.files_ensureDirectory_of_error hfails, Nat.succ_ne_zero 0⟩
    · rename_i made hmade
      rw [Stop.outcome_store]
      exact ⟨Store.files_ensureDirectory_of_ok hmade, Stop.outcome_exitCode_ne_zero _ _ _⟩

theorem delivers_saveResult (r : Readers) (store : Store) (log : List LogLine) (output : Output) (path : Path)
    (e : Expansion) (twin : List Char) : Delivers r store output path e (output.points e.source twin)
    (saveResult r store log output path e (output.points e.source twin)) := by
  unfold saveResult
  dsimp only
  split
  · rename_i error hraw
    split
    · rename_i fault hfails
      exact .refused (.inr ⟨_, _, hfails⟩) (Store.files_of_save_eq_error hfails) (Nat.succ_ne_zero 0)
    · rename_i left hsave
      exact .emptied error left log hraw hsave rfl
  · rename_i bytes hencode
    obtain ⟨hplain, rfl⟩ := points_of_encode hencode
    split
    · rename_i fault hfails
      exact .refused (.inr ⟨_, _, hfails⟩) (Store.files_of_save_eq_error hfails) (Nat.succ_ne_zero 0)
    · rename_i saved hsave
      split
      · rename_i hraw
        exact .unannounced (Option.isSome_iff_ne_none.mp hraw) hsave rfl (Nat.succ_ne_zero 0)
      · refine .saved hplain hsave rfl ?_
        unfold savedMessages
        cases (printAll r (savedMessage e path :: e.skipped.map skippedMessage)).2 with
        | none => simp
        | some f => simp

theorem delivers (r : Readers) (store : Store) (log : List LogLine) (h : output.path = some path) (e : Expansion)
    (twin : List Char) :
    Delivers r store output path e (output.points e.source twin)
      (deliver r store log output e (output.points e.source twin)) := by
  simp only [deliver, h]
  split
  · rename_i position message hfault
    obtain ⟨hfiles, hexit⟩ := files_refusePath r store log path position message
    exact .refused (.inl (hfault ▸ Option.some_ne_none _)) hfiles hexit
  · exact delivers_saveResult ..

end Recordsmith.Command
