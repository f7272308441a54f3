import Recordsmith.Proofs.Command.Runs
import Recordsmith.Proofs.Expansion.Unmarked
import Recordsmith.Proofs.Source.JavaBoundaries
import Recordsmith.Proofs.Source.SwiftBoundaries
import Recordsmith.Proofs.Text.Decoding

/-!
A run of `expand` on a source without a marked declaration writes the source as it was read: with all line breaks alike.
That is a copy of the file exactly if no line of it ends with a return.
-/

namespace Recordsmith

open Recordsmith.Source (NodeOn)
open Text (CodePoint)
open Text.Utf8 (IsBoundary decode encode)

/-! ### Line breaks -/

namespace Text
variable {text : List Char}

theorem not_mem_unifyBreaks (text : List Char) : '\r' ∉ unifyBreaks text := by
  fun_induction unifyBreaks text with
  | case1 rest ih => simpa using ih
  | case2 rest _ ih => simpa using ih
  | case3 c rest hcrlf hreturn ih =>
    intro h
    rcases List.mem_cons.mp h with rfl | h
    · exact hreturn rfl
    · exact ih h
  | case4 => exact List.not_mem_nil

theorem unifyBreaks_eq_self_iff : unifyBreaks text = text ↔ '\r' ∉ text := by
  refine ⟨fun h => h ▸ not_mem_unifyBreaks text, fun h => ?_⟩
  fun_induction unifyBreaks text with
  | case1 rest ih => exact absurd (List.mem_cons_self ..) h
  | case2 rest _ ih => exact absurd (List.mem_cons_self ..) h
  | case3 c rest hcrlf hreturn ih => rw [ih fun hmem => h (List.mem_cons_of_mem _ hmem)]
  | case4 => rfl

/-- The bytes of a text with its line breaks alike are those that it was read from exactly if it has no return. -/
theorem encode_unifyBreaks_eq_iff {bytes : List UInt8} (h : decode bytes = .ok text) :
    encode (unifyBreaks text) = bytes ↔ '\r' ∉ text := by
  rw [← unifyBreaks_eq_self_iff]
  constructor
  · intro hbytes
    have hdecode := Utf8.decode_encode (unifyBreaks text)
    rw [hbytes, h] at hdecode
    exact (Except.ok.inj hdecode).symm
  · intro htext
    rw [htext, Utf8.encode_of_decode h]

end Text

theorem Config.synthesis_twin (config : Config) : config.twin.synthesis = config.synthesis := by
  unfold twin
  split <;> rfl

namespace Command
variable {r : Readers} {store : Store} {config : Config}

/-! ### Readers -/

/-- Readers whose nodes lie between characters of the source. -/
def Readers.KeepsBoundaries (r : Readers) : Prop :=
  ∀ language source, NodeOn (IsBoundary source) (r.source language source).root

theorem Readers.keepsBoundaries_builtIn : Readers.builtIn.KeepsBoundaries := by
  intro language source
  cases language with
  | swift => exact Source.SwiftSource.read_on source
  | java => exact Source.JavaSource.read_on source

/-- With such readers a source without a marked declaration is its own expansion. -/
theorem Readers.KeepsBoundaries.expand_eq (h : r.KeepsBoundaries) {language : Option Language} {path : Path}
    {k : LanguageKit} (hkit : kitFor r language path = .ok k) {source : List Char}
    (hunmarked : k.Unmarked source config.synthesis.marker) : k.expand source config = .ok { source := source } := by
  rcases kit_of_kitFor hkit with rfl | rfl
  · exact hunmarked.expand_eq Tree.SwiftTree.readsTexts (h .swift source)
  · exact hunmarked.expand_eq Tree.JavaTree.readsTexts (h .java source)

/-! ### Arguments -/

/-- An output path that is given is that of the configuration, and it is a text. -/
theorem configFor_path {file language : Option String} {strict : Bool} {out : String} (hout : out ≠ "")
    (h : configFor r store file language strict (some out) = .ok config) :
    config.output.path = some (Path.ofText out) ∧ config.output.rawPath = none := by
  have hpath : (nonEmpty (some out)).map Path.ofText = some (Path.ofText out) := by simp [nonEmpty, hout]
  simp only [configFor, hpath] at h
  split at h
  · have hsettings := mapError_eq_ok h
    obtain ⟨language, -, hsettings⟩ := bind_eq_ok hsettings
    split at hsettings
    · obtain rfl := Except.ok.inj hsettings
      exact ⟨rfl, rfl⟩
    · cases hsettings
  · obtain ⟨filePath, -, h⟩ := bind_eq_ok h
    split at h
    · cases h
    · obtain ⟨loaded, -, h⟩ := bind_eq_ok h
      obtain ⟨language, -, h⟩ := bind_eq_ok (mapError_eq_ok h)
      obtain rfl := Except.ok.inj h
      exact ⟨rfl, rfl⟩

/-! ### Copying -/

/-- The code points of a source without a marked declaration are its characters, whatever the indentation is. -/
theorem pointsOf_of_unmarked {k : LanguageKit} {source : List Char}
    (hexpand : k.expand source config.twin = .ok { source := source }) :
    pointsOf k source config { source := source } = CodePoint.ofChars source := by
  rw [pointsOf, hexpand]
  exact CodePoint.ofTwins_self _ _ source

/-- A source without a marked declaration is written to the output path as it was read, and the run succeeds. -/
theorem unmarked_source_is_copied (r : Readers) {arguments : List String} {store : Store} {g : Given} {file out : String}
    {config : Config} {bytes : List UInt8} {text : List Char} (input : List Char) (hreaders : r.KeepsBoundaries)
    (hgiven : Given.ofArguments? expandOptions arguments = some g) (hoperands : g.operands = [file])
    (hoption : g.value? "output" = some out) (hout : out ≠ "")
    (hconfig : configFor r store (g.value? "config") (g.value? "language") (g.isSet "strict") (g.value? "output") =
      .ok config)
    (hsuffix : (Path.ofText file).suffix.toLower ∈ [".swift", ".java"])
    (hread : store.read (Path.ofText file) = .ok bytes) (hdecode : decode bytes = .ok text)
    (hunmarked : ∀ k, kitFor r config.language (Path.ofText file) = .ok k →
      k.Unmarked (Text.unifyBreaks text) config.synthesis.marker)
    (hwritable : store.IsWritable (Path.ofText out)) (hname : '\x00' ∉ (Path.ofText out).text.toList)
    (hprintable :
      (printed r (savedMessage { source := Text.unifyBreaks text } (Path.ofText out))).isOk = true) :
    (runWith r ("expand" :: arguments) input store).exitCode = 0 ∧
      (runWith r ("expand" :: arguments) input store).store.read (Path.ofText out) =
        .ok (encode (Text.unifyBreaks text)) ∧
      ((runWith r ("expand" :: arguments) input store).store.read (Path.ofText out) = .ok bytes ↔ '\r' ∉ text) := by
  obtain ⟨k, hkit⟩ := exists_kitFor r config.language hsuffix
  have hexpands : Expands r arguments store g file text config k { source := Text.unifyBreaks text } :=
    ⟨hgiven, hoperands, hconfig, hkit, ⟨bytes, hread, hdecode⟩, hreaders.expand_eq hkit (hunmarked k hkit)⟩
  obtain ⟨hpath, hraw⟩ := configFor_path hout (hoption ▸ hconfig)
  obtain ⟨log, hrun⟩ := hexpands.run_eq input
  rw [hrun]
  have hplain : pointsOf k (Text.unifyBreaks text) config { source := Text.unifyBreaks text } =
      CodePoint.ofChars (Text.unifyBreaks text) :=
    pointsOf_of_unmarked (hreaders.expand_eq hkit (config.synthesis_twin ▸ hunmarked k hkit))
  cases delivers r store log hpath { source := Text.unifyBreaks text } _ with
  | refused fault files exitCode =>
    rcases fault with hfault | ⟨other, error, hfails⟩
    · simp [Output.nameFault?, hraw, hname] at hfault
    · obtain ⟨saved, hsave⟩ := hwritable.exists_save other
      cases hsave.symm.trans hfails
  | emptied error left log raw saved outcome =>
    rw [← pointsOf, hplain, CodePoint.encode_ofChars] at raw
    cases raw
  | unannounced raw saved failure exitCode => exact absurd hraw raw
  | saved plain saved failure exitCode =>
    have hprints : (printAll r (savedMessages { source := Text.unifyBreaks text } (Path.ofText out))).2 = none :=
      printAll_eq_none_iff.mpr (List.forall_mem_cons.mpr ⟨hprintable, fun _ h => absurd h List.not_mem_nil⟩)
    have hsaved := (Store.hasSaved_save saved).read
    rw [pointsOf, hsaved]
    refine ⟨exitCode.mpr hprints, rfl, ?_⟩
    rw [← Text.encode_unifyBreaks_eq_iff hdecode]
    exact ⟨Except.ok.inj, congrArg Except.ok⟩

def noteSource : List Char := "// caf\u00e9\n@Note class A \x7b\n  int x;\n\x7d\n".toList

def noteStore : Store := { files := [(["A.java"], encode noteSource)] }

theorem unmarked_source_is_copied_note :
    noteStore.IsWritable (Path.ofText "out/B.java") ∧ '\r' ∉ noteSource ∧
      (runWith .builtIn ["expand", "A.java", "-o", "out/B.java"] [] noteStore).exitCode = 0 ∧
      (runWith .builtIn ["expand", "A.java", "-o", "out/B.java"] [] noteStore).store.read (Path.ofText "out/B.java") =
        .ok (encode noteSource) := by
  have hwritable : noteStore.IsWritable (Path.ofText "out/B.java") := ⟨[], by decide +kernel⟩
  have hreturn : '\r' ∉ noteSource := by decide +kernel
  have hgiven : Given.ofArguments? expandOptions ["A.java", "-o", "out/B.java"] =
      some ⟨[("output", "out/B.java")], ["A.java"]⟩ := by decide +kernel
  have hconfig : configFor .builtIn noteStore none none false (some "out/B.java") =
      .ok { output := { path := some (Path.ofText "out/B.java") } } := Tree.eq_ok_of_toOption (by decide +kernel)
  have hread : noteStore.read (Path.ofText "A.java") = .ok (encode noteSource) :=
    Tree.eq_ok_of_toOption (by decide +kernel)
  have hunmarked : ∀ k, kitFor .builtIn none (Path.ofText "A.java") = .ok k →
      k.Unmarked (Text.unifyBreaks noteSource) "Buildable" := by
    intro k hk
    rcases kit_of_kitFor hk with rfl | rfl
    · decide +kernel
    · decide +kernel
  have hprintable : (Console.render (Path.ofText "out/B.java").text.toList).isOk = true := by decide +kernel
  obtain ⟨hexit, -, hcopy⟩ := unmarked_source_is_copied .builtIn [] Readers.keepsBoundaries_builtIn hgiven rfl rfl
    (by decide) hconfig (by decide +kernel) hread (Text.Utf8.decode_encode noteSource) hunmarked hwritable
    (by decide +kernel) ((isOk_printed_savedMessage ..).trans hprintable)
  exact ⟨hwritable, hreturn, hexit, hcopy.mpr hreturn⟩

def returnSource : List Char := "struct A \x7b\x7d\r\n".toList

def returnStore : Store := { files := [(["a.swift"], encode returnSource)] }

/-- The line breaks of a file are not copied. -/
theorem copy_loses_returns :
    LanguageKit.swift.Unmarked (Text.unifyBreaks returnSource) "Buildable" ∧
      LanguageKit.swift.Unmarked returnSource "Buildable" ∧
      (run ["expand", "a.swift", "-o", "b.swift"] [] returnStore).exitCode = 0 ∧
      returnStore.file? ["a.swift"] = some (encode returnSource) ∧
      (run ["expand", "a.swift", "-o", "b.swift"] [] returnStore).store.file? ["b.swift"] =
        some (encode "struct A \x7b\x7d\n".toList) ∧
      encode "struct A \x7b\x7d\n".toList ≠ encode returnSource := by
  decide +kernel

end Command

end Recordsmith
