import Recordsmith.Proofs.Expansion.LineBreaks
import Recordsmith.Proofs.Text.Blocks

/-!
Inserted members can be read back. A reader that knows the line break of the source and the two indentations undoes each
step of the insertion: the line breaks, the gap in front, the closing brace, the empty lines between members and their
indentation. What it gives is the list of members that were inserted, for all texts without blank lines.
-/

namespace Recordsmith

open Text (isBlank lines unlines)
open Code (HasReturn)

/-! ### Reading -/

/-- The members that an inserted text holds, given the line break that it is written with: what stands between the line
    breaks in front and the closing brace, split at the blank lines, each line without the indentation of members. -/
def Span.readMembers (span : Span) (mark : Text.LineBreak) (inserted : List Char) : Option (List String) := do
  let text := (Text.readBreaks mark inserted).dropWhile (· == '\n')
  let block ← ('\n' :: span.baseIndent.toList ++ ['\x7d']).isSuffixOf? text
  let groups := (lines block).splitOnP (·.all isBlank)
  groups.mapM fun group => (group.mapM span.memberIndent.toList.isPrefixOf?).map fun found => String.ofList (unlines found)

/-- A text whose lines all hold a character that is not blank, and that has no other line breaks than `\n`. -/
structure Code.IsSolid (text : String) : Prop where
  lines : ∀ line ∈ lines text.toList, line.all isBlank = false
  plain : ¬HasReturn text

instance {text : String} : Decidable (Code.IsSolid text) :=
  decidable_of_iff ((∀ line ∈ lines text.toList, line.all isBlank = false) ∧ ¬HasReturn text)
    ⟨fun ⟨h1, h2⟩ => ⟨h1, h2⟩, fun ⟨h1, h2⟩ => ⟨h1, h2⟩⟩

/-- Undoing a step for each part undoes it for all of them. -/
theorem mapM_map_eq_some {α β : Type} {f : α → β} {g : β → Option α} {l : List α} (h : ∀ a ∈ l, g (f a) = some a) :
    (l.map f).mapM g = some l := by
  induction l with
  | nil => rfl
  | cons a rest ih =>
    rw [List.map_cons, List.mapM_cons, h a (List.mem_cons_self ..), ih fun b hb => h b (List.mem_cons_of_mem _ hb)]
    rfl

namespace Span
variable {span : Span} {source : List Char} {rendered : List String} {text : String}

/-- The lines of a member as they stand in the body. -/
def memberLines (span : Span) (text : String) : List (List Char) := (lines text.toList).map (span.memberIndent.toList ++ ·)

/-! ### The lines of a block -/

theorem memberLines_ne_nil (span : Span) (text : String) : span.memberLines text ≠ [] :=
  mt List.map_eq_nil_iff.mp (Text.splitAt_ne_nil _)

theorem all_isBlank_memberLines (h : Code.IsSolid text) : ∀ line ∈ span.memberLines text, line.all isBlank = false := by
  intro line hline
  obtain ⟨own, hown, rfl⟩ := List.mem_map.mp hline
  rw [List.all_append, h.lines own hown, Bool.and_false]

theorem not_mem_memberLines (hspan : span.IsIndented) : ∀ line ∈ span.memberLines text, '\n' ∉ line := by
  intro line hline hbreak
  obtain ⟨own, hown, rfl⟩ := List.mem_map.mp hline
  rcases List.mem_append.mp hbreak with hbreak | hbreak
  · exact absurd (hspan.member _ hbreak) (by decide)
  · exact Text.not_mem_of_mem_lines hown hbreak

theorem block_eq_unlines (hsolid : ∀ text ∈ rendered, Code.IsSolid text) :
    span.block rendered = unlines ([[]].intercalate (rendered.map span.memberLines)) := by
  have hblocks : ∀ block ∈ rendered.map span.memberLines, block ≠ [] := by
    intro block hblock
    obtain ⟨text, -, rfl⟩ := List.mem_map.mp hblock
    exact span.memberLines_ne_nil text
  rw [← Text.joinWith_unlines hblocks, block, List.map_map]
  congr 1
  exact List.map_congr_left fun text htext => Text.indentBlock_of_solid (hsolid text htext).lines

theorem lines_block (hspan : span.IsIndented) (hne : rendered ≠ []) (hsolid : ∀ text ∈ rendered, Code.IsSolid text) :
    lines (span.block rendered) = [[]].intercalate (rendered.map span.memberLines) := by
  obtain ⟨first, others, rfl⟩ := List.exists_cons_of_ne_nil hne
  obtain ⟨line, more, hfirst⟩ := List.exists_cons_of_ne_nil (span.memberLines_ne_nil first)
  rw [block_eq_unlines hsolid]
  refine Text.lines_unlines ?_ fun line hline => ?_
  · cases others with
    | nil => simp [hfirst]
    | cons next rest => simp [List.intercalate_cons_cons]
  · -- A line of the block is a line of a member or one of the empty ones between.
    rcases Text.mem_intercalate hline with hempty | ⟨part, hpart, hmem⟩
    · obtain rfl := List.mem_singleton.mp hempty
      exact List.not_mem_nil
    · obtain ⟨text, -, rfl⟩ := List.mem_map.mp hpart
      exact not_mem_memberLines hspan line hmem

/-- Split at its blank lines, a block falls into the lines of its members. -/
theorem splitOnP_lines_block (hspan : span.IsIndented) (hne : rendered ≠ [])
    (hsolid : ∀ text ∈ rendered, Code.IsSolid text) :
    (lines (span.block rendered)).splitOnP (·.all isBlank) = rendered.map span.memberLines := by
  rw [lines_block hspan hne hsolid]
  refine Text.splitOnP_intercalate rfl (mt List.map_eq_nil_iff.mp hne) fun block hblock => ?_
  obtain ⟨text, htext, rfl⟩ := List.mem_map.mp hblock
  exact all_isBlank_memberLines (hsolid text htext)

theorem exists_block_cons (hspan : span.IsIndented) (hne : rendered ≠ []) (hsolid : ∀ text ∈ rendered, Code.IsSolid text) :
    ∃ c rest, span.block rendered = c :: rest ∧ c ≠ '\n' := by
  obtain ⟨line, more, hlines⟩ := List.exists_cons_of_ne_nil (Text.splitAt_ne_nil (p := (· == '\n')) (span.block rendered))
  refine Text.exists_cons_of_lines hlines ?_
  rintro rfl
  -- An empty first line would split off an empty member.
  have hsplit := splitOnP_lines_block hspan hne hsolid
  rw [lines, hlines, List.splitOnP_cons_eq_if_modifyHead] at hsplit
  obtain ⟨text, -, hempty⟩ := List.mem_map.mp (hsplit ▸ List.mem_cons_self .. : [] ∈ rendered.map span.memberLines)
  exact span.memberLines_ne_nil text hempty

/-! ### Reading an insertion -/

theorem readMembers_member (span : Span) (text : String) :
    ((span.memberLines text).mapM span.memberIndent.toList.isPrefixOf?).map (fun found => String.ofList (unlines found)) =
      some text := by
  have hlines : (span.memberLines text).mapM span.memberIndent.toList.isPrefixOf? = some (lines text.toList) :=
    mapM_map_eq_some fun line _ => List.isPrefixOf?_eq_some_iff_append_eq.mpr rfl
  rw [hlines, Option.map_some, Text.unlines_lines, String.ofList_toList]

theorem dropWhile_inserted (hspan : span.IsIndented) (hne : rendered ≠ []) (hsolid : ∀ text ∈ rendered, Code.IsSolid text) :
    (span.inserted source rendered ++ ['\x7d']).dropWhile (· == '\n') =
      span.block rendered ++ ('\n' :: span.baseIndent.toList ++ ['\x7d']) := by
  obtain ⟨c, rest, hblock, hc⟩ := exists_block_cons hspan hne hsolid
  have hseparator : ∀ c ∈ (if (Text.trimEnd (Text.upTo source span.bodyClose)).getLast? = some '\x7b' then ['\n']
      else ['\n', '\n']), (c == '\n') = true := by
    split <;> simp
  rw [inserted, List.append_assoc, List.append_assoc, List.dropWhile_append_of_pos hseparator, hblock, List.cons_append,
    List.dropWhile_cons_of_neg (by simpa using hc)]

theorem readMembers_insertion (hspan : span.IsIndented) (hne : rendered ≠ [])
    (hsolid : ∀ text ∈ rendered, Code.IsSolid text) :
    span.readMembers (Text.lineBreak source) (span.insertion source rendered).replacement = some rendered := by
  have hreturn : '\r' ∉ span.inserted source rendered ++ ['\x7d'] := by
    rw [List.mem_append, not_or]
    refine ⟨fun hmem => ?_, by decide⟩
    obtain ⟨text, htext, hreturn⟩ := (mem_inserted_iff source rendered hspan).mp hmem
    exact (hsolid text htext).plain hreturn
  have hbrace : ∀ mark : Text.LineBreak, ['\x7d'] = Text.withBreaks mark ['\x7d'] := fun _ => rfl
  have hbreaks : Text.readBreaks (Text.lineBreak source) (span.insertion source rendered).replacement =
      span.inserted source rendered ++ ['\x7d'] := by
    rw [insertion_replacement, hbrace (Text.lineBreak source), Text.withBreaks, Text.withBreaks, ← List.flatMap_append]
    exact Text.readBreaks_withBreaks _ hreturn
  have hending : ('\n' :: span.baseIndent.toList ++ ['\x7d']).isSuffixOf?
      (span.block rendered ++ ('\n' :: span.baseIndent.toList ++ ['\x7d'])) = some (span.block rendered) :=
    List.isSuffixOf?_eq_some_iff_append_eq.mpr rfl
  simp only [readMembers, hbreaks, dropWhile_inserted hspan hne hsolid, hending, Option.bind_eq_bind, Option.bind_some,
    splitOnP_lines_block hspan hne hsolid]
  exact mapM_map_eq_some fun text _ => span.readMembers_member text

/-! ### The replaced text -/

theorem upTo_insertion_start (span : Span) (source : List Char) (rendered : List String) :
    Text.upTo source (span.insertion source rendered).start = Text.trimEnd (Text.upTo source span.bodyClose) := by
  have htrim : Text.trimEnd (Text.upTo source span.bodyClose) <+: Text.upTo source span.bodyClose :=
    ⟨_, Text.trimEnd_append_blanks _⟩
  exact (List.prefix_iff_eq_take.mp (htrim.trans (List.take_prefix _ _))).symm

theorem startingAt_insertion_start (span : Span) (source : List Char) (rendered : List String) :
    ∀ c ∈ Text.startingAt (Text.upTo source span.bodyClose) (span.insertion source rendered).start, isBlank c = true := by
  intro c hc
  obtain ⟨i, hi⟩ := List.getElem?_of_mem hc
  have hstart : (span.insertion source rendered).start =
      ((Text.trimEnd (Text.upTo source span.bodyClose)).length : Int) := rfl
  rw [hstart, Text.startingAt, Text.resolve, if_neg (by omega), Int.toNat_natCast, List.getElem?_drop] at hi
  exact Text.isBlank_of_length_trimEnd_le (Nat.le_add_right ..) hi

end Span

/-- Members are inserted after the last character of the body that is not blank and before its closing brace, and the
    members can be read back from the inserted text: none is lost, added, changed, merged or moved. -/
theorem inserted_members_read_back {span : Span} (source : List Char) {rendered : List String}
    (hspan : span.IsIndented) (hne : rendered ≠ []) (hsolid : ∀ text ∈ rendered, Code.IsSolid text) :
    (∀ c ∈ Text.startingAt (Text.upTo source span.bodyClose) (span.insertion source rendered).start, isBlank c = true) ∧
      (∀ c ∈ (Text.upTo source (span.insertion source rendered).start).getLast?, isBlank c = false) ∧
      (span.insertion source rendered).stop = span.bodyClose + 1 ∧
      span.readMembers (Text.lineBreak source) (span.insertion source rendered).replacement = some rendered := by
  refine ⟨span.startingAt_insertion_start source rendered, fun c hc => ?_, rfl,
    Span.readMembers_insertion hspan hne hsolid⟩
  rw [Span.upTo_insertion_start] at hc
  exact Text.isBlank_of_mem_getLast?_trimEnd hc

namespace Sample

def returnsSource : List Char := "  struct P \x7b\r\n\tlet x: Int  \r\n  \x7d".toList

def returnsSpan : Span := { start := 2, stop := 32, bodyClose := 31, memberIndent := "\t", baseIndent := "  " }

/-- A member with an indented line of its own and one of a single line. -/
def twoMembers : List String := ["init(x: Int) \x7b\n\tself.x = x\n\x7d", "func y() \x7b \x7d"]

end Sample

open Sample in
/-- The source has `\r\n` and the members `\n`; they are read back as they were. -/
theorem inserted_members_read_back_returns :
    returnsSpan.IsIndented ∧ (∀ text ∈ twoMembers, Code.IsSolid text) ∧ Text.lineBreak returnsSource = .crlf ∧
      (returnsSpan.insertion returnsSource twoMembers).start = 25 ∧
      returnsSpan.readMembers .crlf (returnsSpan.insertion returnsSource twoMembers).replacement = some twoMembers := by
  have hspan : returnsSpan.IsIndented := ⟨List.all_eq_true.mp (by decide), List.all_eq_true.mp (by decide)⟩
  have hsolid : ∀ text ∈ twoMembers, Code.IsSolid text := by decide
  have hmark : Text.lineBreak returnsSource = .crlf := by decide
  obtain ⟨-, -, -, hread⟩ := inserted_members_read_back returnsSource hspan (by decide) hsolid
  exact ⟨hspan, hsolid, hmark, by decide, hmark ▸ hread⟩

end Recordsmith
