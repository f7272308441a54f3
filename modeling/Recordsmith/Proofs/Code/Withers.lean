import Mathlib.Data.List.Basic
import Recordsmith.Proofs.Record.Consistency
import Recordsmith.Proofs.Text.Lines
import Recordsmith.Registry

/-!
A rendered wither shows the whole wither. Names are words and end at the first mark after them. A type may hold anything,
so what follows it is found from the end of the text, where the last opening bracket starts the arguments. Labels and
flags that are not written follow from the written names, because an argument that reads the parameter's name without the
receiver can only be the one of the target.
-/

namespace Recordsmith

/-! ### Cutting a text at a mark -/

namespace Text
variable {mark : Char} {a b after after' : List Char}

/-- Two texts that each end at a mark the other does not hold. -/
theorem append_marks_inj {mark' : Char} (ha : mark' ∉ a) (hb : mark ∉ b) (h : a ++ mark :: after = b ++ mark' :: after') :
    a = b ∧ mark = mark' ∧ after = after' := by
  induction a generalizing b with
  | nil =>
    cases b with
    | nil => exact ⟨rfl, List.cons.inj h⟩
    | cons y b => exact absurd (List.mem_cons.mpr (Or.inl (List.cons.inj h).1)) hb
  | cons x a ih =>
    cases b with
    | nil => exact absurd (List.mem_cons.mpr (Or.inl (List.cons.inj h).1.symm)) ha
    | cons y b =>
      obtain ⟨rfl, hrest⟩ := List.cons.inj h
      obtain ⟨rfl, hafter⟩ := ih (List.not_mem_of_not_mem_cons ha) (List.not_mem_of_not_mem_cons hb) hrest
      exact ⟨rfl, hafter⟩

/-- What stands before and after the first mark. -/
theorem append_mark_inj (ha : mark ∉ a) (hb : mark ∉ b) (h : a ++ mark :: after = b ++ mark :: after') :
    a = b ∧ after = after' := by
  obtain ⟨hbefore, -, hafter⟩ := append_marks_inj ha hb h
  exact ⟨hbefore, hafter⟩

/-- What stands before and after the last mark. -/
theorem append_last_mark_inj (hafter : mark ∉ after) (hafter' : mark ∉ after')
    (h : a ++ mark :: after = b ++ mark :: after') : a = b ∧ after = after' := by
  have hreverse := congrArg List.reverse h
  simp only [List.reverse_append, List.reverse_cons, List.append_assoc, List.singleton_append] at hreverse
  obtain ⟨h1, h2⟩ := append_mark_inj (mt List.mem_reverse.mp hafter) (mt List.mem_reverse.mp hafter') hreverse
  exact ⟨List.reverse_injective h2, List.reverse_injective h1⟩

/-- Where a text comes again one word later, it is made of that word, and so is what follows it. -/
theorem eq_of_shifted {word : List Char} (hword : mark ∉ word) {text : List Char}
    (h : word ++ mark :: (text ++ mark :: after) = text ++ mark :: after') : after' = word ++ mark :: after := by
  induction hn : text.length using Nat.strongRecOn generalizing text with
  | ind n ih =>
  by_cases hmark : mark ∈ text
  · obtain ⟨first, rest, rfl, hfirst⟩ := List.eq_append_cons_of_mem hmark
    rw [List.append_assoc, List.cons_append, List.append_assoc, List.cons_append] at h
    obtain ⟨rfl, hrest⟩ := append_mark_inj hword hfirst h
    refine ih rest.length ?_ hrest rfl
    rw [← hn, List.length_append, List.length_cons]
    omega
  · obtain ⟨rfl, hafter⟩ := append_mark_inj hword hmark h
    exact hafter.symm

theorem splitOn_joinWith_comma {pieces : List (List Char)} (hne : pieces ≠ []) (h : ∀ piece ∈ pieces, ',' ∉ piece) :
    (' ' :: joinWith [',', ' '] pieces).splitOn ',' = pieces.map (' ' :: ·) := by
  have hjoin : ' ' :: joinWith [',', ' '] pieces = [','].intercalate (pieces.map (' ' :: ·)) := by
    clear h
    induction pieces with
    | nil => exact absurd rfl hne
    | cons piece more ih =>
      cases more with
      | nil => rw [List.map_singleton, List.intercalate_singleton]; rfl
      | cons next rest =>
        rw [joinWith_cons_of_ne_nil (by simp), List.map_cons, List.map_cons, List.intercalate_cons_cons, ← List.map_cons,
          ← ih (by simp)]
        simp
  rw [hjoin]
  refine List.splitOn_intercalate ',' (fun line hline => ?_) (mt List.map_eq_nil_iff.mp hne)
  obtain ⟨piece, hpiece, rfl⟩ := List.mem_map.mp hline
  exact fun hmem => h piece hpiece ((List.mem_cons.mp hmem).resolve_left (by decide))

/-- Pieces without commas are found again in the text that joins them with commas and spaces. -/
theorem joinWith_comma_inj {pieces pieces' : List (List Char)} (hne : pieces ≠ []) (hne' : pieces' ≠ [])
    (hp : ∀ piece ∈ pieces, ',' ∉ piece) (hp' : ∀ piece ∈ pieces', ',' ∉ piece)
    (h : joinWith [',', ' '] pieces = joinWith [',', ' '] pieces') : pieces = pieces' := by
  have hmap : pieces.map (' ' :: ·) = pieces'.map (' ' :: ·) := by
    rw [← splitOn_joinWith_comma hne hp, h, splitOn_joinWith_comma hne' hp']
  exact List.map_injective_iff.mpr List.cons_injective hmap

end Text

namespace Code

/-! ### Words -/

/-- Letters, digits, `_` and `$`. Outside of ASCII every character counts as a letter. -/
def isWordChar (c : Char) : Bool := c.isAlphanum || c == '_' || c == '$' || 128 ≤ c.toNat

/-- A name that is not empty and made of letters, digits, `_` and `$`. -/
def IsWord (s : String) : Prop := s.toList ≠ [] ∧ s.toList.all isWordChar = true

instance : DecidablePred IsWord := fun _ => inferInstanceAs (Decidable (_ ∧ _))

theorem IsWord.isWordChar {s : String} (h : IsWord s) : ∀ c ∈ s.toList, isWordChar c = true := List.all_eq_true.mp h.2

theorem IsWord.not_mem {s : String} (h : IsWord s) {c : Char} (hc : Code.isWordChar c = false) : c ∉ s.toList := by
  intro hmem
  rw [h.isWordChar c hmem] at hc
  cases hc

/-! ### Arguments -/

theorem eq_of_map_eq {α β : Type} {f : α → β} {P : α → Prop} (hf : ∀ {x y}, P x → P y → f x = f y → x = y)
    {l l' : List α} (hl : ∀ x ∈ l, P x) (hl' : ∀ x ∈ l', P x) (h : l.map f = l'.map f) : l = l' := by
  induction l generalizing l' with
  | nil => exact (List.map_eq_nil_iff.mp h.symm).symm
  | cons x rest ih =>
    cases l' with
    | nil => cases h
    | cons x' rest' =>
      obtain ⟨hfirst, hrest⟩ := List.cons.inj h
      rw [hf (hl x (List.mem_cons_self ..)) (hl' x' (List.mem_cons_self ..)) hfirst,
        ih (fun y hy => hl y (List.mem_cons_of_mem _ hy)) (fun y hy => hl' y (List.mem_cons_of_mem _ hy)) hrest]

/-- A way to write the argument for a field that tells fields apart and needs neither brackets nor commas for it. -/
structure TellsFields (write : String → String) : Prop where
  bracket : ∀ {n}, IsWord n → '(' ∉ (write n).toList
  comma : ∀ {n}, IsWord n → ',' ∉ (write n).toList
  injective : ∀ {m n}, IsWord m → IsWord n → write m = write n → m = n

namespace TellsFields
variable {write : String → String} {names names' : List String}

theorem not_mem_join (h : TellsFields write) (hnames : ∀ n ∈ names, IsWord n) :
    '(' ∉ (Text.join ", " (names.map write)).toList := by
  intro hmem
  rw [Text.toList_join, List.map_map] at hmem
  rcases Text.mem_joinWith hmem with hcomma | ⟨piece, hpiece, hmem⟩
  · exact absurd hcomma (by decide)
  · obtain ⟨n, hn, rfl⟩ := List.mem_map.mp hpiece
    exact h.bracket (hnames n hn) hmem

theorem names_eq (h : TellsFields write) (hne : names ≠ []) (hne' : names' ≠ []) (hnames : ∀ n ∈ names, IsWord n)
    (hnames' : ∀ n ∈ names', IsWord n)
    (heq : (Text.join ", " (names.map write)).toList = (Text.join ", " (names'.map write)).toList) : names = names' := by
  have hcomma {names : List String} (hnames : ∀ n ∈ names, IsWord n) :
      ∀ piece ∈ names.map (String.toList ∘ write), ',' ∉ piece := by
    intro piece hpiece
    obtain ⟨n, hn, rfl⟩ := List.mem_map.mp hpiece
    exact h.comma (hnames n hn)
  rw [Text.toList_join, Text.toList_join, List.map_map, List.map_map] at heq
  have hmap := Text.joinWith_comma_inj (mt List.map_eq_nil_iff.mp hne) (mt List.map_eq_nil_iff.mp hne') (hcomma hnames)
    (hcomma hnames') heq
  exact eq_of_map_eq (fun hx hy hxy => h.injective hx hy (String.toList_injective hxy)) hnames hnames' hmap

end TellsFields

theorem isWord_expression {target parameterName n : String} (hparameter : IsWord parameterName) (hn : IsWord n) :
    IsWord (Argument.forField target parameterName n).expression := by
  unfold Argument.forField
  split
  · exact hparameter
  · exact hn

/-! ### Swift -/

namespace SwiftCode
theorem mem_argument {a : Argument} (hlabel : IsWord a.label) (hexpression : IsWord a.expression) {c : Char}
    (h : c ∈ (argument a).toList) : isWordChar c = true ∨ c ∈ ": self.".toList := by
  have hwritten : c ∈ a.label.toList ∨ c ∈ ": ".toList ∨ c ∈ "self.".toList ∨ c ∈ a.expression.toList := by
    unfold argument at h
    split at h <;> simp only [String.toList_append, List.mem_append] at h <;> tauto
  rcases hwritten with h | h | h | h
  · exact Or.inl (hlabel.isWordChar c h)
  · exact Or.inr (List.mem_append_left "self.".toList h)
  · exact Or.inr (List.mem_append_right ": ".toList h)
  · exact Or.inl (hexpression.isWordChar c h)

/-- The label tells which field an argument is for. -/
theorem tellsFields {target parameterName : String} (hparameter : IsWord parameterName) :
    TellsFields fun n => argument (Argument.forField target parameterName n) := by
  have hmem {n : String} (hn : IsWord n) {c : Char} (h : c ∈ (argument (Argument.forField target parameterName n)).toList) :
      isWordChar c = true ∨ c ∈ ": self.".toList :=
    mem_argument (Argument.forField_label.symm ▸ hn) (isWord_expression hparameter hn) h
  refine ⟨fun hn h => absurd (hmem hn h) (by decide), fun hn h => absurd (hmem hn h) (by decide), fun hm hn h => ?_⟩
  have hlabel (a : Argument) : ∃ rest, (argument a).toList = a.label.toList ++ ':' :: rest :=
    ⟨' ' :: (if a.viaReceiver then "self." ++ a.expression else a.expression).toList, by simp [argument, String.toList_append]⟩
  obtain ⟨rest, heq⟩ := hlabel (Argument.forField target parameterName _)
  obtain ⟨rest', heq'⟩ := hlabel (Argument.forField target parameterName _)
  rw [h, heq', Argument.forField_label, Argument.forField_label] at heq
  exact String.toList_injective (Text.append_mark_inj (hn.not_mem (by decide)) (hm.not_mem (by decide)) heq).1.symm

/-- What stands between the type of a wither's parameter and the arguments of its call. -/
def opening (indent : String) : String := ") -> Self \x7b\n" ++ indent ++ "Self.init"

theorem toList_wither (w : Wither) (d : Declaration) (indent : String) : (wither w d indent).toList =
    (keyword w.accessModifier ++ "func ").toList ++ (w.name.toList ++ '(' :: ("_ ".toList ++
      (w.parameter.name.toList ++ ':' :: (' ' :: w.parameter.type.toList ++ (opening indent).toList ++
        '(' :: ((Text.join ", " (w.arguments.map argument)).toList ++ ")\n\x7d".toList))))) := by
  simp [wither, opening, Text.join, String.toList_append]

end SwiftCode

/-! ### Java -/

namespace JavaCode
/-- What stands between the parameter of a wither and the arguments of its call. -/
def opening (d : Declaration) (indent : String) : String :=
  ") \x7b\n" ++ indent ++ "return new " ++ d.name ++ if d.typeParameters.isEmpty then "" else "<>"

theorem mem_argument {a : Argument} (hexpression : IsWord a.expression) {c : Char} (h : c ∈ (argument a).toList) :
    isWordChar c = true ∨ c ∈ "this.".toList := by
  unfold argument at h
  split at h
  · rcases List.mem_append.mp (String.toList_append ▸ h) with h | h
    · exact Or.inr h
    · exact Or.inl (hexpression.isWordChar c h)
  · exact Or.inl (hexpression.isWordChar c h)

/-- The field that a written argument is for: the parameter's name alone stands for the target, and behind the receiver
    for the field of that name. -/
def fieldOf (target parameterName written : String) : String :=
  if written = parameterName then target else if written = "this." ++ parameterName then parameterName else written

theorem fieldOf_argument {target parameterName n : String} (hparameter : IsWord parameterName) (hn : IsWord n) :
    fieldOf target parameterName (argument (Argument.forField target parameterName n)) = n := by
  have hreceiver {word name : String} (hword : IsWord word) : word ≠ "this." ++ name := by
    rintro rfl
    exact hword.not_mem (c := '.') (by decide) (by simp [String.toList_append])
  unfold fieldOf argument Argument.forField
  by_cases htarget : n = target
  · simp [htarget]
  · by_cases hhidden : n = parameterName
    · subst hhidden
      simp [htarget, (hreceiver hn).symm]
    · simp [htarget, hhidden, hreceiver hn]

theorem tellsFields {target parameterName : String} (hparameter : IsWord parameterName) :
    TellsFields fun n => argument (Argument.forField target parameterName n) := by
  have hmem {n : String} (hn : IsWord n) {c : Char} (h : c ∈ (argument (Argument.forField target parameterName n)).toList) :
      isWordChar c = true ∨ c ∈ "this.".toList :=
    mem_argument (isWord_expression hparameter hn) h
  refine ⟨fun hn h => absurd (hmem hn h) (by decide), fun hn h => absurd (hmem hn h) (by decide), fun hm hn h => ?_⟩
  rw [← fieldOf_argument hparameter hm, h, fieldOf_argument hparameter hn]

theorem toList_wither (w : Wither) (d : Declaration) (indent : String) : (wither w d indent).toList =
    (keyword w.accessModifier).toList ++ ((selfType d).toList ++ ' ' :: (w.name.toList ++ '(' ::
      (w.parameter.type.toList ++ ' ' :: (w.parameter.name.toList ++ (opening d indent).toList) ++
        '(' :: ((Text.join ", " (w.arguments.map argument)).toList ++ ");\n\x7d".toList)))) := by
  simp [wither, opening, Text.join, String.toList_append]

end JavaCode

end Code

/-! ### Withers -/

attribute [ext] Parameter Wither

namespace Wither
open Code
variable {w w' : Wither} {names names' : List String}

/-- A wither generated for the field at an index, where all names are words and the access modifier is one of those that
    are copied from a declaration. -/
def IsOfWords (w : Wither) : Prop :=
  ∃ (fields : List Field) (index : Int) (access : Option String) (parameterName : String),
    atIndex? fields index access parameterName = some (some w) ∧ (∀ f ∈ fields, ∀ name ∈ f.name, IsWord name) ∧
      IsWord parameterName ∧ (access = none ∨ access = some "public" ∨ access = some "internal")

/-- What the fields of such a wither leave in it: the names that its call passes on. -/
structure Passes (w : Wither) (names : List String) : Prop where
  words : ∀ n ∈ names, IsWord n
  target : w.name ∈ names
  parameter : IsWord w.parameter.name
  arguments : w.arguments = names.map (Argument.forField w.name w.parameter.name)
  access : w.accessModifier = none ∨ w.accessModifier = some "public" ∨ w.accessModifier = some "internal"

theorem fieldAt?_mem {fields : List Field} {index : Int} {f : Field} (h : fieldAt? fields index = some f) :
    f ∈ fields := by
  unfold fieldAt? at h
  split at h
  · exact List.mem_of_getElem? h
  · split at h
    · exact List.mem_of_getElem? h
    · cases h

theorem IsOfWords.exists_passes (h : w.IsOfWords) : ∃ names, w.Passes names := by
  obtain ⟨fields, index, access, parameterName, hw, hwords, hparameter, haccess⟩ := h
  obtain ⟨f, hf, hw⟩ := Option.map_eq_some_iff.mp hw
  obtain ⟨p, hp, rfl⟩ := ofField?_eq_some hw
  refine ⟨Field.names fields, fun n hn => ?_, ?_, hparameter, callArguments_eq .., haccess⟩
  · obtain ⟨q, hq, rfl⟩ := List.mem_map.mp hn
    obtain ⟨g, hg, hq⟩ := List.mem_filterMap.mp hq
    exact hwords g hg q.name (Field.parameter?_eq_some_iff.mp hq).1
  · exact List.mem_map.mpr ⟨p, List.mem_filterMap.mpr ⟨f, fieldAt?_mem hf, hp⟩, rfl⟩

namespace Passes

theorem isWord_name (h : w.Passes names) : IsWord w.name := h.words _ h.target

theorem names_ne_nil (h : w.Passes names) : names ≠ [] := List.ne_nil_of_mem h.target

/-- The names that withers of one name and one parameter's name pass on are read from their written arguments. -/
theorem arguments_eq (h : w.Passes names) (h' : w'.Passes names') (hname : w.name = w'.name)
    (hparameter : w.parameter.name = w'.parameter.name) {write : Argument → String}
    (hwrite : TellsFields fun n => write (Argument.forField w.name w.parameter.name n))
    (heq : (Text.join ", " (w.arguments.map write)).toList = (Text.join ", " (w'.arguments.map write)).toList) :
    w.arguments = w'.arguments := by
  rw [h.arguments, h'.arguments, ← hname, ← hparameter, List.map_map, List.map_map] at heq
  rw [h.arguments, h'.arguments, ← hname, ← hparameter,
    hwrite.names_eq h.names_ne_nil h'.names_ne_nil h.words h'.words heq]

theorem not_mem_arguments (h : w.Passes names) {write : Argument → String} {close : List Char} (hclose : '(' ∉ close)
    (hwrite : TellsFields fun n => write (Argument.forField w.name w.parameter.name n)) :
    '(' ∉ (Text.join ", " (w.arguments.map write)).toList ++ close := by
  rw [h.arguments, List.map_map, List.mem_append]
  exact not_or.mpr ⟨hwrite.not_mem_join h.words, hclose⟩

end Passes
end Wither

namespace Code
variable {w w' : Wither} {names names' : List String} {d : Declaration} {indent : String}

namespace SwiftCode

theorem head_inj {access access' : Option String} {a b : List Char}
    (haccess : access = none ∨ access = some "public" ∨ access = some "internal")
    (haccess' : access' = none ∨ access' = some "public" ∨ access' = some "internal")
    (h : (keyword access ++ "func ").toList ++ a = (keyword access' ++ "func ").toList ++ b) : access = access' ∧ a = b := by
  rcases haccess with rfl | rfl | rfl <;> rcases haccess' with rfl | rfl | rfl <;>
    simp only [keyword, String.toList_append] at h <;> simp_all

theorem wither_inj (h : w.Passes names) (h' : w'.Passes names') (heq : wither w d indent = wither w' d indent) : w = w' := by
  replace heq := congrArg String.toList heq
  rw [toList_wither, toList_wither] at heq
  obtain ⟨haccess, heq⟩ := head_inj h.access h'.access heq
  obtain ⟨hname, heq⟩ := Text.append_mark_inj (h.isWord_name.not_mem (by decide)) (h'.isWord_name.not_mem (by decide)) heq
  obtain ⟨hparameter, heq⟩ := Text.append_mark_inj (h.parameter.not_mem (by decide)) (h'.parameter.not_mem (by decide))
    (List.append_cancel_left heq)
  -- The type may hold brackets, so the arguments are found from the end.
  obtain ⟨htype, heq⟩ := Text.append_last_mark_inj (h.not_mem_arguments (by decide) (tellsFields h.parameter))
    (h'.not_mem_arguments (by decide) (tellsFields h'.parameter)) heq
  replace hname := String.toList_injective hname
  replace hparameter := String.toList_injective hparameter
  replace htype := String.toList_injective (List.cons.inj (List.append_cancel_right htype)).2
  have harguments := h.arguments_eq h' hname hparameter (tellsFields h.parameter) (List.append_cancel_right heq)
  exact Wither.ext hname (Parameter.ext hparameter htype) harguments haccess

end SwiftCode

namespace JavaCode

/-- What follows the type that a wither gives back. With `public` before one of two withers and not before the other the
    type would have to begin with that word again and again, up to the name. -/
theorem head_inj {access access' : Option String} {name name' a b : List Char} (hname : ' ' ∉ name) (hname' : ' ' ∉ name')
    (h : (keyword access).toList ++ ((selfType d).toList ++ ' ' :: (name ++ '(' :: a)) =
      (keyword access').toList ++ ((selfType d).toList ++ ' ' :: (name' ++ '(' :: b))) :
    (access = some "public" ↔ access' = some "public") ∧ name ++ '(' :: a = name' ++ '(' :: b := by
  have hmixed {name name' a b : List Char} (hname : ' ' ∉ name') :
      "public".toList ++ ' ' :: ((selfType d).toList ++ ' ' :: (name ++ '(' :: a)) ≠
        (selfType d).toList ++ ' ' :: (name' ++ '(' :: b) := by
    intro heq
    obtain ⟨-, hmark, -⟩ := Text.append_marks_inj hname (by decide) (Text.eq_of_shifted (by decide) heq)
    exact absurd hmark (by decide)
  have hpublic {rest : List Char} : "public ".toList ++ rest = "public".toList ++ ' ' :: rest := by simp
  unfold keyword at h
  split at h <;> split at h
  · exact ⟨by tauto, (List.cons.inj (List.append_cancel_left (List.append_cancel_left h))).2⟩
  · exact absurd (hpublic.symm.trans h) (hmixed hname')
  · exact absurd (hpublic.symm.trans h.symm) (hmixed hname)
  · exact ⟨by tauto, (List.cons.inj (List.append_cancel_left (List.append_cancel_left h))).2⟩

theorem wither_inj (h : w.Passes names) (h' : w'.Passes names') (heq : wither w d indent = wither w' d indent) :
    w.name = w'.name ∧ w.parameter = w'.parameter ∧ w.arguments = w'.arguments ∧
      (w.accessModifier = some "public" ↔ w'.accessModifier = some "public") := by
  replace heq := congrArg String.toList heq
  rw [toList_wither, toList_wither] at heq
  obtain ⟨haccess, heq⟩ := head_inj (h.isWord_name.not_mem (by decide)) (h'.isWord_name.not_mem (by decide)) heq
  obtain ⟨hname, heq⟩ := Text.append_mark_inj (h.isWord_name.not_mem (by decide)) (h'.isWord_name.not_mem (by decide)) heq
  obtain ⟨hbefore, heq⟩ := Text.append_last_mark_inj (h.not_mem_arguments (by decide) (tellsFields h.parameter))
    (h'.not_mem_arguments (by decide) (tellsFields h'.parameter)) heq
  -- The type may hold blanks, so the name of the parameter is found from the end.
  rw [← List.cons_append, ← List.append_assoc, ← List.cons_append, ← List.append_assoc] at hbefore
  obtain ⟨htype, hparameter⟩ := Text.append_last_mark_inj (h.parameter.not_mem (by decide)) (h'.parameter.not_mem (by decide))
    (List.append_cancel_right hbefore)
  replace hname := String.toList_injective hname
  replace hparameter := String.toList_injective hparameter
  exact ⟨hname, Parameter.ext hparameter (String.toList_injective htype),
    h.arguments_eq h' hname hparameter (tellsFields h.parameter) (List.append_cancel_right heq), haccess⟩

end JavaCode
end Code

/-- Two withers of words that are written the same are the same, with one difference: where only `public` is a word of the
    language, the other access modifiers are written like none. -/
theorem rendered_withers_show_all (d : Declaration) (indent : String) {w w' : Wither} (hw : w.IsOfWords)
    (hw' : w'.IsOfWords) :
    (LanguageKit.swift.renderer.wither w d indent = LanguageKit.swift.renderer.wither w' d indent ↔ w = w') ∧
    (LanguageKit.java.renderer.wither w d indent = LanguageKit.java.renderer.wither w' d indent ↔
      w.name = w'.name ∧ w.parameter = w'.parameter ∧ w.arguments = w'.arguments ∧
        (w.accessModifier = some "public" ↔ w'.accessModifier = some "public")) := by
  obtain ⟨names, h⟩ := hw.exists_passes
  obtain ⟨names', h'⟩ := hw'.exists_passes
  refine ⟨⟨fun heq => Code.SwiftCode.wither_inj (d := d) h h' heq, fun heq => heq ▸ rfl⟩,
    fun heq => Code.JavaCode.wither_inj h h' heq, ?_⟩
  rintro ⟨hname, hparameter, harguments, haccess⟩
  have hkeyword : Code.JavaCode.keyword w.accessModifier = Code.JavaCode.keyword w'.accessModifier := by
    simp only [Code.JavaCode.keyword, haccess]
  simp only [LanguageKit.java, Code.JavaCode.renderer, Code.JavaCode.wither, hname, hparameter, harguments, hkeyword]

/-- One field is hidden by the parameter of the other's wither, which has a type with brackets, a comma and a line break. -/
def Field.hidden : List Field :=
  [{ name := some "value", type := some "Int" }, { name := some "pair", type := some "(Int,\n  Int)" }]

/-- The withers of `pair` with `internal` and with no access modifier are told apart in one language only. -/
theorem rendered_withers_show_all_internal :
    ∃ w w' : Wither,
      Wither.atIndex? Field.hidden 1 (some "internal") "value" = some (some w) ∧
      Wither.atIndex? Field.hidden (-1) none "value" = some (some w') ∧
      LanguageKit.swift.renderer.wither w .mixed "  " ≠ LanguageKit.swift.renderer.wither w' .mixed "  " ∧
      LanguageKit.java.renderer.wither w .mixed "  " = LanguageKit.java.renderer.wither w' .mixed "  " := by
  have hwords : ∀ f ∈ Field.hidden, ∀ name ∈ f.name, Code.IsWord name := by decide
  have hparameter : Code.IsWord "value" := by decide
  have h := rendered_withers_show_all .mixed "  "
    ⟨Field.hidden, 1, some "internal", "value", rfl, hwords, hparameter, by decide⟩
    ⟨Field.hidden, -1, none, "value", rfl, hwords, hparameter, by decide⟩
  refine ⟨_, _, rfl, rfl, fun heq => absurd (h.1.mp heq) (by decide), h.2.mpr (by decide)⟩

end Recordsmith
