import Mathlib.Data.List.Forall2
import Recordsmith.Proofs.Expansion.Insertion
import Recordsmith.Proofs.Expansion.Failure
import Recordsmith.Proofs.Record.Consistency
import Recordsmith.Registry

/-!
The books of an expansion. Every marked declaration is entered once, in the order of the declarations: a record among
the expanded ones, with a constructor and a wither for each of its visible fields, and any other aggregate among the
skipped ones. A source changes only if something is entered.
-/

namespace Recordsmith

open Text.Utf8 (encode)
open Recordsmith.Tree (Node Dialect SourceTree)

/-! ### Interleaved lists -/

/-- The third list is made of the first two, each of them in its own order. -/
inductive Interleaves {α : Type} : List α → List α → List α → Prop
  | nil : Interleaves [] [] []
  | left {x : α} {xs ys zs : List α} (h : Interleaves xs ys zs) : Interleaves (x :: xs) ys (x :: zs)
  | right {y : α} {xs ys zs : List α} (h : Interleaves xs ys zs) : Interleaves xs (y :: ys) (y :: zs)

namespace Interleaves
variable {α β : Type} {xs ys zs : List α}

theorem map (h : Interleaves xs ys zs) (f : α → β) : Interleaves (xs.map f) (ys.map f) (zs.map f) := by
  induction h with
  | nil => exact .nil
  | left _ ih => exact .left ih
  | right _ ih => exact .right ih

theorem filter (p : α → Bool) (zs : List α) : Interleaves (zs.filter p) (zs.filter (!p ·)) zs := by
  induction zs with
  | nil => exact .nil
  | cons z rest ih =>
    cases hz : p z with
    | true =>
      rw [List.filter_cons_of_pos hz, List.filter_cons_of_neg (by simp [hz])]
      exact .left ih
    | false =>
      rw [List.filter_cons_of_neg (by simp [hz]), List.filter_cons_of_pos (by simp [hz])]
      exact .right ih

end Interleaves

/-! ### Entries -/

namespace Declaration
variable {d : Declaration} {options : Synthesis} {members : List GeneratedMember}

theorem isRecord_eq (d : Declaration) : d.isRecord = decide (d.kind ≠ .other) := by
  cases h : d.kind <;> simp [isRecord, h]

/-- How many members a record gets: a constructor and a wither for each visible field. -/
def generatedCount (d : Declaration) : Nat := 1 + (d.fieldMembers.filter (·.IsVisible)).length

theorem length_of_assemble (h : d.assemble options = .ok members) :
    members.length = if d.isRecord then d.generatedCount else 0 := by
  by_cases hr : d.isRecord = true
  · obtain ⟨-, rfl⟩ := assemble_eq_ok hr h
    have hwithers := congrArg List.length (d.withers_names d.accessModifier options.parameterName)
    simp only [List.length_map] at hwithers
    rw [if_pos hr, List.length_cons, List.length_map, hwithers, generatedCount, Nat.add_comm]
  · rw [assemble, if_neg hr] at h
    obtain rfl := Except.ok.inj h
    rw [if_neg hr]
    rfl

end Declaration

/-- The treatment of a declaration as it is entered: under its name, with all the members it gets. -/
structure Treatment.Enters (t : Treatment) (d : Declaration) : Prop where
  name : t.name = d.name
  memberCount : t.memberCount = if d.isRecord then d.generatedCount else 0

namespace Treatment.Enters
variable {t : Treatment} {d : Declaration}

-- A constructor is never missing, so a record cannot be taken for something else.
theorem isSkipped_eq (h : t.Enters d) : t.isSkipped = !d.isRecord := by
  rw [isSkipped, h.memberCount]
  cases d.isRecord with
  | true => simp [Declaration.generatedCount]
  | false => rfl

end Treatment.Enters

namespace Expansion
variable {renderer : Code.Renderer} {source : List Char} {config : Config} {declarations marked : List Declaration}
  {ts : List Treatment}

theorem enters_of_treat {d : Declaration} {span : Span} {markerStart : Int} {t : Treatment}
    (h : treat renderer source config d span markerStart = .ok t) : t.Enters d := by
  unfold treat at h
  obtain ⟨members, hmembers, h⟩ := bind_eq_ok h
  have hlength := Declaration.length_of_assemble hmembers
  split at h
  · rename_i hempty
    obtain rfl := Except.ok.inj h
    rw [List.isEmpty_iff.mp hempty] at hlength
    exact ⟨rfl, hlength⟩
  · obtain rfl := Except.ok.inj h
    exact ⟨rfl, hlength⟩

/-- Every marked declaration is entered, and no other one. -/
theorem enters_of_treatments (h : treatments renderer source config declarations = .ok ts) :
    List.Forall₂ (fun d t => Treatment.Enters t d) (declarations.filter (·.isMarked)) ts := by
  induction declarations generalizing ts with
  | nil =>
    obtain rfl := Except.ok.inj h
    exact .nil
  | cons d rest ih =>
    cases hmarked : d.isMarked with
    | false =>
      rw [treatments_cons_of_not_marked hmarked] at h
      rw [List.filter_cons_of_neg (by simp [hmarked])]
      exact ih h
    | true =>
      obtain ⟨markerStart, hmarker⟩ := Option.isSome_iff_exists.mp hmarked
      obtain ⟨span, hspan, hmark⟩ := Option.bind_eq_some_iff.mp hmarker
      rw [treatments] at h
      simp only [hspan, hmark] at h
      obtain ⟨first, hfirst, h⟩ := bind_eq_ok h
      obtain ⟨more, hmore, h⟩ := bind_eq_ok h
      obtain rfl := Except.ok.inj h
      rw [List.filter_cons_of_pos hmarked]
      exact .cons (enters_of_treat hfirst) (ih hmore)

/-- What an expansion lists and counts, given the marked declarations. -/
structure Books (e : Expansion) (marked : List Declaration) : Prop where
  expanded : e.expanded = (marked.filter (·.isRecord)).map (·.name)
  skipped : e.skipped = (marked.filter (!·.isRecord)).map (·.name)
  memberCount : e.memberCount = total ((marked.filter (·.isRecord)).map (·.generatedCount))

theorem books_of_enters (source : List Char) (h : List.Forall₂ (fun d t => Treatment.Enters t d) marked ts) :
    (ofTreatments source ts).Books marked := by
  induction h with
  | nil => exact ⟨rfl, rfl, rfl⟩
  | @cons d t marked ts ht _ ih =>
    obtain ⟨hexpanded, hskipped, hcount⟩ := ih
    simp only [ofTreatments] at hexpanded hskipped hcount
    cases hr : d.isRecord with
    | true =>
      have hs : t.isSkipped = false := by rw [ht.isSkipped_eq, hr]; rfl
      constructor <;> simp [ofTreatments, hs, hr, ht.name, ht.memberCount, hexpanded, hskipped, hcount]
    | false =>
      have hs : t.isSkipped = true := by rw [ht.isSkipped_eq, hr]; rfl
      constructor <;> simp [ofTreatments, hs, hr, ht.name, ht.memberCount, hexpanded, hskipped, hcount]

namespace Books
variable {e : Expansion}

theorem interleaves (h : e.Books marked) : Interleaves e.expanded e.skipped (marked.map (·.name)) := by
  rw [h.expanded, h.skipped]
  exact (Interleaves.filter _ marked).map _

theorem changed_eq_false_iff (h : e.Books marked) : e.changed = false ↔ marked = [] := by
  rw [changed, h.expanded, h.skipped]
  constructor
  · intro hnone
    simp only [Bool.or_eq_false_iff, Bool.not_eq_false', List.isEmpty_iff, List.map_eq_nil_iff, List.filter_eq_nil_iff,
      Bool.not_eq_true'] at hnone
    obtain ⟨hrecords, hothers⟩ := hnone
    refine List.eq_nil_iff_forall_not_mem.mpr fun d hd => ?_
    exact hothers d hd (Bool.not_eq_true _ ▸ hrecords d hd)
  · rintro rfl
    rfl

end Books

end Expansion

/-! ### Markers -/

/-- An empty marker marks nothing. -/
theorem Tree.Dialect.not_isMarked_of_empty {d : Dialect} {source : List Char} {tree : SourceTree}
    {declarations : List Declaration} (h : d.extract source tree "" = .ok declarations) {r : Declaration}
    (hr : r ∈ declarations) : r.isMarked = false := by
  obtain ⟨n, -, hread⟩ := (mem_extract h).mp hr
  obtain ⟨body, mark, -, -, hmark, -, -, -, hspan⟩ := declaration?_eq_some hread
  obtain rfl : none = mark := Except.ok.inj hmark
  simp [Declaration.isMarked, hspan, spanOf]

/-- A successful expansion enters each marked declaration once and in order: records under `expanded`, each of them with
    a constructor and a wither for every visible field, and all others under `skipped`. It changes nothing exactly when
    no declaration is marked, and an empty marker marks none. -/
theorem expansion_accounts_for_marked {k : LanguageKit} {source : List Char} {tree : SourceTree} {config : Config}
    {e : Expansion} (h : k.expandTree source tree config = .ok e) :
    ∃ declarations marked, k.dialect.extract source tree config.synthesis.marker = .ok declarations ∧
      marked = declarations.filter (·.isMarked) ∧
      Interleaves e.expanded e.skipped (marked.map (·.name)) ∧
      e.expanded = (marked.filter (·.kind ≠ .other)).map (·.name) ∧
      e.skipped = (marked.filter (·.kind = .other)).map (·.name) ∧
      e.memberCount = total ((marked.filter (·.kind ≠ .other)).map fun r =>
        1 + (r.fieldMembers.filter (·.IsVisible)).length) ∧
      (e.changed = false ↔ ∀ r ∈ declarations, r.isMarked = false) ∧
      (config.synthesis.marker = "" → e.changed = false) ∧
      (e.changed = false → e.source = source) := by
  obtain ⟨declarations, pairs, hextract, htreatments, rfl, -⟩ := LanguageKit.expandTree_eq_ok h
  have henters := Expansion.enters_of_treatments htreatments
  have hbooks := Expansion.books_of_enters source henters
  have hunmarked : declarations.filter (·.isMarked) = [] ↔ ∀ r ∈ declarations, r.isMarked = false := by
    simp only [List.filter_eq_nil_iff, Bool.not_eq_true]
  have hothers : (declarations.filter (·.isMarked)).filter (!·.isRecord) =
      (declarations.filter (·.isMarked)).filter (·.kind = .other) :=
    List.filter_congr fun r _ => by simp [Declaration.isRecord_eq]
  have hrecords : (declarations.filter (·.isMarked)).filter (·.isRecord) =
      (declarations.filter (·.isMarked)).filter (·.kind ≠ .other) :=
    List.filter_congr fun r _ => r.isRecord_eq
  refine ⟨declarations, _, hextract, rfl, hbooks.interleaves, ?_, ?_, ?_, ?_, ?_, ?_⟩
  · rw [hbooks.expanded, hrecords]
  · rw [hbooks.skipped, hothers]
  · rw [hbooks.memberCount, hrecords]
    rfl
  · rw [hbooks.changed_eq_false_iff, hunmarked]
  · intro hempty
    rw [hbooks.changed_eq_false_iff, hunmarked]
    rw [hempty] at hextract
    exact fun r hr => Dialect.not_isMarked_of_empty hextract hr
  · intro hchanged
    rw [hbooks.changed_eq_false_iff.mp hchanged] at henters
    rw [List.forall₂_nil_left_iff.mp henters]
    simp [Expansion.ofTreatments, Edit.applyAll]

namespace Sample

/-- A marked enum inside a marked class with one field. -/
def booksSource : List Char := "@B class A \x7b int x; @B enum C \x7b\x7d \x7d".toList

def booksMark (start : Nat) : Node :=
  ⟨"modifiers", start, start + 2, true, none, [⟨"marker_annotation", start, start + 2, true, none, [
    ⟨"@", start, start + 1, false, none, []⟩, ⟨"identifier", start + 1, start + 2, true, some "name", []⟩]⟩]⟩

def booksTree : SourceTree where
  root := ⟨"program", 0, 34, true, none, [⟨"class_declaration", 0, 34, true, none, [
    booksMark 0, ⟨"class", 3, 8, false, none, []⟩, ⟨"identifier", 9, 10, true, some "name", []⟩,
    ⟨"class_body", 11, 34, true, some "body", [⟨"\x7b", 11, 12, false, none, []⟩,
      ⟨"field_declaration", 13, 19, true, none, [⟨"integral_type", 13, 16, true, some "type", []⟩,
        ⟨"variable_declarator", 17, 18, true, some "declarator", [⟨"identifier", 17, 18, true, some "name", []⟩]⟩,
        ⟨";", 18, 19, false, none, []⟩]⟩,
      ⟨"enum_declaration", 20, 32, true, none, [
        booksMark 20, ⟨"enum", 23, 27, false, none, []⟩, ⟨"identifier", 28, 29, true, some "name", []⟩,
        ⟨"enum_body", 30, 32, true, some "body", [
          ⟨"\x7b", 30, 31, false, none, []⟩, ⟨"\x7d", 31, 32, false, none, []⟩]⟩]⟩,
      ⟨"\x7d", 33, 34, false, none, []⟩]⟩]⟩]⟩
  faulty := false

def booksConfig : Config := { synthesis := { marker := "B" } }

end Sample

open Sample in
theorem expansion_accounts_for_marked_inner :
    ∃ e, LanguageKit.java.expandTree booksSource booksTree booksConfig = .ok e ∧
      e.expanded = ["A"] ∧ e.skipped = ["C"] ∧ e.memberCount = 2 ∧ Interleaves e.expanded e.skipped ["A", "C"] := by
  have hrun : (LanguageKit.java.expandTree booksSource booksTree booksConfig).toOption.any
      (fun e => e.expanded = ["A"] ∧ e.skipped = ["C"] ∧ e.memberCount = 2) = true := by decide +kernel
  have hnames : (LanguageKit.java.dialect.extract booksSource booksTree "B").toOption.map
      (fun declarations => (declarations.filter (·.isMarked)).map (·.name)) = some ["A", "C"] := by decide +kernel
  obtain ⟨e, he, hlists⟩ := (Option.any_eq_true _ _).mp hrun
  obtain ⟨hexpanded, hskipped, hcount⟩ := of_decide_eq_true hlists
  have hok := Tree.eq_ok_of_toOption he
  obtain ⟨declarations, marked, hextract, rfl, hinterleaves, -⟩ := expansion_accounts_for_marked hok
  have hmarker : LanguageKit.java.dialect.extract booksSource booksTree "B" = .ok declarations := hextract
  rw [hmarker] at hnames
  have hmarked : (declarations.filter (·.isMarked)).map (·.name) = ["A", "C"] := Option.some.inj hnames
  rw [hmarked] at hinterleaves
  exact ⟨e, hok, hexpanded, hskipped, hcount, hinterleaves⟩

end Recordsmith
