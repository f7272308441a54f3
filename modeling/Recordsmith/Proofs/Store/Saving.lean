import Recordsmith.Proofs.Expansion.Failure
import Recordsmith.Store

/-!
What saving a file changes in a store. It adds directories, and if it succeeds it writes the bytes at the place that the
path leads to; every other file stays as it was. If it fails, every file does.
-/

namespace Recordsmith.Store

variable {s t : Store} {path : Path} {place other : Place} {bytes : List UInt8}

/-! ### Files -/

theorem find?_put (place : Place) (bytes : List UInt8) (files : List (Place × List UInt8)) (other : Place) :
    ((put place bytes files).find? (·.1 == other)).map (·.2) =
      if place = other then some bytes else (files.find? (·.1 == other)).map (·.2) := by
  induction files with
  | nil => by_cases h : place = other <;> simp [put, h]
  | cons entry rest ih =>
    by_cases hplace : entry.1 = place
    · subst hplace
      by_cases h : entry.1 = other <;> simp [put, h]
    · by_cases h : entry.1 = other
      · have hne : place ≠ other := fun heq => hplace (h.trans heq.symm)
        rw [put, if_neg hplace, if_neg hne]
        simp [h]
      · rw [put, if_neg hplace]
        simpa [h] using ih

/-! ### Directories -/

theorem addDirectory_files (s : Store) (place : Place) : (s.addDirectory place).files = s.files := by
  unfold addDirectory
  split <;> rfl

/-- Making directories keeps all files, also where it fails. -/
theorem files_makeDirectories (s : Store) (place : Place) (made : Bool) (steps : List String) :
    (∀ {t}, s.makeDirectories place made steps = .ok t → t.files = s.files) ∧
      ∀ {e}, s.makeDirectories place made steps = .error e → e.store.files = s.files := by
  induction steps generalizing s place made with
  | nil =>
    refine ⟨fun h => ?_, fun h => ?_⟩
    · obtain rfl := Except.ok.inj h
      rfl
    · cases h
  | cons step rest ih =>
    simp only [makeDirectories]
    generalize (if step = ".." then place.dropLast else place ++ [step]) = next
    split
    · refine ⟨fun h => ?_, fun h => ?_⟩
      · cases h
      · obtain rfl := Except.error.inj h
        rfl
    · obtain ⟨hok, herror⟩ := ih (s.addDirectory next) next (made || !s.isDirectory next)
      rw [addDirectory_files] at hok herror
      exact ⟨hok, herror⟩

theorem files_ensureDirectory_of_ok (h : s.ensureDirectory path = .ok t) : t.files = s.files :=
  (files_makeDirectories s _ _ _).1 h

theorem files_ensureDirectory_of_error {e : SaveError} (h : s.ensureDirectory path = .error e) :
    e.store.files = s.files :=
  (files_makeDirectories s _ _ _).2 h

/-! ### Writing -/

theorem isDirectory_mono (h : s.directories ⊆ t.directories) (hplace : s.isDirectory place = true) :
    t.isDirectory place = true := by
  simp only [isDirectory, Bool.or_eq_true, List.contains_iff_mem] at hplace ⊢
  exact hplace.imp_right fun hmem => h hmem

/-- A walk leads to the same place where there are more directories. -/
theorem walk_mono (hdirectories : s.directories ⊆ t.directories) {start : Place} {steps : List String}
    (h : s.walk start steps = .ok place) : t.walk start steps = .ok place := by
  induction steps generalizing start with
  | nil => exact h
  | cons step rest ih =>
    rw [walk] at h ⊢
    split at h
    · rename_i hthere
      rw [if_pos (isDirectory_mono hdirectories hthere)]
      split at h
      · rename_i hup
        rw [if_pos hup]
        exact ih h
      · rename_i hup
        rw [if_neg hup]
        exact ih h
    · cases h

theorem walk_of_files (files : List (Place × List UInt8)) {start : Place} {steps : List String}
    (h : s.walk start steps = .ok place) : Store.walk { s with files := files } start steps = .ok place := by
  have hsame : s.directories ⊆ Store.directories { s with files := files } := List.Subset.refl _
  exact walk_mono hsame h

/-- Where a path leads to does not depend on files, as long as it leads anywhere. -/
theorem resolve_of_files (files : List (Place × List UInt8)) (h : s.resolve path = .ok place) :
    Store.resolve { s with files := files } path = .ok place :=
  walk_of_files files h

/-- A written file is at the place that its path leads to. -/
theorem write_eq_ok (h : s.write path bytes = .ok t) :
    ∃ place, s.resolve path = .ok place ∧ t = { s with files := put place bytes s.files } := by
  obtain ⟨place, hplace, hwrite⟩ := bind_eq_ok h
  refine ⟨place, hplace, ?_⟩
  split at hwrite
  · cases hwrite
  · split at hwrite
    · exact (Except.ok.inj hwrite).symm
    · cases hwrite

/-- A store that has been left by saving a file in another one: the file holds the bytes, and no other file differs. -/
structure HasSaved (s : Store) (path : Path) (bytes : List UInt8) (t : Store) : Prop where
  read : t.read path = .ok bytes
  others : ∀ {place}, t.resolve path ≠ .ok place → t.file? place = s.file? place

theorem read_of_file? (hplace : s.resolve path = .ok place) (hfile : s.file? place = some bytes) :
    s.read path = .ok bytes := by
  rw [read, hplace]
  simp [bind, Except.bind, hfile]

theorem read_eq_ok (h : s.read path = .ok bytes) : ∃ place, s.resolve path = .ok place ∧ s.file? place = some bytes := by
  obtain ⟨place, hplace, h⟩ := bind_eq_ok h
  refine ⟨place, hplace, ?_⟩
  cases hfile : s.file? place with
  | none => simp [hfile] at h
  | some found =>
    rw [hfile] at h
    rw [Except.ok.inj h]

theorem exists?_of_read (h : s.read path = .ok bytes) : s.exists? path = true := by
  obtain ⟨place, hplace, hfile⟩ := read_eq_ok h
  obtain ⟨entry, hentry, -⟩ := Option.map_eq_some_iff.mp hfile
  have hat := List.find?_some hentry
  have hthere : s.isFile place = true := List.any_eq_true.mpr ⟨entry, List.mem_of_find?_eq_some hentry, hat⟩
  simp [exists?, hplace, isThere, hthere]

theorem hasSaved_write (h : s.write path bytes = .ok t) : s.HasSaved path bytes t := by
  obtain ⟨place, hplace, rfl⟩ := write_eq_ok h
  have hresolve : Store.resolve { s with files := put place bytes s.files } path = .ok place :=
    resolve_of_files _ hplace
  refine ⟨read_of_file? hresolve ?_, fun {other} hother => ?_⟩
  · rw [file?, find?_put, if_pos rfl]
  · have hne : place ≠ other := fun heq => hother (heq ▸ hresolve)
    rw [file?, find?_put, if_neg hne, file?]

theorem hasSaved_save (h : s.save path bytes = .ok t) : s.HasSaved path bytes t := by
  obtain ⟨grown, hgrown, hwrite⟩ := bind_eq_ok h
  obtain ⟨hread, hothers⟩ := hasSaved_write (mapError_eq_ok hwrite)
  refine ⟨hread, fun hother => ?_⟩
  rw [hothers hother, file?, file?, files_ensureDirectory_of_ok hgrown]

theorem files_of_save_eq_error {e : SaveError} (h : s.save path bytes = .error e) : e.store.files = s.files := by
  rcases bind_eq_error_iff.mp h with hensure | ⟨grown, hgrown, hwrite⟩
  · exact files_ensureDirectory_of_error hensure
  · obtain ⟨cause, -, rfl⟩ := mapError_eq_error_iff.mp hwrite
    exact files_ensureDirectory_of_ok hgrown

/-! ### Growing -/

/-- A store that is seen from the same directory and lacks no directory of another one. -/
structure Grows (s t : Store) : Prop where
  home : t.home = s.home
  directories : s.directories ⊆ t.directories

theorem Grows.refl (s : Store) : s.Grows s := ⟨rfl, List.Subset.refl _⟩

theorem Grows.trans {u : Store} (h : s.Grows t) (h' : t.Grows u) : s.Grows u :=
  ⟨h'.home.trans h.home, List.Subset.trans h.directories h'.directories⟩

theorem grows_addDirectory (s : Store) (place : Place) : s.Grows (s.addDirectory place) := by
  unfold addDirectory
  split
  · exact .refl s
  · exact ⟨rfl, List.subset_append_left ..⟩

theorem grows_makeDirectories {made : Bool} {steps : List String} (h : s.makeDirectories place made steps = .ok t) :
    s.Grows t := by
  induction steps generalizing s place made with
  | nil =>
    obtain rfl := Except.ok.inj h
    exact .refl s
  | cons step rest ih =>
    simp only [makeDirectories] at h
    generalize (if step = ".." then place.dropLast else place ++ [step]) = next at h
    split at h
    · cases h
    · exact (grows_addDirectory s next).trans (ih h)

theorem grows_save (h : s.save path bytes = .ok t) : s.Grows t := by
  obtain ⟨grown, hgrown, hwrite⟩ := bind_eq_ok h
  obtain ⟨place, -, rfl⟩ := write_eq_ok (mapError_eq_ok hwrite)
  obtain ⟨hhome, hdirectories⟩ := grows_makeDirectories hgrown
  exact ⟨hhome, hdirectories⟩

theorem Grows.resolve (h : s.Grows t) (hplace : s.resolve path = .ok place) : t.resolve path = .ok place := by
  rw [Store.resolve, h.home]
  exact walk_mono h.directories hplace

/-- A file that can be read is read the same way after another one has been saved. -/
theorem read_of_save {other : Path} {data : List UInt8} (h : s.save path bytes = .ok t)
    (hread : s.read other = .ok data) (hother : t.resolve path ≠ t.resolve other) : t.read other = .ok data := by
  obtain ⟨place, hplace, hfile⟩ := read_eq_ok hread
  have hplace' : t.resolve other = .ok place := (grows_save h).resolve hplace
  have hkept : t.file? place = s.file? place := (hasSaved_save h).others (hplace' ▸ hother)
  exact read_of_file? hplace' (hkept.trans hfile)

/-! ### Paths that can be written -/

/-- A path at which some file can be saved. -/
def IsWritable (s : Store) (path : Path) : Prop := ∃ bytes, (s.save path bytes).isOk = true

/-- What is to be written does not decide whether it can be. -/
theorem IsWritable.exists_save (h : s.IsWritable path) (bytes : List UInt8) : ∃ t, s.save path bytes = .ok t := by
  obtain ⟨other, hother⟩ := h
  obtain ⟨t, ht⟩ := exists_eq_ok hother
  obtain ⟨grown, hgrown, hwrite⟩ := bind_eq_ok ht
  obtain ⟨place, hplace, hwrite⟩ := bind_eq_ok (mapError_eq_ok hwrite)
  -- Both conditions of writing are about directories, which the bytes do not touch.
  have hdirectory : ¬grown.isDirectory place = true := fun hd => by simp [hd] at hwrite
  have hparent : grown.isDirectory place.dropLast = true := by
    by_contra hp
    simp [hdirectory, hp] at hwrite
  refine ⟨{ grown with files := put place bytes grown.files }, ?_⟩
  rw [save, hgrown]
  show (grown.write path bytes).mapError _ = _
  rw [write, hplace]
  simp [bind, Except.bind, hdirectory, hparent, Except.mapError]

end Recordsmith.Store
