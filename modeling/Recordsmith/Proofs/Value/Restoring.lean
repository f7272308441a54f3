import Mathlib.Data.List.Basic
import Recordsmith.Record.Encoding

/-!
Readers that restore what has been written. Whatever else a reader accepts, the written form of a scalar is read as it is,
and an object whose parts are all restored is restored as a whole.
-/

namespace Recordsmith.Value
variable {α β : Type} {read : Value → Checked α} {write : α → Value}

/-- What a reader makes of any value is read again, the same, from its written form, and so is all that is in normal
    form. -/
structure Settles (IsNormal : α → Prop) (read : Value → Checked α) (write : α → Value) : Prop where
  again : ∀ v a, read v = .ok a → read (write a) = .ok a
  written : ∀ a, IsNormal a → read (write a) = .ok a

theorem Settles.of_written (h : ∀ a, read (write a) = .ok a) : Settles (fun _ => True) read write :=
  ⟨fun _ a _ => h a, fun a _ => h a⟩

/-! ### Checked values -/

@[simp] theorem map_ok (f : α → β) (a : α) : f <$> Checked.ok a = .ok (f a) := rfl

@[simp] theorem seq_ok (f : α → β) (a : α) : Checked.ok f <*> Checked.ok a = .ok (f a) := rfl

@[simp] theorem under_ok (step : Step) (a : α) : (Checked.ok a).under step = .ok a := rfl

/-! ### Scalars -/

@[simp] theorem readText_text (s : String) : readText (.text s) = .ok s := rfl

@[simp] theorem readBool_bool (b : Bool) : readBool (.bool b) = .ok b := rfl

@[simp] theorem readInt_int (n : Int) : readInt (.int n) = .ok n := rfl

theorem readOneOf_text {ofWord? : String → Option α} {word : String} {a : α} (h : ofWord? word = some a) :
    readOneOf ofWord? (.text word) = .ok a := by
  simp [readOneOf, h]

/-! ### Options and lists -/

/-- What is there must not be written as if it were not. -/
theorem readOption_ofOption {o : Option α} (h : ∀ a ∈ o, write a ≠ .null ∧ read (write a) = .ok a) :
    readOption read (ofOption write o) = .ok o := by
  cases o with
  | none => rfl
  | some a =>
    obtain ⟨hnull, hread⟩ := h a rfl
    have hsome : readOption read (write a) = (read (write a)).map some := by
      cases hwrite : write a with
      | null => exact absurd hwrite hnull
      | _ => rfl
    rw [ofOption, hsome, hread]
    rfl

@[simp] theorem readOption_text (o : Option String) : readOption readText (ofOption .text o) = .ok o :=
  readOption_ofOption fun _ _ => ⟨nofun, rfl⟩

@[simp] theorem readOption_int (o : Option Int) : readOption readInt (ofOption .int o) = .ok o :=
  readOption_ofOption fun _ _ => ⟨nofun, rfl⟩

theorem items_map {xs : List α} (h : ∀ a ∈ xs, read (write a) = .ok a) (n : Nat) :
    Checked.items read n (xs.map write) = .ok xs := by
  induction xs generalizing n with
  | nil => rfl
  | cons a rest ih =>
    rw [List.map_cons, Checked.items, h a List.mem_cons_self, ih fun b hb => h b (List.mem_cons_of_mem a hb)]
    rfl

theorem readList_map {xs : List α} (h : ∀ a ∈ xs, read (write a) = .ok a) :
    readList read (.list (xs.map write)) = .ok xs := items_map h 0

@[simp] theorem readList_texts (xs : List String) : readList readText (texts xs) = .ok xs :=
  readList_map fun _ _ => rfl

/-! ### Objects -/

@[simp] theorem readObject_object {read : List (Value × Value) → Checked α} (parts : List (String × Value)) :
    readObject read (.object parts) = read (parts.map fun (key, value) => (.text key, value)) := rfl

@[simp] theorem entry?_text_cons (name key : String) (value : Value) (rest : List (Value × Value)) :
    entry? name ((.text key, value) :: rest) = if key = name then some value else entry? name rest := rfl

end Recordsmith.Value
