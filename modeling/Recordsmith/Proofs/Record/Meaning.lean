import Mathlib.Logic.Function.Basic
import Recordsmith.Proofs.Record.Consistency

/-!
What generated members do when they run. A record value is what each of its fields holds; a constructor call binds its
arguments to the parameters and then runs the assignments; a wither calls the constructor with arguments that are read
in the scope of the method. Main statement: calling a wither on a record gives that record with one field replaced,
whether arguments find their parameters by label or by position.
-/

namespace Recordsmith

/-- What each field of a record holds. -/
abbrev RecordValue (V : Type) : Type := String → V

/-- How the arguments of a call find their parameters. -/
inductive Binding
  | byLabel
  | byPosition
  deriving DecidableEq, Repr

section
variable {V : Type}

/-! ### Running generated members -/

/-- The value of the first argument with a label, and the arguments that are left. -/
def takeLabelled (label : String) : List (String × V) → Option (V × List (String × V))
  | [] => none
  | (first, value) :: rest =>
    if first = label then some (value, rest)
    else (takeLabelled label rest).map fun (found, others) => (found, (first, value) :: others)

/-- The parameters with the values that a call's arguments, each under its label, give them. A call with an argument
    too few or too many is no call of the constructor. -/
def Binding.bind : Binding → List Parameter → List (String × V) → Option (List (String × V))
  | _, [], [] => some []
  | _, [], _ :: _ => none
  | .byLabel, p :: more, arguments =>
    (takeLabelled p.name arguments).bind fun (value, others) =>
      (Binding.bind .byLabel more others).map ((p.name, value) :: ·)
  | .byPosition, _ :: _, [] => none
  | .byPosition, p :: more, (_, value) :: others => (Binding.bind .byPosition more others).map ((p.name, value) :: ·)

/-- One assignment: the field takes what the parameter of its name holds. -/
def assign (bound : List (String × V)) (record : RecordValue V) (field : String) : Option (RecordValue V) :=
  (bound.lookup field).map (Function.update record field)

/-- Runs the assignments in order. `fresh` is what the fields hold before. -/
def Constructor.run (c : Constructor) (bound : List (String × V)) (fresh : RecordValue V) : Option (RecordValue V) :=
  c.assignments.foldlM (assign bound) fresh

/-- What an argument passes: a name without the receiver in front denotes the method's parameter if it is that name, and
    the receiver's field otherwise. -/
def Argument.eval (a : Argument) (parameterName : String) (receiver : RecordValue V) (value : V) : V :=
  if a.viaReceiver then receiver a.expression
  else if a.expression = parameterName then value
  else receiver a.expression

/-- The record that a wither gives when it is called on `receiver` with `value`. -/
def Wither.call (w : Wither) (c : Constructor) (binding : Binding) (receiver fresh : RecordValue V) (value : V) :
    Option (RecordValue V) :=
  (binding.bind c.parameters (w.arguments.map fun a => (a.label, a.eval w.parameter.name receiver value))).bind
    (c.run · fresh)

/-! ### Arguments in scope -/

/-- The argument of a field passes the new value to the target and the receiver's value to every other field, also to
    one that shares the parameter's name. -/
theorem Argument.eval_forField (target parameterName field : String) (receiver : RecordValue V) (value : V) :
    (Argument.forField target parameterName field).eval parameterName receiver value =
      Function.update receiver target value field := by
  unfold Argument.forField Argument.eval
  by_cases ht : field = target
  · subst ht
    simp
  · rw [if_neg ht, Function.update_of_ne ht]
    by_cases hp : field = parameterName
    · simp [hp]
    · simp [hp]

theorem callArguments_eval (fields : List Field) (target parameterName : String) (receiver : RecordValue V) (value : V) :
    (callArguments fields target parameterName).map (fun a => (a.label, a.eval parameterName receiver value)) =
      (Field.names fields).map fun n => (n, Function.update receiver target value n) := by
  simp [callArguments, Field.names, Argument.eval_forField, Function.comp_def]

/-! ### Binding -/

theorem takeLabelled_cons_self (label : String) (value : V) (rest : List (String × V)) :
    takeLabelled label ((label, value) :: rest) = some (value, rest) := by
  simp [takeLabelled]

/-- Arguments that are labelled like the parameters, one by one, find them in both ways. -/
theorem Binding.bind_of_labels (binding : Binding) {parameters : List Parameter} {arguments : List (String × V)}
    (h : arguments.map (·.1) = parameters.map (·.name)) : binding.bind parameters arguments = some arguments := by
  induction parameters generalizing arguments with
  | nil =>
    rw [List.map_nil, List.map_eq_nil_iff] at h
    subst h
    cases binding <;> rfl
  | cons p more ih =>
    rw [List.map_cons, List.map_eq_cons_iff] at h
    obtain ⟨⟨label, value⟩, others, rfl, hlabel, hrest⟩ := h
    obtain rfl : label = p.name := hlabel
    cases binding with
    | byLabel => simp [Binding.bind, takeLabelled_cons_self, ih hrest]
    | byPosition => simp [Binding.bind, ih hrest]

/-! ### Assignments -/

theorem lookup_map_of_mem {value : String → V} {n : String} :
    ∀ {names : List String}, n ∈ names → (names.map fun m => (m, value m)).lookup n = some (value n)
  | m :: rest, h => by
    by_cases hm : n = m
    · subst hm
      simp
    · have hbeq : (n == m) = false := by simpa using hm
      rw [List.map_cons, List.lookup_cons, hbeq]
      exact lookup_map_of_mem ((List.mem_cons.mp h).resolve_left hm)

/-- Assigning fields whose parameters hold `value` gives them these values and leaves the others as they are. -/
theorem foldlM_assign {bound : List (String × V)} {value : String → V} (names : List String)
    (h : ∀ n ∈ names, bound.lookup n = some (value n)) (fresh : RecordValue V) :
    names.foldlM (assign bound) fresh = some fun f => if f ∈ names then value f else fresh f := by
  induction names generalizing fresh with
  | nil => simp
  | cons n rest ih =>
    have hn : assign bound fresh n = some (Function.update fresh n (value n)) := by
      simp [assign, h n (List.mem_cons_self ..)]
    rw [List.foldlM_cons, hn]
    show rest.foldlM (assign bound) (Function.update fresh n (value n)) = _
    rw [ih (fun m hm => h m (List.mem_cons_of_mem _ hm))]
    congr 1
    funext f
    by_cases hf : f ∈ rest
    · simp [hf]
    · by_cases hfn : f = n
      · subst hfn
        simp [hf]
      · simp [hf, hfn]

/-! ### Withers -/

/-- A wither of some fields gives these fields the receiver's values, with one replaced. -/
theorem Wither.call_of_mem_ofFields {fields : List Field} {access access' : Option String} {required : Bool}
    {parameterName : String} {w : Wither} (h : w ∈ Wither.ofFields fields access parameterName) (binding : Binding)
    (receiver fresh : RecordValue V) (value : V) :
    w.call (Constructor.ofFields fields access' required) binding receiver fresh value =
      some fun f => if f ∈ Field.names fields then Function.update receiver w.name value f else fresh f := by
  obtain ⟨p, -, rfl⟩ := Wither.mem_ofFields h
  simp only [Wither.call, callArguments_eval]
  rw [binding.bind_of_labels (by simp [Constructor.ofFields, Field.names, Function.comp_def])]
  exact foldlM_assign (Field.names fields) (fun n hn => lookup_map_of_mem hn) fresh

end

/-- Calling a generated wither gives, however its arguments are bound, the same record: the receiver with the field that
    the wither is named for replaced and all other fields kept. -/
theorem wither_replaces_one_field {V : Type} {d : Declaration} {options : Synthesis} {members : List GeneratedMember}
    (hd : d.kind = .value ∨ d.kind = .reference) (h : d.assemble options = .ok members) :
    ∃ (c : Constructor) (withers : List Wither), members = .constructor c :: withers.map .wither ∧
      ∀ w ∈ withers, ∀ (receiver fresh : RecordValue V) (value : V), ∃ made : RecordValue V,
        w.call c .byLabel receiver fresh value = some made ∧ w.call c .byPosition receiver fresh value = some made ∧
        made w.name = value ∧
        ∀ m ∈ d.members, m.IsField → ∀ f, m.name = some f → f ≠ w.name → made f = receiver f := by
  have hrec : d.isRecord = true := by rcases hd with hd | hd <;> simp [Declaration.isRecord, hd]
  refine ⟨_, _, (Declaration.assemble_eq_ok hrec h).2, fun w hw receiver fresh value => ?_⟩
  refine ⟨_, Wither.call_of_mem_ofFields hw .byLabel receiver fresh value,
    Wither.call_of_mem_ofFields hw .byPosition receiver fresh value, ?_, ?_⟩
  · obtain ⟨p, hp, rfl⟩ := Wither.mem_ofFields hw
    have hname : p.name ∈ Field.names d.fields := List.mem_map.mpr ⟨p, hp, rfl⟩
    simp [hname]
  · intro m hm hfield f hf hne
    have hname : f ∈ Field.names d.fields := Declaration.mem_names_of_isField hm hfield hf
    simp [hname, Function.update_of_ne hne]

/-- In the mixed class the wither of `owner` keeps the field `value`, which shares the parameter's name. -/
theorem wither_replaces_one_field_mixed :
    ∃ (c : Constructor) (w : Wither) (made : RecordValue Nat),
      w.name = "owner" ∧ w.parameter.name = "value" ∧
      w.call c .byLabel (fun f => f.length) (fun _ => 0) 9 = some made ∧
      w.call c .byPosition (fun f => f.length) (fun _ => 0) 9 = some made ∧ made "owner" = 9 ∧ made "value" = 5 := by
  obtain ⟨c, w, other, h, hname, hparameter⟩ : ∃ (c : Constructor) (w other : Wither),
      Declaration.mixed.assemble {} = .ok [.constructor c, .wither w, .wither other] ∧ w.name = "owner" ∧
        w.parameter.name = "value" := ⟨_, _, _, rfl, rfl, rfl⟩
  obtain ⟨c', withers, hmembers, hcall⟩ := wither_replaces_one_field (V := Nat) (Or.inr rfl) h
  have hw : w ∈ withers := by
    have hmem : GeneratedMember.wither w ∈ withers.map .wither := by simp [← (List.cons.inj hmembers).2]
    simpa using hmem
  obtain ⟨made, hlabel, hposition, htarget, hkept⟩ := hcall w hw (fun f => f.length) (fun _ => 0) 9
  refine ⟨c', w, made, hname, hparameter, hlabel, hposition, hname ▸ htarget, ?_⟩
  rw [hkept { name := some "value", type := some "Int" } (by decide) (by decide) "value" rfl (by rw [hname]; decide)]
  decide

end Recordsmith
