import LineProbe.Proofs.Reader
import LineProbe.Signature.Parameters

/-!
# Names of parameters

Whatever way the parameters of a header are found, their names consist of characters of names: a definition that
follows the grammar is refused for any other name, and the pieces of other headers count only if they are plain names.
-/

namespace LineProbe

open Text

/-! ## Characters -/

def isNamePart (c : Char) : Bool :=
  isWordChar c || isIdentifierStart c || isIdentifierRest c

theorem isQuiet_of_isNamePart (h : isNamePart c) : isQuiet c :=
  isQuiet_of (by decide) h

theorem ne_newline_of_isNamePart (h : isNamePart c) : c ≠ '\n' := by
  rintro rfl
  revert h
  decide

namespace Signature

theorem isNamePart_of_nameAtStart {name : Text} (h : nameAtStart name = name) (mem : c ∈ name) : isNamePart c := by
  rw [← h] at mem
  simp [isNamePart, isWordChar_of_mem_nameAtStart mem]

theorem isNamePart_of_isIdentifier {name : Text} (h : isIdentifier name) (mem : c ∈ name) : isNamePart c := by
  cases name with
  | nil => cases mem
  | cons first rest =>
    simp only [isIdentifier, Bool.and_eq_true, List.all_eq_true] at h
    rcases List.mem_cons.1 mem with rfl | later
    · simp [isNamePart, h.1]
    · simp [isNamePart, h.2 c later]

/-! ## Results of recognisers -/

def Yields {α : Type} (recognizer : Recognizer α) (property : α → Prop) : Prop :=
  ∀ tokens found rest, recognizer.run tokens = some (found, rest) → property found

section Yields

theorem yields_pure (h : property value) : Yields (pure value) property := by
  intro tokens found rest same
  cases same
  exact h

theorem yields_failure : Yields failure property := by
  intro tokens found rest same
  cases same

theorem Yields.bind {first : Recognizer β} {next : β → Recognizer α} {between : β → Prop} (h : Yields first between)
    (h' : ∀ value, between value → Yields (next value) property) : Yields (first >>= next) property := by
  intro tokens found rest same
  rw [StateT.run_bind] at same
  obtain ⟨⟨value, left⟩, here, later⟩ := Option.bind_eq_some_iff.1 same
  exact h' value (h _ _ _ here) _ _ _ later

theorem yields_bind {first : Recognizer β} {next : β → Recognizer α} (h : ∀ value, Yields (next value) property) :
    Yields (first >>= next) property :=
  Yields.bind (fun _ _ _ _ => trivial) fun value (_ : True) => h value

end Yields

/-! ## Parameters of a definition -/

def Parameter.Checked (parameter : Parameter) : Prop :=
  parameter.fault = none → isIdentifier parameter.name = true

theorem nameFault_eq_none {name : Text} : nameFault name = none ↔ isIdentifier name := by
  simp [nameFault]

theorem firstFault_eq_none : firstFault faults = none ↔ ∀ fault ∈ faults, fault = none := by
  simp [firstFault]

theorem yields_parameter (fuel : Nat) (annotated starred : Bool) :
    Yields (parameter fuel annotated starred) Parameter.Checked := by
  cases fuel with
  | zero => exact yields_failure
  | succ fuel =>
    have plain (called : Text) : Parameter.Checked ⟨called, nameFault called⟩ := nameFault_eq_none.1
    have noted (called : Text) (fault : Option Fault) :
        Parameter.Checked ⟨called, firstFault [nameFault called, fault]⟩ := by
      intro none
      exact nameFault_eq_none.1 (firstFault_eq_none.1 none _ (by simp))
    rw [parameter]
    refine yields_bind fun called => ?_
    cases starred with
    | true =>
      refine yields_bind fun colon => ?_
      split
      · exact yields_bind fun _ => yields_bind fun _ => yields_bind fun _ => yields_pure (noted _ _)
      · exact yields_pure (plain _)
    | false =>
      refine yields_bind fun colon => ?_
      split
      · exact yields_bind fun _ => yields_bind fun _ => yields_bind fun _ => yields_bind fun _ =>
          yields_pure (noted _ _)
      · exact yields_pure (plain _)

def EntriesChecked (entries : List ParameterEntry) : Prop :=
  ∀ parameter ∈ entries.filterMap (·.parameter?), parameter.Checked

theorem entriesChecked_cons {entry : ParameterEntry} {entries : List ParameterEntry}
    (h : ∀ parameter, entry.parameter? = some parameter → parameter.Checked) (h' : EntriesChecked entries) :
    EntriesChecked (entry :: entries) := by
  intro parameter mem
  rw [List.filterMap_cons] at mem
  split at mem
  · exact h' parameter mem
  · next found =>
    rcases List.mem_cons.1 mem with rfl | later
    · exact h _ found
    · exact h' parameter later

theorem entriesChecked_of_parameter {entry : ParameterEntry} {parameter : Parameter} {entries : List ParameterEntry}
    (found : entry.parameter? = some parameter) (h : parameter.Checked) (h' : EntriesChecked entries) :
    EntriesChecked (entry :: entries) :=
  entriesChecked_cons (fun other same => by rw [found] at same; cases same; exact h) h'

theorem Parameter.Checked.withDefault {parameter : Parameter} (h : parameter.Checked) (fault : Option Fault) :
    Parameter.Checked { parameter with fault := firstFault [parameter.fault, fault] } :=
  fun none => h (firstFault_eq_none.1 none _ (by simp))

-- `parameters` and `moreParameters` call each other, so they are taken together, by induction on the fuel.
theorem yields_parameters (fuel : Nat) (annotated : Bool) (close : String) :
    (∀ phase, Yields (parameters fuel annotated close phase) EntriesChecked) ∧
      ∀ phase, Yields (moreParameters fuel annotated close phase) EntriesChecked := by
  induction fuel with
  | zero => exact ⟨fun _ => yields_failure, fun _ => yields_failure⟩
  | succ fuel ih =>
    have nil : EntriesChecked [] := by intro _ mem; cases mem
    have mark (entry : ParameterEntry) (none : entry.parameter? = none) (phase : ParameterPhase) :
        Yields (do return entry :: (← moreParameters fuel annotated close phase)) EntriesChecked :=
      (ih.2 phase).bind fun later checked =>
        yields_pure (entriesChecked_cons (fun _ same => by rw [none] at same; cases same) checked)
    have entry (entry : ParameterEntry) (parameter : Parameter) (found : entry.parameter? = some parameter)
        (checked : parameter.Checked) (phase : ParameterPhase) :
        Yields (do return entry :: (← moreParameters fuel annotated close phase)) EntriesChecked :=
      (ih.2 phase).bind fun later rest => yields_pure (entriesChecked_of_parameter found checked rest)
    constructor
    · intro phase
      rw [parameters]
      refine yields_bind fun closed => ?_
      split
      · exact yields_bind fun _ => yields_pure nil
      refine yields_bind fun slash => ?_
      split
      · exact yields_bind fun _ => mark _ rfl _
      refine yields_bind fun mapping => ?_
      split
      · exact yields_bind fun _ => (yields_parameter fuel annotated false).bind fun found checked =>
          yields_bind fun _ => yields_bind fun _ => yields_bind fun _ =>
            yields_pure (entriesChecked_of_parameter rfl checked nil)
      refine yields_bind fun star => ?_
      split
      · refine yields_bind fun _ => yields_bind fun comma => ?_
        split
        · exact mark _ rfl _
        · exact (yields_parameter fuel annotated true).bind fun found checked => entry _ _ rfl checked _
      · refine (yields_parameter fuel annotated false).bind fun found checked => yields_bind fun equals => ?_
        split
        all_goals exact yields_bind fun _ => yields_bind fun _ => entry _ _ rfl (checked.withDefault _) _
    · intro phase
      rw [moreParameters]
      refine yields_bind fun comma => ?_
      split
      · exact ih.1 phase
      · exact yields_bind fun _ => yields_bind fun _ => yields_pure nil

theorem entryNames_of_entriesFault {entries : List ParameterEntry} (checked : EntriesChecked entries)
    (h : entriesFault entries = none) : ∀ name ∈ entryNames entries, isIdentifier name := by
  intro name mem
  obtain ⟨parameter, found, rfl⟩ := List.mem_map.1 mem
  refine checked parameter found (firstFault_eq_none.1 h _ ?_)
  exact List.mem_append_right _ (List.mem_map_of_mem found)

def Definition.Checked (definition : Definition) : Prop :=
  definition.fault = none → ∀ name ∈ definition.parameters, isIdentifier name = true

theorem yields_functionDefinition (fuel : Nat) (decorated : Option Fault) :
    Yields (functionDefinition fuel decorated) Definition.Checked := by
  cases fuel with
  | zero => exact yields_failure
  | succ fuel =>
    have made (called : Text) {entries : List ParameterEntry} (checked : EntriesChecked entries)
        (faults : List (Option Fault)) :
        Definition.Checked ⟨entryNames entries, firstFault (nameFault called :: entriesFault entries :: faults)⟩ :=
      fun none => entryNames_of_entriesFault checked (firstFault_eq_none.1 none _ (by simp))
    rw [functionDefinition]
    refine yields_bind fun called => yields_bind fun types => yields_bind fun _ => ?_
    refine ((yields_parameters fuel true ")").1 .start).bind fun entries checked => yields_bind fun _ => ?_
    refine yields_bind fun arrow => ?_
    split
    all_goals exact yields_bind fun _ => yields_bind fun _ => yields_bind fun _ => yields_pure (made _ checked _)

theorem definitionOf?_checked (h : definitionOf? header = some definition) : definition.Checked := by
  simp only [definitionOf?, definition?, bind, Option.bind_eq_some_iff] at h
  obtain ⟨tokens, -, ⟨found, rest⟩, run, same⟩ := h
  rw [Option.ite_none_right_eq_some] at same
  cases same.2
  exact yields_bind (fun _ => yields_functionDefinition _ _) _ _ _ run

/-! ## Parameters of other headers -/

theorem pieceName?_chars {piece name : Text} (h : pieceName? piece = some name) (mem : c ∈ name) : isNamePart c := by
  simp only [pieceName?, Option.ite_none_right_eq_some, Option.some.injEq] at h
  obtain ⟨⟨-, plain⟩, rfl⟩ := h
  exact isNamePart_of_nameAtStart plain mem

theorem pieceNames_chars (text : Text) : ∀ name ∈ pieceNames text, ∀ c ∈ name, isNamePart c := by
  fun_induction pieceNames text with
  | case1 text blank => simp
  | case2 text _ none =>
    intro name mem c
    exact pieceName?_chars (Option.mem_toList.1 mem)
  | case3 text _ index comma ih =>
    intro name mem c
    rcases List.mem_append.1 mem with here | later
    · exact pieceName?_chars (Option.mem_toList.1 here)
    · exact ih name later c

theorem withoutReceiver_subset (names : List Text) : withoutReceiver names ⊆ names := by
  cases names with
  | nil => exact List.Subset.refl _
  | cons name names =>
    rw [withoutReceiver]
    split
    · exact List.subset_cons_self _ _
    · exact List.Subset.refl _

theorem parameterNames_chars {inner : Text} (h : parameterNames header inner = .ok names) :
    ∀ name ∈ names, ∀ c ∈ name, isNamePart c := by
  unfold parameterNames at h
  intro name mem c char
  split at h
  · cases h
    exact pieceNames_chars inner name (withoutReceiver_subset _ mem) c char
  · next found =>
    cases h
    exact isNamePart_of_isIdentifier (definitionOf?_checked found rfl name (withoutReceiver_subset _ mem)) char
  · cases h

end Signature

end LineProbe
