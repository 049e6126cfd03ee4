import LineProbe.Instrument.Piece
import LineProbe.Proofs.Indentation
import LineProbe.Proofs.Reader

/-!
# Lines that are put in

Every line that is put in is a call or an assignment of names: a reader takes it and is left where it was.
-/

namespace LineProbe

open Text

/-! ## Plain texts -/

def Plain (text : Text) : Prop :=
  ∀ c ∈ text, isQuiet c = true ∧ c ≠ '\n'

instance (text : Text) : Decidable (Plain text) :=
  inferInstanceAs (Decidable (∀ c ∈ text, isQuiet c = true ∧ c ≠ '\n'))

theorem plain_append : Plain (first ++ last) ↔ Plain first ∧ Plain last :=
  List.forall_mem_append

theorem plain_cons : Plain (c :: rest) ↔ (isQuiet c ∧ c ≠ '\n') ∧ Plain rest :=
  List.forall_mem_cons

variable {depth : Int} {what : Injection}

theorem Plain.newline_not_mem (h : Plain text) : '\n' ∉ text :=
  fun mem => (h _ mem).2 rfl

theorem plain_ofNat (n : Nat) : Plain (ofNat n) := by
  intro c mem
  have digit := isDigit_of_mem_ofNat mem
  refine ⟨isQuiet_of (by decide) digit, ?_⟩
  rintro rfl
  cases digit

theorem plain_ofInt (n : Int) : Plain (ofInt n) := by
  cases n with
  | ofNat n => exact plain_ofNat n
  | negSucc n => exact plain_cons.2 ⟨by decide, plain_ofNat _⟩

theorem plain_tempName (temp : Temp) : Plain temp.name := by
  have digits := plain_ofNat temp.number
  cases kind : temp.kind <;>
  · simp only [Temp.name, kind, plain_append]
    exact ⟨by decide, digits⟩

theorem starts_tempName (temp : Temp) : Starts temp.name := by
  cases kind : temp.kind <;>
  · simp only [Temp.name, kind]
    exact ⟨'_', _, rfl, by decide⟩

theorem plain_render (config : IndentConfig) (level : Nat) : Plain (config.render level) :=
  fun d mem => ⟨isQuiet_of_isBlankChar (blank_render config level d mem).1, (blank_render config level d mem).2⟩

/-! ## Taking calls -/

namespace Reader

theorem takes_plain (ground : 0 ≤ depth) (plain : Plain text) :
    (⟨.code, depth, false⟩ : Reader).Takes text ⟨.code, depth, false⟩ := by
  by_cases empty : text = []
  · subst empty
    exact .nil _
  · exact takes_quiet rfl ground (fun c mem => (plain c mem).1) plain.newline_not_mem empty

theorem takes_call {mode : Mode} {slash : Bool} (ground : 0 ≤ depth) (named : Plain name)
    (inside : (⟨.code, depth + 1, false⟩ : Reader).Takes arguments ⟨mode, depth + 1, slash⟩) (settled : mode.isSettled) :
    (⟨.code, depth, false⟩ : Reader).Takes (name ++ '(' :: (arguments ++ [')'])) ⟨.code, depth, false⟩ := by
  have enter : (⟨.code, depth, false⟩ : Reader).next '(' = ⟨.code, depth + 1, false⟩ := next_opener rfl rfl
  have leave : (⟨mode, depth + 1, slash⟩ : Reader).next ')' = ⟨.code, depth, false⟩ := by
    rw [next_closer settled rfl]
    simp
  refine (takes_plain ground named).append (.cons ?_ (by decide) ?_)
  · rw [enter]
    exact Int.le_of_lt (Int.lt_add_one_of_le ground)
  · rw [enter]
    refine inside.append (.cons ?_ (by decide) ?_)
    · rwa [leave]
    · rw [leave]
      exact .nil _

theorem takes_string (ground : 0 ≤ depth) (nonempty : text ≠ []) (plain : Plain text) :
    (⟨.code, depth, false⟩ : Reader).Takes ('"' :: (text ++ ['"'])) ⟨.code, depth, false⟩ :=
  takes_quoted ground nonempty (fun c mem => (plain c mem).1) plain.newline_not_mem

theorem takes_tag (ground : 0 ≤ depth) (line : Int) :
    (⟨.code, depth, false⟩ : Reader).Takes (Probe.tag line) ⟨.code, depth, false⟩ := by
  have tag : Probe.tag line = '"' :: ((ofInt line ++ [':']) ++ ['"']) := by
    simp [Probe.tag]
  rw [tag]
  exact takes_string ground (by simp) (plain_append.2 ⟨plain_ofInt line, by decide⟩)

theorem guardCall_eq (site : Text) (line limit : Int) :
    Probe.guardCall site line limit = "_clem_guard".toList ++ '(' ::
      (('"' :: (site ++ ['"'])) ++ (", ".toList ++ ofInt line ++ ", ".toList ++ ofInt limit) ++ [')']) := by
  have enter : ("_clem_guard(\"" : String).toList = "_clem_guard".toList ++ ['(', '"'] := by decide +kernel
  have behind : ("\", " : String).toList = '"' :: ", ".toList := by decide +kernel
  have close : (")" : String).toList = [')'] := by decide +kernel
  unfold Probe.guardCall
  rw [enter, behind, close]
  simp only [List.append_assoc, List.cons_append, List.nil_append]

theorem takes_guardCall (ground : 0 ≤ depth) (nonempty : site ≠ []) (plain : Plain site) (line limit : Int) :
    (⟨.code, depth, false⟩ : Reader).Takes (Probe.guardCall site line limit) ⟨.code, depth, false⟩ := by
  have deeper : 0 ≤ depth + 1 := by omega
  rw [guardCall_eq]
  refine takes_call ground (by decide) ((takes_string deeper nonempty plain).append (takes_plain deeper ?_)) rfl
  simp only [plain_append]
  exact ⟨⟨⟨by decide, plain_ofInt line⟩, by decide⟩, plain_ofInt limit⟩

theorem bare_eq (line : Int) : Probe.bare line = "print".toList ++ '(' :: (Probe.tag line ++ [')']) := by
  have enter : ("print(" : String).toList = "print".toList ++ ['('] := by decide +kernel
  have leave : (")" : String).toList = [')'] := by decide +kernel
  unfold Probe.bare
  rw [enter, leave]
  simp only [List.append_assoc, List.cons_append, List.nil_append]

theorem takes_bare (ground : 0 ≤ depth) (line : Int) :
    (⟨.code, depth, false⟩ : Reader).Takes (Probe.bare line) ⟨.code, depth, false⟩ := by
  rw [bare_eq]
  exact takes_call ground (by decide) (takes_tag (by omega) line) rfl

theorem takes_shown (ground : 0 ≤ depth)
    (taken : (⟨.code, depth + 1, false⟩ : Reader).Takes first ⟨.code, depth + 1, false⟩) (plain : Plain payload) :
    (⟨.code, depth, false⟩ : Reader).Takes
      ("print".toList ++ '(' :: ((first ++ (" + str".toList ++ '(' :: (payload ++ [')']))) ++ [')']))
      ⟨.code, depth, false⟩ := by
  have value : (⟨.code, depth + 1, false⟩ : Reader).Takes (" + str".toList ++ '(' :: (payload ++ [')']))
      ⟨.code, depth + 1, false⟩ :=
    takes_call (by omega) (by decide) (takes_plain (by omega) plain) rfl
  exact takes_call ground (by decide) (taken.append value) rfl

theorem showing_eq (line : Int) (payload : Text) :
    Probe.showing line payload =
      "print".toList ++ '(' :: ((Probe.tag line ++ (" + str".toList ++ '(' :: (payload ++ [')']))) ++ [')']) := by
  have enter : ("print(" : String).toList = "print".toList ++ ['('] := by decide +kernel
  have between : (" + str(" : String).toList = " + str".toList ++ ['('] := by decide +kernel
  have leave : ("))" : String).toList = [')', ')'] := by decide +kernel
  unfold Probe.showing
  rw [enter, between, leave]
  simp only [List.append_assoc, List.cons_append, List.nil_append]

theorem takes_showing (ground : 0 ≤ depth) (line : Int) (plain : Plain payload) :
    (⟨.code, depth, false⟩ : Reader).Takes (Probe.showing line payload) ⟨.code, depth, false⟩ := by
  rw [showing_eq]
  exact takes_shown ground (takes_tag (by omega) line) plain

theorem parameter_eq (line : Int) (name : Text) :
    Probe.parameter line name = "print".toList ++ '(' ::
      ((('"' :: ((ofInt line ++ ":".toList ++ name ++ ": ".toList) ++ ['"'])) ++
        (" + str".toList ++ '(' :: (name ++ [')']))) ++ [')']) := by
  have enter : ("print(\"" : String).toList = "print".toList ++ ['(', '"'] := by decide +kernel
  have between : (": \" + str(" : String).toList = ": ".toList ++ '"' :: (" + str".toList ++ ['(']) := by
    decide +kernel
  have leave : ("))" : String).toList = [')', ')'] := by decide +kernel
  unfold Probe.parameter
  rw [enter, between, leave]
  simp only [List.append_assoc, List.cons_append, List.nil_append]

theorem takes_parameter (ground : 0 ≤ depth) (line : Int) (plain : Plain name) :
    (⟨.code, depth, false⟩ : Reader).Takes (Probe.parameter line name) ⟨.code, depth, false⟩ := by
  rw [parameter_eq]
  refine takes_shown ground (takes_string (by omega) (by simp) ?_) plain
  simp only [plain_append]
  exact ⟨⟨⟨plain_ofInt line, by decide⟩, plain⟩, by decide⟩

theorem ofInt_ne_nil (n : Int) : ofInt n ≠ [] := by
  cases n with
  | ofNat n => exact Nat.toDigits_ne_nil
  | negSucc n => simp [ofInt]

theorem quotedCall_eq {opening : Text} (enter : opening = name ++ ['(', '"']) (text : Text) :
    opening ++ text ++ ("\")" : String).toList = name ++ '(' :: (('"' :: (text ++ ['"'])) ++ [')']) := by
  have leave : ("\")" : String).toList = ['"', ')'] := by decide +kernel
  rw [enter, leave]
  simp only [List.append_assoc, List.cons_append, List.nil_append]

theorem mark_eq (line : Int) :
    Probe.mark line = "_clem_mark".toList ++ '(' :: (('"' :: (ofInt line ++ ['"'])) ++ [')']) :=
  quotedCall_eq (by decide +kernel) _

theorem enter_eq (line : Int) :
    Probe.enter line = "_clem_enter".toList ++ '(' :: (('"' :: (ofInt line ++ ['"'])) ++ [')']) :=
  quotedCall_eq (by decide +kernel) _

theorem takes_keyed (ground : 0 ≤ depth) (named : Plain name) (line : Int) :
    (⟨.code, depth, false⟩ : Reader).Takes (name ++ '(' :: (('"' :: (ofInt line ++ ['"'])) ++ [')']))
      ⟨.code, depth, false⟩ :=
  takes_call ground named (takes_string (by omega) (ofInt_ne_nil line) (plain_ofInt line)) rfl

end Reader

/-! ## Lines that are put in -/

def Injection.Plain : Injection → Prop
  | .probe payload => ∀ text ∈ payload, LineProbe.Plain text
  | .parameter name => LineProbe.Plain name
  | .update target operator _ => LineProbe.Plain target ∧ LineProbe.Plain operator ∧ nameAtStart target ≠ []
  | .mark _ | .enter | .limitGuard _ _ | .giveBack _ | .pass => True
  | .callMock _ _ => False

theorem Injection.Plain.takes (h : what.Plain) (origin : Int) : Reader.start.Takes (what.text origin) Reader.start := by
  have ground : (0 : Int) ≤ 0 := Int.le_refl 0
  cases what with
  | probe payload =>
    cases payload with
    | none => exact Reader.takes_bare ground origin
    | some payload => exact Reader.takes_showing ground origin (h payload rfl)
  | parameter name => exact Reader.takes_parameter ground origin h
  | mark key =>
    change Reader.start.Takes (Probe.mark key) _
    rw [Reader.mark_eq]
    exact Reader.takes_keyed ground (by decide) key
  | enter =>
    change Reader.start.Takes (Probe.enter origin) _
    rw [Reader.enter_eq]
    exact Reader.takes_keyed ground (by decide) origin
  | limitGuard site limit =>
    exact Reader.takes_guardCall ground (by simp) (plain_cons.2 ⟨by decide, plain_ofNat site⟩) _ _
  | update target operator temp =>
    have plain : LineProbe.Plain (target ++ " ".toList ++ operator ++ "= ".toList ++ temp.name) := by
      simp only [plain_append]
      exact ⟨⟨⟨⟨h.1, by decide⟩, h.2.1⟩, by decide⟩, plain_tempName temp⟩
    exact Reader.takes_plain ground plain
  | giveBack temp =>
    cases temp with
    | none => exact Reader.takes_plain ground (show LineProbe.Plain "return".toList by decide)
    | some temp => exact Reader.takes_plain ground (plain_append.2 ⟨by decide, plain_tempName temp⟩)
  | pass => exact Reader.takes_plain ground (show LineProbe.Plain "pass".toList by decide)
  | callMock => cases h

theorem Injection.Plain.newline_not_mem (h : what.Plain) (origin : Int) : '\n' ∉ what.text origin := by
  have int (n : Int) := (plain_ofInt n).newline_not_mem
  have nat (n : Nat) := (plain_ofNat n).newline_not_mem
  have temp (temp : Temp) := (plain_tempName temp).newline_not_mem
  unfold text Probe.bare Probe.showing Probe.parameter Probe.mark Probe.enter Probe.guardCall Probe.tag
    Probe.siteName
  split
  case h_1 | h_4 | h_5 =>
    simp only [List.mem_append, int, not_or]
    decide +kernel
  case h_2 payload =>
    have free := LineProbe.Plain.newline_not_mem (h payload rfl)
    simp only [List.mem_append, int, free, not_or]
    decide +kernel
  case h_3 name =>
    have free := LineProbe.Plain.newline_not_mem h
    simp only [List.mem_append, int, free, not_or]
    decide +kernel
  case h_6 =>
    simp only [List.mem_append, List.mem_cons, int, nat, not_or]
    decide +kernel
  case h_7 target operator _ =>
    have freeTarget := h.1.newline_not_mem
    have freeOperator := h.2.1.newline_not_mem
    simp only [List.mem_append, temp, freeTarget, freeOperator, not_or]
    decide +kernel
  case h_8 | h_10 => decide +kernel
  case h_9 =>
    simp only [List.mem_append, temp, not_or]
    decide +kernel
  case h_11 => cases h

theorem Injection.Plain.starts (h : what.Plain) (origin : Int) : Starts (what.text origin) := by
  cases what with
  | probe payload => cases payload <;> exact ⟨'p', _, rfl, by decide⟩
  | parameter name => exact ⟨'p', _, rfl, by decide⟩
  | mark | enter | limitGuard => exact ⟨'_', _, rfl, by decide⟩
  | update target operator temp =>
    obtain ⟨-, -, named⟩ := h
    cases target with
    | nil => exact absurd rfl named
    | cons c rest =>
      have word : isWordChar c := by
        rw [nameAtStart] at named
        split at named
        · next start => exact isWordChar_of_isNameStart start
        · exact absurd rfl named
      exact ⟨c, _, rfl, isBlankChar_of_isWordChar word⟩
  | giveBack temp => cases temp <;> exact ⟨'r', _, rfl, by decide⟩
  | pass => exact ⟨'p', _, rfl, by decide⟩
  | callMock => cases h

end LineProbe
