import LineProbe.Config.Load
import LineProbe.Proofs.DigitLimit

/-!
# The settings of a run

A table of settings is looked at key by key, in the order of `rules`.
-/

namespace LineProbe

open Text

theorem trimRight_trimRight (text : Text) : trimRight (trimRight text) = trimRight text := by
  induction text with
  | nil => rfl
  | cons c rest ih =>
    rw [trimRight]
    cases kept : trimRight rest with
    | nil => by_cases blank : isBlankChar c <;> simp [blank, trimRight]
    | cons next more =>
      rw [kept] at ih
      dsimp only
      rw [trimRight, ih]

theorem trim_trim (text : Text) : trim (trim text) = trim text := by
  have left : trimLeft (trim text) = trim text := by
    rw [trim]
    cases starts : trimLeft text with
    | nil => rfl
    | cons c rest =>
      have whole := trimRight_append_cons [] rest (trimLeft_eq_cons starts)
      rw [List.nil_append] at whole
      rw [whole]
      exact trimLeft_of_head (by simp [trimLeft_eq_cons starts])
  rw [trim, left, trim, trimRight_trimRight]

/-! ## Single values -/

inductive Value.Counts : Value → Int → Prop where
  | int (n : Int) : Counts (.int n) n
  | float {x : Binary64} {n : Int} (whole : x.truncate? = some n) : Counts (.float x) n
  | text {text : Text} {n : Int} (read : readInteger text = .ok n) : Counts (.str text) n

inductive RuleKind where
  | mode
  | text
  | integer (minimum : Int)

/-- What the value of a key has to be, and the value that a missing one is taken for. -/
structure Rule where
  key : Text
  default : Value
  kind : RuleKind

namespace Rule

/-- The value that counts, where `given` are the values of the keys. -/
def value (rule : Rule) (given : Text → Option Value) : Value :=
  (given rule.key).getD rule.default

def Accepts (rule : Rule) (value : Value) : Prop :=
  match rule.kind with
  | .mode => ∃ text, ∃ mode : IndentMode, value = .str text ∧ trim text = mode.name
  | .text => ∃ text, value = .str text ∧ trim text ≠ []
  | .integer minimum => ∃ n, value.Counts n ∧ minimum ≤ n

/-- An infinity where an integer is needed. -/
def Overflows (rule : Rule) (value : Value) : Prop :=
  (∃ minimum, rule.kind = .integer minimum) ∧ ∃ negative, value = .float (.infinite negative)

/-- A value that a message would have to show with an integer of too many digits: one inside it, or the one that it
stands for where an integer is needed. -/
def Overlong (rule : Rule) (value : Value) : Prop :=
  (∃ n ∈ value.integers, ¬ Writable n) ∨
    (∃ minimum, rule.kind = .integer minimum) ∧ ∃ n, value.Counts n ∧ ¬ Writable n

/-- Which error a refused value gives: a finding about it, unless it is an infinity or cannot be shown. -/
structure Refuses (rule : Rule) (value : Value) (error : ConfigError) : Prop where
  finding : error.isFinding = false ↔ rule.Overflows value ∨ rule.Overlong value
  infinite : error = .infinite ↔ rule.Overflows value
  unwritable : error = .unwritable ↔ rule.Overlong value

def Judges {α : Type} (rule : Rule) (value : Value) : Except ConfigError α → Prop
  | .ok _ => rule.Accepts value
  | .error error => ¬ rule.Accepts value ∧ rule.Refuses value error

end Rule

section Values

variable {value : Value} {error : ConfigError}

theorem Rule.Refuses.of_causes {rule : Rule} (infinite : error = .infinite ↔ rule.Overflows value)
    (unwritable : error = .unwritable ↔ rule.Overlong value) : rule.Refuses value error := by
  refine ⟨?_, infinite, unwritable⟩
  rw [← infinite, ← unwritable]
  cases error <;> simp [ConfigError.isFinding]

theorem writeInteger_isOk_iff : (writeInteger n).isOk ↔ Writable n := by
  cases written : writeInteger n with
  | ok text => exact ⟨fun _ => (writeInteger_ok_iff.1 written).1, fun _ => rfl⟩
  | error cause =>
    refine ⟨fun ok => absurd ok (by simp [Except.isOk, Except.toBool]), fun short => ?_⟩
    rw [writeInteger_ok_iff.2 ⟨short, rfl⟩] at written
    cases written

theorem Rule.Refuses.of_finding {rule : Rule} (finding : error.isFinding) (finite : ¬ rule.Overflows value)
    (shown : (∃ n ∈ error.integers, ¬ Writable n) ↔ rule.Overlong value) : rule.Refuses value error.orUnwritable := by
  apply of_causes
  · simp only [finite, iff_false]
    rw [ConfigError.orUnwritable]
    split
    · rintro rfl
      cases finding
    · rintro ⟨⟩
  · rw [← shown, ConfigError.orUnwritable]
    split
    · next all =>
      simp only [List.all_eq_true, writeInteger_isOk_iff] at all
      refine ⟨?_, fun ⟨n, mem, long⟩ => absurd (all n mem) long⟩
      rintro rfl
      cases finding
    · next long =>
      simp only [List.all_eq_true, writeInteger_isOk_iff] at long
      simpa using long

theorem integerSetting_cases (key : Text) (value : Value) (minimum : Int) :
    (∃ n, value.Counts n ∧ integerSetting key value minimum =
      if n < minimum then .error (ConfigError.tooSmall key minimum n).orUnwritable else .ok n) ∨
    (∃ negative, value = .float (.infinite negative)) ∧ integerSetting key value minimum = .error .infinite ∨
    (∀ n, ¬ value.Counts n) ∧ (∀ negative, value ≠ .float (.infinite negative)) ∧
      integerSetting key value minimum = .error (ConfigError.notInteger key value).orUnwritable := by
  cases value with
  | int n => exact .inl ⟨n, .int n, rfl⟩
  | float x =>
    cases x with
    | nan => exact .inr (.inr ⟨by rintro n ⟨⟩; contradiction, by simp, rfl⟩)
    | infinite negative => exact .inr (.inl ⟨⟨negative, rfl⟩, rfl⟩)
    | finite negative significand exponent => exact .inl ⟨_, .float rfl, rfl⟩
  | str text =>
    cases read : readInteger text with
    | ok n => exact .inl ⟨n, .text read, by simp [integerSetting, Value.toInteger, read]⟩
    | error cause =>
      refine .inr (.inr ⟨?_, by simp, by simp [integerSetting, Value.toInteger, read]⟩)
      rintro n ⟨⟩
      simp_all
  | _ => exact .inr (.inr ⟨by rintro n ⟨⟩, by simp, rfl⟩)

theorem Value.Counts.unique (h : value.Counts n) (h' : value.Counts m) : n = m := by
  cases h with
  | int =>
    cases h'
    rfl
  | float whole =>
    cases h' with
    | float whole' => exact Option.some.inj (whole.symm.trans whole')
  | text read =>
    cases h' with
    | text read' => exact Except.ok.inj (read.symm.trans read')

theorem Value.not_counts_infinite (negative : Bool) : ¬ Value.Counts (.float (.infinite negative)) n := by
  rintro ⟨⟩
  contradiction

theorem Value.Counts.eq_of_mem_integers (h : value.Counts n) (mem : m ∈ value.integers) : m = n := by
  cases h with
  | int => simpa [Value.integers] using mem
  | _ => simp [Value.integers] at mem

theorem integerSetting_ok_iff : integerSetting key value minimum = .ok n ↔ value.Counts n ∧ minimum ≤ n := by
  rcases integerSetting_cases key value minimum with ⟨m, counts, same⟩ | ⟨⟨negative, rfl⟩, same⟩ | ⟨none_, -, same⟩
  · rw [same]
    constructor
    · intro h
      split at h
      · cases h
      · cases h
        exact ⟨counts, by omega⟩
    · rintro ⟨counts', bound⟩
      obtain rfl := counts.unique counts'
      rw [if_neg (by omega)]
  · rw [same]
    exact ⟨fun h => absurd h (by simp), fun h => absurd h.1 (Value.not_counts_infinite negative)⟩
  · rw [same]
    exact ⟨fun h => absurd h (by simp), fun h => absurd h.1 (none_ n)⟩

theorem refuses_integerSetting {key : Text} {default : Value}
    (h : integerSetting key value minimum = .error error) :
    Rule.Refuses ⟨key, default, .integer minimum⟩ value error := by
  rcases integerSetting_cases key value minimum with ⟨n, counts, same⟩ | ⟨infinite, same⟩ | ⟨none_, finite, same⟩
  · rw [h] at same
    split at same
    · cases same
      refine .of_finding rfl ?_ ⟨?_, ?_⟩
      · rintro ⟨-, negative, rfl⟩
        exact Value.not_counts_infinite negative counts
      · rintro ⟨m, mem, long⟩
        obtain rfl := List.mem_singleton.1 mem
        exact .inr ⟨⟨_, rfl⟩, m, counts, long⟩
      · rintro (⟨m, mem, long⟩ | ⟨-, m, counts', long⟩)
        · exact ⟨n, List.mem_singleton_self n, counts.eq_of_mem_integers mem ▸ long⟩
        · exact ⟨n, List.mem_singleton_self n, counts.unique counts' ▸ long⟩
    · cases same
  · cases h.symm.trans same
    refine .of_causes (iff_of_true rfl ⟨⟨_, rfl⟩, infinite⟩) (iff_of_false (by rintro ⟨⟩) ?_)
    obtain ⟨negative, rfl⟩ := infinite
    rintro (⟨n, mem, -⟩ | ⟨-, n, counts, -⟩)
    · cases mem
    · exact Value.not_counts_infinite negative counts
  · cases h.symm.trans same
    refine .of_finding rfl (fun ⟨_, negative, same⟩ => finite negative same) ⟨.inl, ?_⟩
    rintro (shown | ⟨-, n, counts, -⟩)
    · exact shown
    · exact absurd counts (none_ n)

theorem judges_integerSetting (key : Text) (default value : Value) (minimum : Int) :
    Rule.Judges ⟨key, default, .integer minimum⟩ value (integerSetting key value minimum) := by
  cases outcome : integerSetting key value minimum with
  | ok n => exact ⟨n, integerSetting_ok_iff.1 outcome⟩
  | error error =>
    refine ⟨?_, refuses_integerSetting outcome⟩
    rintro ⟨n, accepted⟩
    rw [integerSetting_ok_iff.2 accepted] at outcome
    cases outcome

theorem textSetting_ok_iff :
    textSetting key value = .ok text ↔ ∃ raw, value = .str raw ∧ trim raw = text ∧ text ≠ [] := by
  cases value with
  | str raw =>
    rw [textSetting]
    split
    · next blank => simp [blank, eq_comm]
    · next words =>
      constructor
      · intro h
        cases h
        exact ⟨raw, rfl, rfl, words⟩
      · rintro ⟨_, ⟨⟩, rfl, -⟩
        rfl
  | _ => simp [textSetting]

-- Where no integer is needed, a value can only be too long for a message.
theorem Rule.Refuses.of_text {rule : Rule} (finding : error.isFinding) (kind : ∀ minimum, rule.kind ≠ .integer minimum)
    (shown : error.integers = value.integers) : rule.Refuses value error.orUnwritable := by
  have other : ¬ ∃ minimum, rule.kind = .integer minimum := fun ⟨minimum, same⟩ => kind minimum same
  refine .of_finding finding (fun overflows => other overflows.1) ?_
  rw [shown]
  exact ⟨.inl, fun long => long.resolve_right fun counted => other counted.1⟩

theorem refuses_textSetting {rule : Rule} (kind : ∀ minimum, rule.kind ≠ .integer minimum)
    (h : textSetting key value = .error error) : rule.Refuses value error := by
  have same : error = (ConfigError.notText key value).orUnwritable := by
    cases value with
    | str raw =>
      rw [textSetting] at h
      split at h <;> cases h
      rfl
    | _ =>
      cases h
      rfl
  rw [same]
  exact .of_text rfl kind rfl

theorem judges_textSetting (key : Text) (default value : Value) :
    Rule.Judges ⟨key, default, .text⟩ value (textSetting key value) := by
  cases outcome : textSetting key value with
  | ok text =>
    obtain ⟨raw, same, rfl, words⟩ := textSetting_ok_iff.1 outcome
    exact ⟨raw, same, words⟩
  | error error =>
    refine ⟨?_, refuses_textSetting (by simp) outcome⟩
    rintro ⟨raw, same, words⟩
    rw [textSetting_ok_iff.2 ⟨raw, same, rfl, words⟩] at outcome
    cases outcome

theorem ofName?_eq_some_iff : IndentMode.ofName? name = some mode ↔ name = mode.name := by
  have differ : IndentMode.spaces.name ≠ IndentMode.tabs.name := by decide
  have unfolded : IndentMode.ofName? name = if name = IndentMode.spaces.name then some .spaces
      else if name = IndentMode.tabs.name then some .tabs else none := rfl
  rw [unfolded]
  split
  · next spaces => cases mode <;> simp [spaces, differ]
  · next other => split <;> cases mode <;> simp_all

theorem modeOf_ok_iff : IndentConfig.modeOf (.str name) = .ok mode ↔ name = mode.name := by
  rw [IndentConfig.modeOf, ← ofName?_eq_some_iff]
  cases IndentMode.ofName? name <;> simp

theorem modeOf_eq_error (h : IndentConfig.modeOf (.str name) = .error error) :
    error = (ConfigError.unknownMode (.str name)).orUnwritable := by
  rw [IndentConfig.modeOf] at h
  split at h <;> cases h
  rfl

theorem name_ne_nil (mode : IndentMode) : mode.name ≠ [] := by
  cases mode <;> decide

theorem judges_mode (key : Text) (default value : Value) :
    Rule.Judges ⟨key, default, .mode⟩ value
      (textSetting key value >>= fun name => IndentConfig.modeOf (.str name)) := by
  cases outcome : textSetting key value >>= fun name => IndentConfig.modeOf (.str name) with
  | ok mode =>
    obtain ⟨name, found, named⟩ := bind_ok_iff.1 outcome
    obtain ⟨raw, same, rfl, -⟩ := textSetting_ok_iff.1 found
    exact ⟨raw, mode, same, modeOf_ok_iff.1 named⟩
  | error error =>
    constructor
    · rintro ⟨raw, mode, same, named⟩
      have found : textSetting key value = .ok mode.name := textSetting_ok_iff.2 ⟨raw, same, named, name_ne_nil mode⟩
      rw [bind_ok_iff.2 ⟨_, found, modeOf_ok_iff.2 rfl⟩] at outcome
      cases outcome
    · cases found : textSetting key value with
      | error cause =>
        rw [found] at outcome
        cases outcome
        exact refuses_textSetting (by simp) found
      | ok name =>
        obtain ⟨raw, rfl, -⟩ := textSetting_ok_iff.1 found
        rw [found] at outcome
        rw [modeOf_eq_error outcome]
        exact .of_text rfl (by simp) rfl

end Values

/-! ## Tables of settings -/

section Tables

/-- The first of the rules that does not accept its value. -/
structure FirstRefused (given : Text → Option Value) (rules : List Rule) (rule : Rule) : Prop where
  first : ∃ earlier later, rules = earlier ++ rule :: later ∧ ∀ other ∈ earlier, other.Accepts (other.value given)
  refused : ¬ rule.Accepts (rule.value given)

def Judged (given : Text → Option Value) (rules : List Rule) : Except ConfigError α → Prop
  | .ok _ => ∀ rule ∈ rules, rule.Accepts (rule.value given)
  | .error error => ∃ rule, FirstRefused given rules rule ∧ rule.Refuses (rule.value given) error

theorem FirstRefused.later (accepted : other.Accepts (other.value given)) (h : FirstRefused given rest rule) :
    FirstRefused given (other :: rest) rule := by
  obtain ⟨⟨earlier, later, rfl, accepts⟩, refused⟩ := h
  exact ⟨⟨other :: earlier, later, rfl, List.forall_mem_cons.2 ⟨accepted, accepts⟩⟩, refused⟩

theorem Judged.bind {first : Except ConfigError α} {next : α → Except ConfigError β}
    (head : rule.Judges (rule.value given) first) (tail : ∀ value, first = .ok value → Judged given rest (next value)) :
    Judged given (rule :: rest) (first >>= next) := by
  cases first with
  | error cause => exact ⟨rule, ⟨⟨[], rest, rfl, by simp⟩, head.1⟩, head.2⟩
  | ok value =>
    have behind := tail value rfl
    change Judged given (rule :: rest) (next value)
    cases outcome : next value with
    | ok result =>
      rw [outcome] at behind
      exact List.forall_mem_cons.2 ⟨head, behind⟩
    | error error =>
      rw [outcome] at behind
      obtain ⟨other, refused, refuses⟩ := behind
      exact ⟨other, refused.later head, refuses⟩

end Tables

namespace RunConfig

def modeRule : Rule := ⟨"indent_mode", .str "spaces", .mode⟩

def widthRule : Rule := ⟨"indent_width", .int 4, .integer 1⟩

def timeoutRule : Rule := ⟨"timeout_ms", .int 5000, .integer 1⟩

def callLimitRule : Rule := ⟨"call_limit", .int 100, .integer 1⟩

def interpreterRule (interpreter : Text) : Rule := ⟨"interpreter", .str interpreter, .text⟩

def debounceRule : Rule := ⟨"debounce_ms", .int 300, .integer 0⟩

/-- The rules for the settings of a run, in the order in which they are applied. -/
def rules (interpreter : Text) : List Rule :=
  [modeRule, widthRule, timeoutRule, callLimitRule, interpreterRule interpreter, debounceRule]

structure Valid (config : RunConfig) : Prop where
  width : 1 ≤ config.indent.width
  mode : config.indent.mode = .spaces ∨ config.indent.mode = .tabs
  timeout : 1 ≤ config.timeout
  callLimit : 1 ≤ config.callLimit
  debounce : 0 ≤ config.debounce
  nonblank : config.interpreter ≠ []
  stripped : trim config.interpreter = config.interpreter

structure Takes (interpreter : Text) (given : Text → Option Value) (config : RunConfig) : Prop extends Valid config where
  takesMode : ∃ text, modeRule.value given = .str text ∧ trim text = config.indent.mode.name
  takesWidth : (widthRule.value given).Counts config.indent.width
  takesTimeout : (timeoutRule.value given).Counts config.timeout
  takesCallLimit : (callLimitRule.value given).Counts config.callLimit
  takesInterpreter : ∃ text, (interpreterRule interpreter).value given = .str text ∧ trim text = config.interpreter
  takesDebounce : (debounceRule.value given).Counts config.debounce

variable {interpreter : Text}

theorem ofWidth_of_pos (mode : IndentMode) (bound : 1 ≤ width) :
    ∃ indent, IndentConfig.ofWidth mode width = .ok indent ∧ (indent.width : Int) = width ∧ indent.mode = mode := by
  rw [IndentConfig.ofWidth, dif_pos (by omega)]
  exact ⟨_, rfl, by simp; omega, rfl⟩

theorem ofSettings_ok_iff :
    ofSettings interpreter settings = .ok config ↔ config.Takes interpreter (fun key => Value.lookup key settings) := by
  constructor
  · intro h
    simp only [ofSettings, bind_ok_iff] at h
    obtain ⟨name, named, mode, found, width, wide, indent, built, timeout, timed, callLimit, limited, program, given,
      debounce, waits, h⟩ := h
    cases h
    obtain ⟨raw, same, trimmed, -⟩ := textSetting_ok_iff.1 named
    obtain ⟨counts, bound⟩ := integerSetting_ok_iff.1 wide
    obtain ⟨_, built', width', mode'⟩ := ofWidth_of_pos mode bound
    obtain rfl := Except.ok.inj (built.symm.trans built')
    obtain ⟨path, samePath, rfl, words⟩ := textSetting_ok_iff.1 given
    obtain ⟨timeoutCounts, timeoutBound⟩ := integerSetting_ok_iff.1 timed
    obtain ⟨limitCounts, limitBound⟩ := integerSetting_ok_iff.1 limited
    obtain ⟨debounceCounts, debounceBound⟩ := integerSetting_ok_iff.1 waits
    refine ⟨⟨indent.width_pos, ?_, timeoutBound, limitBound, debounceBound, words, trim_trim path⟩,
      ⟨raw, same, ?_⟩, ?_, timeoutCounts, limitCounts, ⟨path, samePath, rfl⟩, debounceCounts⟩
    · cases indent.mode <;> simp
    · rw [trimmed, mode', modeOf_ok_iff.1 found]
    · rw [width']
      exact counts
  · intro h
    obtain ⟨raw, same, named⟩ := h.takesMode
    obtain ⟨path, samePath, trimmed⟩ := h.takesInterpreter
    have bound : (1 : Int) ≤ config.indent.width := by exact_mod_cast h.width
    have built : IndentConfig.ofWidth config.indent.mode config.indent.width = .ok config.indent :=
      dif_pos config.indent.width_pos
    simp only [ofSettings, bind_ok_iff]
    exact ⟨_, textSetting_ok_iff.2 ⟨raw, same, named, name_ne_nil _⟩, _, modeOf_ok_iff.2 rfl,
      _, integerSetting_ok_iff.2 ⟨h.takesWidth, bound⟩, _, built,
      _, integerSetting_ok_iff.2 ⟨h.takesTimeout, h.timeout⟩, _, integerSetting_ok_iff.2 ⟨h.takesCallLimit, h.callLimit⟩,
      _, textSetting_ok_iff.2 ⟨path, samePath, trimmed, h.nonblank⟩,
      _, integerSetting_ok_iff.2 ⟨h.takesDebounce, h.debounce⟩, rfl⟩

theorem judged_ofSettings (interpreter : Text) (settings : Settings) :
    Judged (fun key => Value.lookup key settings) (rules interpreter) (ofSettings interpreter settings) := by
  unfold ofSettings
  dsimp only
  rw [← bind_assoc]
  refine .bind (judges_mode ..) fun mode _ => ?_
  refine .bind (judges_integerSetting ..) fun width wide => ?_
  obtain ⟨indent, built, -⟩ := ofWidth_of_pos mode (integerSetting_ok_iff.1 wide).2
  rw [built]
  change Judged _ _ (integer settings "timeout_ms" (standard interpreter).timeout 1 >>= _)
  refine .bind (judges_integerSetting ..) fun timeout _ => ?_
  refine .bind (judges_integerSetting ..) fun callLimit _ => ?_
  refine .bind (judges_textSetting ..) fun program _ => ?_
  refine .bind (judges_integerSetting ..) fun debounce _ => ?_
  exact fun _ mem => absurd mem (List.not_mem_nil)

/-- Every table is answered. It gives settings within their bounds if each value is accepted; else the first one that is
not decides, and this is a finding unless that value is an infinity or cannot be shown. -/
theorem ofSettings_answers (interpreter : Text) (settings : Settings) :
    (∃ config, ofSettings interpreter settings = .ok config ∧ config.Valid ∧
      ∀ rule ∈ rules interpreter, rule.Accepts (rule.value fun key => Value.lookup key settings)) ∨
    ∃ error rule, ofSettings interpreter settings = .error error ∧
      FirstRefused (fun key => Value.lookup key settings) (rules interpreter) rule ∧
      rule.Refuses (rule.value fun key => Value.lookup key settings) error := by
  have judged := judged_ofSettings interpreter settings
  cases outcome : ofSettings interpreter settings with
  | ok config =>
    rw [outcome] at judged
    exact .inl ⟨config, rfl, (ofSettings_ok_iff.1 outcome).toValid, judged⟩
  | error error =>
    rw [outcome] at judged
    obtain ⟨rule, refused, refuses⟩ := judged
    exact .inr ⟨error, rule, rfl, refused, refuses⟩

theorem ofSettings_infinite_timeout :
    ofSettings "python" [("timeout_ms", .float (.infinite false))] = .error .infinite ∧
      ConfigError.infinite.isFinding = false :=
  ⟨rfl, rfl⟩

end RunConfig

/-! ## Sources of settings -/

def Value.isNull : Value → Bool
  | .null => true
  | _ => false

namespace Config

def override? (overrides : Settings) (key : Text) : Option Value :=
  (overrides.reverse.find? fun entry => entry.1 == key && !entry.2.isNull).map Prod.snd

def variableValue? (environment : Environment) (name : Text) : Option Value :=
  match environment.find? (·.1 = name) with
  | some entry => if entry.2 = [] then none else some (.str entry.2)
  | none => none

def exported? (environment : Environment) (key : Text) : Option Value :=
  if key = "timeout_ms" then variableValue? environment "CLEM_TIMEOUT_MS"
  else if key = "interpreter" then variableValue? environment "CLEM_INTERPRETER"
  else none

/-- The value of a key in the first source that has one: the caller, the environment, the file. -/
def given (file : Settings) (environment : Environment) (overrides : Settings) (key : Text) : Option Value :=
  (override? overrides key).or ((exported? environment key).or (Value.lookup key (table file "run")))

theorem lookup_insert (key other : Text) (value : Value) (entries : Settings) :
    Value.lookup key (Value.insert other value entries) =
      if other = key then some value else Value.lookup key entries := by
  induction entries with
  | nil => by_cases same : other = key <;> simp [Value.insert, Value.lookup, same]
  | cons entry entries ih =>
    rw [Value.insert]
    split
    · next same =>
      subst same
      by_cases same : entry.1 = key <;> simp [Value.lookup, same]
    · next differs =>
      simp only [Value.lookup, List.find?_cons] at ih ⊢
      split
      · next here =>
        have : other ≠ key := fun same => differs ((beq_iff_eq.1 here).trans same.symm)
        simp [this]
      · exact ih

theorem override?_append (first last : Settings) (key : Text) :
    override? (first ++ last) key = (override? last key).or (override? first key) := by
  simp only [override?, List.reverse_append, List.find?_append, Option.map_or]

theorem lookup_merge (key : Text) (overrides defaults : Settings) :
    Value.lookup key (merge overrides defaults) = (override? overrides key).or (Value.lookup key defaults) := by
  induction overrides generalizing defaults with
  | nil => rfl
  | cons entry overrides ih =>
    obtain ⟨other, value⟩ := entry
    have first : Value.lookup key (merge [(other, value)] defaults) =
        (override? [(other, value)] key).or (Value.lookup key defaults) := by
      cases value with
      | null => simp [merge, override?, Value.isNull]
      | _ =>
        change Value.lookup key (Value.insert ..) = _
        rw [lookup_insert]
        by_cases same : other = key <;> simp [override?, Value.isNull, same]
    rw [← List.singleton_append, override?_append, Option.or_assoc, ← first, ← ih]
    rfl

theorem override?_fromVariable (environment : Environment) (key name other : Text) :
    override? (fromVariable environment key name) other =
      if other = key then variableValue? environment name else none := by
  unfold fromVariable variableValue?
  cases environment.find? (·.1 = name) with
  | none => simp [override?]
  | some entry =>
    by_cases empty : entry.2 = []
    · simp [override?, empty]
    · by_cases same : other = key
      · simp [override?, empty, same, Value.isNull]
      · simp [override?, empty, same, Ne.symm same]

theorem override?_fromEnvironment (environment : Environment) (key : Text) :
    override? (fromEnvironment environment) key = exported? environment key := by
  rw [fromEnvironment, override?_append, override?_fromVariable, override?_fromVariable, exported?]
  by_cases time : key = "timeout_ms"
  · have : key ≠ "interpreter" := by
      rw [time]
      decide
    rw [if_pos time, if_pos time, if_neg this, Option.none_or]
  · rw [if_neg time, if_neg time, Option.or_none]

theorem lookup_runSettings (file : Settings) (environment : Environment) (overrides : Settings) (key : Text) :
    Value.lookup key (runSettings file environment overrides) = given file environment overrides key := by
  rw [runSettings, lookup_merge, lookup_merge, override?_fromEnvironment, given]

theorem ofSettings_congr
    (same : ∀ rule ∈ RunConfig.rules interpreter, Value.lookup rule.key settings = Value.lookup rule.key settings') :
    RunConfig.ofSettings interpreter settings = RunConfig.ofSettings interpreter settings' := by
  simp only [RunConfig.rules, List.forall_mem_cons] at same
  obtain ⟨mode, width, timeout, callLimit, program, debounce, -⟩ := same
  have integer (key : Text) (default minimum : Int) (equal : Value.lookup key settings = Value.lookup key settings') :
      RunConfig.integer settings key default minimum = RunConfig.integer settings' key default minimum := by
    rw [RunConfig.integer, RunConfig.setting, equal]
    rfl
  have text (key default : Text) (equal : Value.lookup key settings = Value.lookup key settings') :
      RunConfig.text settings key default = RunConfig.text settings' key default := by
    rw [RunConfig.text, RunConfig.setting, equal]
    rfl
  rw [RunConfig.ofSettings, RunConfig.ofSettings, text "indent_mode" _ mode, text "interpreter" _ program,
    integer "indent_width" _ _ width, integer "timeout_ms" _ _ timeout, integer "call_limit" _ _ callLimit,
    integer "debounce_ms" _ _ debounce]

/-- Each setting of a run is what the value in the first source that has one stands for, and nothing else counts: neither
a value that another one hides nor a key without a rule. -/
theorem run_precedence (interpreter : Text) (file : Settings) (environment : Environment) (overrides : Settings) :
    (∀ config, run interpreter file environment overrides = .ok config ↔
      config.Takes interpreter (given file environment overrides)) ∧
    ∀ file' environment' overrides',
      (∀ rule ∈ RunConfig.rules interpreter,
        given file environment overrides rule.key = given file' environment' overrides' rule.key) →
      run interpreter file environment overrides = run interpreter file' environment' overrides' := by
  constructor
  · intro config
    have known := funext (lookup_runSettings file environment overrides)
    rw [← known, ← RunConfig.ofSettings_ok_iff, run]
    cases RunConfig.ofSettings interpreter (runSettings file environment overrides) <;> simp [Except.mapError]
  · intro file' environment' overrides' same
    rw [run, run, ofSettings_congr]
    intro rule mem
    rw [lookup_runSettings, lookup_runSettings, same rule mem]

theorem run_precedence_hidden :
    let file : Settings := [("run", .table [("timeout_ms", .str "soon"), ("color", .null)])]
    let overrides : Settings := [("timeout_ms", .int 7), ("call_limit", .null)]
    (∀ rule ∈ RunConfig.rules "python",
      given file [] overrides rule.key = given [] [] [("timeout_ms", .int 7)] rule.key) ∧
      run "python" file [] overrides = run "python" [] [] [("timeout_ms", .int 7)] := by
  intro file overrides
  have same : ∀ rule ∈ RunConfig.rules "python",
      given file [] overrides rule.key = given [] [] [("timeout_ms", .int 7)] rule.key := by
    intro rule mem
    have other : "color".toList ≠ rule.key := by
      revert rule
      decide +kernel
    have unset : exported? [] rule.key = none := by
      have empty (name : Text) : variableValue? [] name = none := rfl
      rw [exported?, empty, empty, ite_self, ite_self]
    simp only [given, unset, file, overrides]
    generalize rule.key = key at other ⊢
    generalize "timeout_ms".toList = time, "call_limit".toList = limit, "run".toList = part, "color".toList = color at other ⊢
    by_cases same : time = key
    · simp [override?, same, Value.isNull]
    · simp [override?, table, Value.lookup, same, other, Value.isNull]
  exact ⟨same, (run_precedence "python" file [] overrides).2 [] [] _ same⟩

end Config

end LineProbe
