import LineProbe.Proofs.DigitRuns
import LineProbe.Proofs.Fusion

/-!
# Runs that are stopped

A run that takes too long is reported as an error on the line behind the last one that was printed.
-/

namespace LineProbe

open Text

/-! ## Parts of payloads -/

def OneLine (text : Text) : Prop :=
  ∀ c ∈ text, c ≠ '\r' ∧ c ≠ '\n'

instance (text : Text) : Decidable (OneLine text) :=
  inferInstanceAs (Decidable (∀ c ∈ text, c ≠ '\r' ∧ c ≠ '\n'))

variable {chunks : List Chunk}

theorem prefix_encodePayload (plain : OneLine part) (starts : part <+: text) : part <+: encodePayload text := by
  obtain ⟨rest, rfl⟩ := starts
  induction part with
  | nil => exact List.nil_prefix
  | cons c part ih =>
    obtain ⟨here, later⟩ := List.forall_mem_cons.1 plain
    have first : encodePayload (c :: (part ++ rest)) = c :: encodePayload (part ++ rest) := by
      rw [encodePayload, if_neg here.2]
      rintro _ rfl
      exact absurd rfl here.1
    rw [List.cons_append, first, List.prefix_cons_inj]
    exact ih later

theorem OneLine.infix_tail (plain : OneLine part) (ends : c = '\r' ∨ c = '\n') (inside : part <:+: c :: rest) :
    part <:+: rest := by
  rcases List.infix_cons_iff.1 inside with starts | later
  · cases part with
    | nil => exact List.nil_infix
    | cons d part =>
      obtain ⟨rfl, -⟩ := List.cons_prefix_cons.1 starts
      obtain ⟨notReturn, notNewline⟩ := plain d List.mem_cons_self
      rcases ends with rfl | rfl
      · exact absurd rfl notReturn
      · exact absurd rfl notNewline
  · exact later

theorem infix_encodePayload (plain : OneLine part) (inside : part <:+: text) : part <:+: encodePayload text := by
  fun_induction encodePayload text with
  | case1 => exact inside
  -- The part cannot reach into a line end, so it is behind it.
  | case2 rest ih =>
    have behind := ih (plain.infix_tail (.inr rfl) (plain.infix_tail (.inl rfl) inside))
    exact behind.trans (List.suffix_append ['\\', 'n'] _).isInfix
  | case3 rest notEnd ih =>
    have behind := ih (plain.infix_tail (.inr rfl) inside)
    exact behind.trans (List.suffix_append ['\\', 'n'] _).isInfix
  | case4 c rest notEnd notNewline ih =>
    rcases List.infix_cons_iff.1 inside with starts | later
    · have whole := (prefix_encodePayload plain starts).isInfix
      rwa [encodePayload, if_neg notNewline] at whole
      exact notEnd
    · exact (ih later).trans (List.suffix_cons c _).isInfix

/-! ## The chunk of a stopped run -/

def stopMessage (ms : Int) : Text :=
  "Timed out after " ++ ofInt ms ++ " ms"

theorem oneLine_ofNat (n : Nat) : OneLine (ofNat n) := by
  intro c mem
  have digit := isDigit_of_mem_ofNat mem
  constructor
  · rintro rfl
    cases digit
  · rintro rfl
    cases digit

theorem oneLine_ofInt (n : Int) : OneLine (ofInt n) := by
  cases n with
  | ofNat n => exact oneLine_ofNat n
  | negSucc n => exact List.forall_mem_cons.2 ⟨by decide, oneLine_ofNat _⟩

theorem oneLine_stopMessage (ms : Int) : OneLine (stopMessage ms) := by
  have first : OneLine ("Timed out after " : Text) := by decide
  have last : OneLine (" ms" : Text) := by decide
  exact List.forall_mem_append.2 ⟨List.forall_mem_append.2 ⟨first, oneLine_ofInt ms⟩, last⟩

theorem stopMessage_ne_nil (ms : Int) : stopMessage ms ≠ [] :=
  List.append_ne_nil_of_right_ne_nil _ (by decide)

theorem trim_stopMessage (ms : Int) : trim (stopMessage ms) = stopMessage ms := by
  have left : trimLeft (stopMessage ms) = stopMessage ms := by
    apply trimLeft_of_head
    rintro c ⟨⟩
    decide
  have right := trimRight_append_cons ("Timed out after " ++ ofInt ms ++ " m") [] (show isBlankChar 's' = false by decide)
  have split : stopMessage ms = "Timed out after " ++ ofInt ms ++ " m" ++ ['s'] := by
    rw [List.append_assoc _ _ ['s']]
    rfl
  rw [trim, left, split, right]
  rfl

theorem readTag?_append {digits : Text} (nonempty : digits ≠ []) (all : ∀ c ∈ digits, isDigitChar c) (message : Text) :
    readTag? (digits ++ ':' :: message) = some (digitsValue digits, message) := by
  have tagged : startsWithTag (digits ++ ':' :: message) := startsWithTag_iff.2 ⟨_, _, rfl, nonempty, all⟩
  rw [readTag?, if_pos tagged, tagDigits_append all, List.drop_length_add_append, List.drop_one, List.tail_cons]

def stopAt (line : Nat) (ms : Int) : Chunk :=
  ⟨ofNat line ++ ':' :: stopMessage ms, true⟩

theorem stopAt_eq (line : Nat) (ms : Int) :
    stopAt line ms = ⟨ofInt line ++ ":Timed out after " ++ ofInt ms ++ " ms", true⟩ := by
  have colon : (":Timed out after " : Text) = ':' :: "Timed out after " := by decide
  have natural : ofInt line = ofNat line := rfl
  have message : stopMessage ms = "Timed out after " ++ ofInt ms ++ " ms" := rfl
  simp only [stopAt, message, List.append_assoc, colon, List.cons_append, natural]

theorem untag?_stopAt (line : Nat) (ms : Int) : (stopAt line ms).untag? = some ⟨line, stopMessage ms, true⟩ := by
  have tag := @readTag?_append (ofNat line) Nat.toDigits_ne_nil (fun c => Emission.isDigitChar_of_mem_ofNat) (stopMessage ms)
  rw [Chunk.untag?, stopAt, tag, Option.map_some, trim_stopMessage, digitsValue_ofNat]

theorem mem_countedAt (mem : stopAt line ms ∈ chunks) : ⟨line, stopMessage ms, true⟩ ∈ countedAt chunks line := by
  rw [countedAt, List.mem_filter, List.mem_filterMap, unrepeated_eq]
  exact ⟨⟨stopAt line ms, List.mem_eraseDups.2 mem, untag?_stopAt line ms⟩, beq_self_eq_true _⟩

theorem mem_payloadsAt (mem : stopAt line ms ∈ chunks) : stopMessage ms ∈ payloadsAt chunks line := by
  rw [payloadsAt, List.mem_filter]
  exact ⟨List.mem_map_of_mem (mem_countedAt mem), decide_eq_true (stopMessage_ne_nil ms)⟩

/-! ## Results of stopped runs -/

/-- Results that say on a line that the run was stopped. Up to there, they stand at the positions of their lines. -/
structure StopsAt (results : List LineResult) (line : Nat) (ms : Int) : Prop where
  entry : ∃ value, results.filter (fun result => result.line == (line : Int)) = [⟨line, value, true⟩] ∧
    stopMessage ms <:+: value
  dense : ∀ k ≤ line, results[k]?.map LineResult.line = some (k : Int)

theorem Ascending.filter_line (ascending : Ascending results) (mem : result ∈ results) :
    results.filter (fun other => other.line == result.line) = [result] := by
  have only : ∀ other, other ∈ results.filter (fun other => other.line == result.line) ↔ other ∈ [result] := by
    intro other
    rw [List.mem_filter, List.mem_singleton, beq_iff_eq]
    constructor
    · rintro ⟨given, same⟩
      exact ascending.eq_of_line given mem same
    · rintro rfl
      exact ⟨mem, rfl⟩
  exact (ascending.filter _).eq_of_mem_iff (List.pairwise_singleton _ _) only

theorem Fused.stopsAt (fused : Fused chunks results) (mem : stopAt line ms ∈ chunks) :
    StopsAt (backfill results) line ms := by
  have shown := mem_payloadsAt mem
  have nonneg : ∀ result ∈ results, 0 ≤ result.line := by
    intro result mem
    obtain ⟨n, same, -⟩ := exists_line_of_payloadsAt ((fused.lines _).1 ⟨result, mem, rfl⟩)
    rw [same]
    exact Int.natCast_nonneg n
  have filled := backfilled_backfill nonneg fused.ascending
  obtain ⟨result, given, here⟩ := (fused.lines line).2 (List.ne_nil_of_mem shown)
  have isError := (fused.isError result given).2 ⟨_, here ▸ mem_countedAt mem, rfl⟩
  have value := fused.value result given
  rw [← encodePayload_eq, here] at value
  refine ⟨⟨result.value, ?_, ?_⟩, fun k below => filled.dense result given isError k (by omega)⟩
  · have only := filled.ascending.filter_line (filled.kept.subset given)
    rw [here] at only
    rw [only, ← here, ← isError]
  · rw [value]
    exact infix_encodePayload (oneLine_stopMessage ms) (infix_join _ shown)

/-! ## Whole runs -/

theorem Text.writeInteger_of_long (long : ¬Writable n) : writeInteger n = .error .writing := by
  rw [writeInteger, if_pos (Nat.lt_of_not_le (mt length_ofNat_le_iff.1 long))]

namespace Collector

theorem timeoutChunk_of_long (readable : ∀ chunk ∈ chunks, TagReadable chunk.text)
    (long : ¬(Writable (lineBehind chunks) ∧ Writable ms)) : timeoutChunk chunks ms = .error .writing := by
  have last := @firstTag_eq chunks.reverse (by simpa using readable)
  have opened : timeoutChunk chunks ms = (do
      let line ← writeInteger (lineBehind chunks)
      let time ← writeInteger ms
      return ⟨line ++ ":Timed out after " ++ time ++ " ms", true⟩) := by
    rw [timeoutChunk, last]
    rfl
  rw [opened]
  by_cases line : Writable (lineBehind chunks)
  · rw [writeInteger_ok_iff.2 ⟨line, rfl⟩, writeInteger_of_long fun time => long ⟨line, time⟩]
    rfl
  · rw [writeInteger_of_long line]
    rfl

theorem stopsAt_finish {collector : Collector} (running : collector.results = none) {code : Option Int}
    {report : List LineResult × Collector} (finished : collector.finish false code = .ok report) {ms : Int}
    (stopped : collector.timeout = some ms) : StopsAt report.1 (lineBehind collector.printed) ms := by
  rw [finish_eq running] at finished
  obtain ⟨stop, stops, finished⟩ := bind_ok_iff.1 finished
  obtain ⟨error, -, finished⟩ := bind_ok_iff.1 finished
  obtain ⟨results, fuses, same⟩ := bind_ok_iff.1 finished
  cases same
  rw [stopChunk, stopped] at stops
  obtain ⟨chunk, made, rfl⟩ := map_ok_iff.1 stops
  have readable := fuse_ok_iff.1 ⟨results, fuses⟩
  obtain ⟨results, fuses', fused⟩ := fuse_fused readable
  cases fuses.symm.trans fuses'
  -- All tags were read in fusing, so those before the stop can be read for its line.
  have tags : ∀ chunk ∈ collector.printed, TagReadable chunk.text :=
    fun chunk mem => readable chunk (List.mem_append_left _ (List.mem_append_left _ mem))
  obtain ⟨-, -, rfl⟩ := (timeoutChunk_ok_iff tags).1 made
  rw [← stopAt_eq] at fused
  exact fused.stopsAt (List.mem_append_left _ (List.mem_append_right _ List.mem_cons_self))

/-- The line on which a run is said to be stopped: the one behind the last tag of its whole output. -/
def stopLine (notices : List Notice) : Nat :=
  lineBehind (outputChunks (textOf notices .output))

theorem collect_eq {start : Collector} (started : Collector.start program = .ok start) (notices : List Notice)
    (code : Option Int) : collect program notices code = ((start.after notices).finish false code).map Prod.fst := by
  obtain ⟨running, untold⟩ := told_start started
  rw [collect, started, ← foldl_heed running untold]
  cases finished : (notices.foldl heed start).finish false code with
  | error cause => simp only [bind, Except.bind, finished, Except.map]
  | ok report => simp only [bind, Except.bind, finished, Except.map, pure, Except.pure]

section

variable {program : Option Runnable} (legible : ∀ runnable ∈ program, runnable.Legible)
  (short : ∀ pipe, ShortRuns (textOf notices pipe)) (stopped : timeOf notices = some ms) (code : Option Int)

include legible short stopped

theorem exists_collect_of_writable (line : Writable (stopLine notices)) (time : Writable ms) :
    ∃ results, collect program notices code = .ok results ∧ StopsAt results (stopLine notices) ms := by
  obtain ⟨start, started⟩ := exists_start legible
  obtain ⟨running, -⟩ := told_start started
  have fresh := fresh_start started
  have writable (other : Int) (same : timeOf notices = some other) : Writable (stopLine notices) ∧ Writable other := by
    cases stopped.symm.trans same
    exact ⟨line, time⟩
  have readable := legible_after fresh legible short writable code
  obtain ⟨report, finished⟩ := (@finish_ok_iff (start.after notices) running code).2 readable
  refine ⟨report.1, (collect_eq started notices code).trans (map_ok_iff.2 ⟨report, finished, rfl⟩), ?_⟩
  rw [stopLine, ← printed_after start]
  exact @stopsAt_finish (start.after notices) running code report finished ms ((fresh.timeout_after notices).trans stopped)

theorem collect_of_long_stop (long : ¬(Writable (stopLine notices) ∧ Writable ms)) :
    collect program notices code = .error .writing := by
  obtain ⟨start, started⟩ := exists_start legible
  obtain ⟨running, -⟩ := told_start started
  have unwritten : (start.after notices).stopChunk = .error .writing := by
    rw [stopChunk, (fresh_start started).timeout_after, stopped, printed_after]
    dsimp only
    rw [timeoutChunk_of_long (short .output).tagReadable_outputChunks long]
    rfl
  rw [collect_eq started, @finish_eq (start.after notices) running, unwritten]
  rfl

end

/-- A run that is stopped has the error for it on its line, unless a number of the error has too many digits. -/
theorem stopped_entry (program : Option Runnable) (legible : ∀ runnable ∈ program, runnable.Legible)
    (notices : List Notice) (short : ∀ pipe, ShortRuns (textOf notices pipe)) (code : Option Int) (ms : Int)
    (stopped : timeOf notices = some ms) :
    (Writable (stopLine notices) ∧ Writable ms →
      ∃ results, collect program notices code = .ok results ∧ StopsAt results (stopLine notices) ms) ∧
      (¬(Writable (stopLine notices) ∧ Writable ms) → collect program notices code = .error .writing) :=
  ⟨fun numbers => exists_collect_of_writable legible short stopped code numbers.1 numbers.2,
    collect_of_long_stop legible short stopped code⟩

theorem stopped_entry_sample :
    ∃ results, collect (some (.bare "a = 1\nprint(\"0:\" + str(a))"))
        [.text .output "1:a\n0", .timedOut 250, .text .output ":b\n", .text .errors "ClemExcep1:stop\n"] none =
          .ok results ∧
      StopsAt results 1 250 := by
  let notices : List Notice :=
    [.text .output "1:a\n0", .timedOut 250, .text .output ":b\n", .text .errors "ClemExcep1:stop\n"]
  have legible : ∀ runnable ∈ some (Runnable.bare "a = 1\nprint(\"0:\" + str(a))"), runnable.Legible := by
    rintro _ ⟨⟩
    exact shortRuns_of_length (by decide +kernel)
  have short (pipe : Pipe) : ShortRuns (textOf notices pipe) := by
    cases pipe
    · exact shortRuns_of_length (by decide +kernel)
    · exact shortRuns_of_length (by decide +kernel)
  have line : stopLine notices = 1 := by decide +kernel
  have bounds : (1 : Int).natAbs < 10 ^ digitLimit ∧ (250 : Int).natAbs < 10 ^ digitLimit := by decide +kernel
  have entry := (stopped_entry _ legible notices short none 250 rfl).1
  rw [line] at entry
  exact entry bounds

/-! ### Numbers with too many digits -/

def nines (count : Nat) : Text :=
  List.replicate count '9' ++ [':']

theorem isDigitChar_of_mem_replicate (h : isDigitChar digit) (mem : c ∈ List.replicate count digit) :
    isDigitChar c := by
  rwa [List.eq_of_mem_replicate mem]

theorem shortRuns_nines (bound : count ≤ digitLimit) : ShortRuns (nines count) := by
  intro run held all
  have digits : (nines count).filter isDigitChar = List.replicate count '9' := by
    rw [nines, List.filter_append, List.filter_eq_self.2 fun c => isDigitChar_of_mem_replicate (by decide)]
    exact List.append_nil _
  have kept := (held.sublist.filter isDigitChar).length_le
  rw [List.filter_eq_self.2 all, digits, List.length_replicate] at kept
  exact Nat.le_trans kept bound

theorem digitsValue_nines (count : Nat) : digitsValue (List.replicate count '9') + 1 = 10 ^ count := by
  induction count with
  | zero => rfl
  | succ count ih =>
    have next : digitsValue (List.replicate count '9' ++ ['9']) = 10 * digitsValue (List.replicate count '9') + 9 := by
      rw [digitsValue, List.foldl_append]
      rfl
    rw [List.replicate_succ', next, Nat.pow_succ, ← ih]
    omega

theorem outputChunks_nines (count : Nat) : outputChunks (nines count) = [⟨nines count, false⟩] := by
  have single : splitTagged (nines count) = [nines count] := by
    apply splitTagged_of_holdsTag
    rw [nines, holdsTag_append_of_not_mem (by simp [List.mem_replicate])]
    decide
  have last : Splitter.withoutLineEnd (nines count) = nines count := by
    rw [Splitter.withoutLineEnd, nines, if_neg (by simp [endsWithChar])]
  have nonempty : nines count ≠ [] := by simp [nines]
  rw [outputChunks, Splitter.chunks_eq, List.flatten_singleton, single, Splitter.after, single, Splitter.flush]
  simp [last, nonempty]

theorem textOf_nines (count : Nat) (ms : Int) :
    textOf [.text .output (nines count), .timedOut ms] .output = nines count := by
  simp [textOf, Notice.through]

theorem stopLine_nines (positive : 0 < count) (ms : Int) :
    stopLine [.text .output (nines count), .timedOut ms] = 10 ^ count := by
  have all : ∀ c ∈ List.replicate count '9', isDigitChar c := fun c => isDigitChar_of_mem_replicate (by decide)
  have nonempty : List.replicate count '9' ≠ [] := by simpa using Nat.ne_of_gt positive
  have tag : readTag? (nines count) = some (digitsValue (List.replicate count '9'), []) := readTag?_append nonempty all []
  rw [stopLine, textOf_nines, outputChunks_nines, lineBehind, List.reverse_singleton, List.findSome?_singleton, tag]
  exact digitsValue_nines count

def longProbe (count : Nat) : Text :=
  "print(\"".toList ++ (List.replicate count '1' ++ ':' :: "\")")

theorem nearestDigits?_longProbe (positive : 0 < count) :
    LineMap.nearestDigits? (splitNewlines (longProbe count)) 0 = some (List.replicate count '1') := by
  have all : ∀ c ∈ List.replicate count '1', isDigitChar c := fun c => isDigitChar_of_mem_replicate (by decide)
  have nonempty : List.replicate count '1' ≠ [] := by simpa using Nat.ne_of_gt positive
  have unended : '\n' ∉ longProbe count := by
    intro mem
    rcases List.mem_append.1 mem with lead | mem
    · exact absurd lead (by decide)
    rcases List.mem_append.1 mem with digit | rest
    · exact absurd (List.eq_of_mem_replicate digit) (by decide)
    · exact absurd rest (by decide)
  have digits : Probe.lineDigits? (longProbe count) = some (List.replicate count '1') := by
    refine Probe.lineDigits?_iff.2 ⟨nonempty, all, "\")", trimLeft_of_head ?_⟩
    rintro c ⟨⟩
    decide
  rw [splitNewlines, splitAtChar_of_not_mem unended, LineMap.nearestDigits?, if_neg (Int.lt_irrefl 0)]
  exact (List.findSome?_singleton ..).trans digits

theorem not_legible_longProbe (long : digitLimit < count) {start : Collector}
    (started : Collector.start (some (.generated ⟨longProbe count, ⟨[]⟩⟩)) = .ok start) :
    ¬(start.after [.timedOut 5, .text .errors "Error: line 1"]).Legible none := by
  intro legible
  have mapped : start.lineMap = some ⟨[]⟩ := by
    cases started
    rfl
  have lines : start.programLines = splitNewlines (longProbe count) := (fresh_start started).lines
  have errors : (start.after [.timedOut 5, .text .errors "Error: line 1"]).errors =
      textOf [.timedOut 5, .text .errors "Error: line 1"] .errors := rfl
  have text : textOf [.timedOut 5, .text .errors "Error: line 1"] .errors = "Error: line 1" := by decide +kernel
  have trace := legible.errors.trace
  rw [errors, text] at trace
  have traceable := trace (by decide +kernel) (by decide +kernel) (by decide +kernel) "1" (by decide +kernel) _ mapped
  have nearest : LineMap.nearestDigits? start.programLines (digitsValue "1" - 1) = some (List.replicate count '1') := by
    rw [lines, show (digitsValue "1" : Int) - 1 = 0 by decide +kernel]
    exact nearestDigits?_longProbe (Nat.zero_lt_of_lt long)
  have short : Readable (List.replicate count '1') := traceable.nearest rfl _ nearest
  rw [Readable, List.length_replicate] at short
  omega

/-- Output without long runs of digits, after which a run is stopped on a line with one digit more, and error output
that leads to a probe with one digit too many. -/
theorem stopped_without_entry :
    ShortRuns (nines digitLimit) ∧
      collect none [.text .output (nines digitLimit), .timedOut 5] none = .error .writing ∧
      ¬∃ results, collect (some (.generated ⟨longProbe (digitLimit + 1), ⟨[]⟩⟩))
        [.timedOut 5, .text .errors "Error: line 1"] none = .ok results := by
  have short : ShortRuns (nines digitLimit) := shortRuns_nines (Nat.le_refl _)
  refine ⟨short, collect_of_long_stop (by simp) (fun pipe => ?_) rfl none ?_, ?_⟩
  · cases pipe with
    | output =>
      rw [textOf_nines]
      exact short
    | errors => exact shortRuns_of_length (Nat.zero_le _)
  · rw [stopLine_nines (by decide)]
    rintro ⟨line, -⟩
    exact Nat.lt_irrefl _ line
  · rintro ⟨results, collected⟩
    obtain ⟨start, started, -⟩ := bind_ok_iff.1 collected
    rw [collect_eq started] at collected
    obtain ⟨report, finished, -⟩ := map_ok_iff.1 collected
    obtain ⟨running, -⟩ := told_start started
    apply not_legible_longProbe (Nat.lt_succ_self _) started
    exact (@finish_ok_iff (start.after _) running none).1 ⟨report, finished⟩

end Collector

end LineProbe
