import LineProbe.Proofs.Delivery
import Mathlib.Algebra.Group.Nat.Defs
import Mathlib.Data.List.Induction

/-!
# Runs with numbers that are too long

Numbers of more than 4300 digits are neither read nor written.
-/

namespace LineProbe

/-! ## Numbers -/

def Writable (n : Int) : Prop :=
  n.natAbs < 10 ^ digitLimit

def Readable (digits : Text) : Prop :=
  digits.length ≤ digitLimit

/-- A text whose tag, if it has one, is short enough to be read. -/
def TagReadable (text : Text) : Prop :=
  startsWithTag text = true → Readable (tagDigits text)

/-- A line whose line number, if it is a probe, is short enough to be read. -/
def ProbeReadable (line : Text) : Prop :=
  ∀ digits, Probe.lineDigits? line = some digits → Readable digits

variable {chunks : List Chunk} {collector : Collector}

namespace Text

theorem length_ofNat_le_iff : (ofNat n).length ≤ digitLimit ↔ n < 10 ^ digitLimit :=
  Nat.length_toDigits_le_iff (by decide) (by decide)

theorem writeInteger_ok_iff : writeInteger n = .ok text ↔ Writable n ∧ text = ofInt n := by
  rw [writeInteger, Writable, ← length_ofNat_le_iff]
  split
  · next long => simp [Nat.not_le.2 long]
  · next short => simp [Nat.not_lt.1 short, eq_comm]

theorem readDigits_ok_iff : readDigits digits = .ok n ↔ Readable digits ∧ n = digitsValue digits := by
  rw [readDigits, Readable]
  split
  · next long => simp [Nat.not_le.2 long]
  · next short => simp [Nat.not_lt.1 short, eq_comm]

theorem digitValue?_lt (h : digitValue? c = some value) : value < 10 := by
  rw [digitValue?] at h
  split at h
  · split at h
    · next digit =>
      have range := Char.isDigit_iff_toNat.1 digit
      have zero : '0'.toNat = 48 := rfl
      have nine : '9'.toNat = 57 := rfl
      obtain rfl := Option.some.inj h
      omega
    · cases h
  · obtain ⟨first, found, rfl⟩ := Option.map_eq_some_iff.1 h
    have range := List.find?_some found
    simp only [Bool.and_eq_true, decide_eq_true_eq] at range
    omega

theorem digitsValue_lt (digits : Text) : digitsValue digits < 10 ^ digits.length := by
  have step (digits : Text) (value : Nat) :
      digits.foldl (fun value c => 10 * value + (digitValue? c).getD 0) value < (value + 1) * 10 ^ digits.length := by
    induction digits generalizing value with
    | nil => simp
    | cons c digits ih =>
      have digit : (digitValue? c).getD 0 < 10 := by
        cases found : digitValue? c with
        | none => simp
        | some value => exact digitValue?_lt found
      calc _ < (10 * value + (digitValue? c).getD 0 + 1) * 10 ^ digits.length := ih _
        _ ≤ ((value + 1) * 10) * 10 ^ digits.length := Nat.mul_le_mul_right _ (by omega)
        _ = (value + 1) * 10 ^ (c :: digits).length := by
          rw [List.length_cons, Nat.pow_succ, Nat.mul_assoc, Nat.mul_comm 10]
  simpa [digitsValue] using step digits 0

theorem writable_digitsValue (h : Readable digits) : Writable (digitsValue digits) := by
  rw [Writable, Int.natAbs_natCast]
  exact Nat.lt_of_lt_of_le (digitsValue_lt digits) (Nat.pow_le_pow_right (by decide) h)

end Text

/-! ## Tags -/

theorem bind_ok_iff {ε α β : Type} {first : Except ε α} {next : α → Except ε β} {result : β} :
    (first >>= next) = .ok result ↔ ∃ value, first = .ok value ∧ next value = .ok result := by
  cases first with
  | error | ok => simp [bind, Except.bind]

theorem map_ok_iff {ε α β : Type} {first : Except ε α} {f : α → β} {result : β} :
    first.map f = .ok result ↔ ∃ value, first = .ok value ∧ f value = result := by
  cases first <;> simp [Except.map]

def readTag? (text : Text) : Option (Nat × Text) :=
  if startsWithTag text then
    some (Text.digitsValue (tagDigits text), text.drop ((tagDigits text).length + 1))
  else none

theorem parseTag_ok_iff : parseTag text = .ok tag ↔ TagReadable text ∧ tag = readTag? text := by
  rw [parseTag, TagReadable, readTag?]
  split
  · next tagged =>
    rw [bind_ok_iff]
    simp only [Text.readDigits_ok_iff, pure, Except.pure, Except.ok.injEq, tagged, forall_const]
    constructor
    · rintro ⟨line, ⟨short, rfl⟩, rfl⟩
      exact ⟨short, rfl⟩
    · rintro ⟨short, rfl⟩
      exact ⟨_, ⟨short, rfl⟩, rfl⟩
  · next untagged => simp [untagged, eq_comm]

theorem exists_parseTag (h : TagReadable text) : parseTag text = .ok (readTag? text) :=
  parseTag_ok_iff.2 ⟨h, rfl⟩

namespace Fusion

variable {fusion : Fusion}

theorem add_ok_iff : fusion.add chunk = .ok next ↔ chunk ∈ fusion.seen ∧ next = fusion ∨
    chunk ∉ fusion.seen ∧ TagReadable chunk.text ∧ next = fusion.note chunk (readTag? chunk.text) := by
  rw [add]
  split
  · next seen => simp [seen, eq_comm]
  · next fresh =>
    simp only [fresh, false_and, not_false_eq_true, true_and, false_or, bind_ok_iff, parseTag_ok_iff]
    constructor
    · rintro ⟨_, ⟨readable, rfl⟩, made⟩
      cases made
      exact ⟨readable, rfl⟩
    · rintro ⟨readable, rfl⟩
      exact ⟨_, ⟨readable, rfl⟩, rfl⟩

theorem ofChunks_concat (chunks : List Chunk) (chunk : Chunk) :
    ofChunks (chunks ++ [chunk]) = ofChunks chunks >>= fun fusion => fusion.add chunk := by
  simp [ofChunks]

theorem seen_note (fusion : Fusion) (chunk : Chunk) (tag : Option (Nat × Text)) :
    (fusion.note chunk tag).seen = chunk :: fusion.seen := by
  cases tag <;> rfl

theorem mem_seen_iff (h : ofChunks chunks = .ok fusion) (chunk : Chunk) : chunk ∈ fusion.seen ↔ chunk ∈ chunks := by
  induction chunks using List.reverseRecOn generalizing fusion chunk with
  | nil =>
    cases h
    rfl
  | append_singleton chunks last ih =>
    rw [ofChunks_concat, bind_ok_iff] at h
    obtain ⟨before, made, added⟩ := h
    rw [List.mem_append, List.mem_singleton, ← ih made chunk]
    rcases add_ok_iff.1 added with ⟨seen, rfl⟩ | ⟨-, -, rfl⟩
    · exact ⟨.inl, fun h => h.elim id fun same => same ▸ seen⟩
    · rw [seen_note, List.mem_cons, or_comm]

theorem ofChunks_ok_iff : (∃ fusion, ofChunks chunks = .ok fusion) ↔ ∀ chunk ∈ chunks, TagReadable chunk.text := by
  induction chunks using List.reverseRecOn with
  | nil => simp [ofChunks, pure, Except.pure]
  | append_singleton chunks last ih =>
    rw [List.forall_mem_append, List.forall_mem_singleton, ← ih, ofChunks_concat]
    simp only [bind_ok_iff, add_ok_iff]
    constructor
    · rintro ⟨next, before, made, ⟨seen, -⟩ | ⟨-, readable, -⟩⟩
      · exact ⟨⟨before, made⟩, ih.1 ⟨before, made⟩ last ((mem_seen_iff made last).1 seen)⟩
      · exact ⟨⟨before, made⟩, readable⟩
    · rintro ⟨⟨before, made⟩, readable⟩
      by_cases seen : last ∈ before.seen
      · exact ⟨before, before, made, .inl ⟨seen, rfl⟩⟩
      · exact ⟨_, before, made, .inr ⟨seen, readable, rfl⟩⟩

end Fusion

theorem fuse_ok_iff : (∃ results, fuse chunks = .ok results) ↔ ∀ chunk ∈ chunks, TagReadable chunk.text := by
  rw [← Fusion.ofChunks_ok_iff]
  simp only [fuse, bind_ok_iff]
  constructor
  · rintro ⟨_, fusion, made, -⟩
    exact ⟨fusion, made⟩
  · rintro ⟨fusion, made⟩
    exact ⟨_, fusion, made, rfl⟩

theorem tagReadable_ofInt {line : Int} (h : Writable line) (message : Text) :
    TagReadable (Text.ofInt line ++ ':' :: message) := by
  cases line with
  | ofNat line =>
    intro _
    rw [Text.ofInt, tagDigits_append fun c mem => Emission.isDigitChar_of_mem_ofNat mem]
    exact Text.length_ofNat_le_iff.2 h
  | negSucc line =>
    intro tagged
    cases tagged

/-! ## Runs that are stopped -/

def lineBehind (chunks : List Chunk) : Nat :=
  ((chunks.reverse.findSome? fun chunk => (readTag? chunk.text).map Prod.fst).map (· + 1)).getD 0

namespace Collector

theorem firstTag_eq (h : ∀ chunk ∈ chunks, TagReadable chunk.text) :
    firstTag chunks = .ok (chunks.findSome? fun chunk => (readTag? chunk.text).map Prod.fst) := by
  induction chunks with
  | nil => rfl
  | cons chunk chunks ih =>
    rw [List.forall_mem_cons] at h
    rw [firstTag, exists_parseTag h.1, List.findSome?_cons]
    cases readTag? chunk.text with
    | none => exact ih h.2
    | some tag => rfl

theorem timeoutChunk_ok_iff (h : ∀ chunk ∈ chunks, TagReadable chunk.text) :
    timeoutChunk chunks ms = .ok stop ↔ Writable (lineBehind chunks) ∧ Writable ms ∧
      stop = ⟨Text.ofInt (lineBehind chunks) ++ ":Timed out after " ++ Text.ofInt ms ++ " ms", true⟩ := by
  have last := @firstTag_eq chunks.reverse (by simpa using h)
  simp only [timeoutChunk, last, bind_ok_iff, Text.writeInteger_ok_iff, Except.ok.injEq]
  constructor
  · rintro ⟨_, rfl, _, ⟨line, rfl⟩, _, ⟨time, rfl⟩, same⟩
    exact ⟨line, time, (Except.ok.inj same).symm⟩
  · rintro ⟨line, time, rfl⟩
    exact ⟨_, rfl, _, ⟨line, rfl⟩, _, ⟨time, rfl⟩, rfl⟩

end Collector

/-! ## Programs -/

namespace LineMap

theorem probeTarget_ok_iff : (∃ target, probeTarget line = .ok target) ↔ ProbeReadable line := by
  rw [probeTarget, ProbeReadable]
  cases Probe.lineDigits? line with
  | none => simp
  | some digits => simp [map_ok_iff, Text.readDigits_ok_iff]

theorem exists_followingProbe (h : ∀ line ∈ lines, ProbeReadable line) :
    ∃ target, followingProbe own lines = .ok target := by
  induction lines with
  | nil => exact ⟨none, rfl⟩
  | cons line lines ih =>
    rw [List.forall_mem_cons] at h
    rw [followingProbe]
    split
    · exact ih h.2
    · split
      · exact ⟨none, rfl⟩
      · exact probeTarget_ok_iff.2 h.1

theorem exists_reportingProbe (line : Text) (h : ∀ line ∈ rest, ProbeReadable line) :
    ∃ target, reportingProbe line rest = .ok target := by
  rw [reportingProbe]
  split
  · exact ⟨none, rfl⟩
  · exact exists_followingProbe h

theorem rebuild_ok_iff :
    (∃ entries, rebuild current index lines = .ok entries) ↔ ∀ line ∈ lines, ProbeReadable line := by
  induction lines generalizing current index with
  | nil => simp [rebuild]
  | cons line lines ih =>
    rw [List.forall_mem_cons, ← probeTarget_ok_iff]
    simp only [rebuild, bind_ok_iff]
    constructor
    · rintro ⟨_, target, found, rest⟩
      refine ⟨⟨target, found⟩, ?_⟩
      cases target with
      | some target =>
        obtain ⟨later, ok, -⟩ := bind_ok_iff.1 rest
        exact ih.1 ⟨later, ok⟩
      | none =>
        obtain ⟨_, -, behind⟩ := bind_ok_iff.1 rest
        obtain ⟨later, ok, -⟩ := bind_ok_iff.1 behind
        exact ih.1 ⟨later, ok⟩
    · rintro ⟨⟨target, found⟩, readable⟩
      cases target with
      | some target =>
        obtain ⟨later, ok⟩ := (@ih (some target) (index + 1)).2 readable
        exact ⟨_, _, found, bind_ok_iff.2 ⟨later, ok, rfl⟩⟩
      | none =>
        obtain ⟨owner, own⟩ := exists_reportingProbe line readable
        obtain ⟨later, ok⟩ := (@ih current (index + 1)).2 readable
        exact ⟨_, _, found, bind_ok_iff.2 ⟨owner, own, bind_ok_iff.2 ⟨later, ok, rfl⟩⟩⟩

theorem firstProbe_ok_iff :
    firstProbe lines = .ok target ↔
      (∀ digits, lines.findSome? Probe.lineDigits? = some digits → Readable digits) ∧
        target = (lines.findSome? Probe.lineDigits?).map Text.digitsValue := by
  induction lines with
  | nil => simp [firstProbe, eq_comm]
  | cons line lines ih =>
    rw [firstProbe, List.findSome?_cons, bind_ok_iff]
    cases found : Probe.lineDigits? line with
    | none => simp [probeTarget, found, ih]
    | some digits =>
      simp only [probeTarget, found, map_ok_iff, Text.readDigits_ok_iff]
      constructor
      · rintro ⟨_, ⟨_, ⟨short, rfl⟩, rfl⟩, same⟩
        refine ⟨fun _ same => ?_, (Except.ok.inj same).symm⟩
        obtain rfl := Option.some.inj same
        exact short
      · rintro ⟨short, rfl⟩
        exact ⟨_, ⟨_, ⟨short digits rfl, rfl⟩, rfl⟩, rfl⟩

def nearestDigits? (lines : List Text) (generated : Int) : Option Text :=
  if generated < 0 then none else (lines.take (generated.toNat + 1)).reverse.findSome? Probe.lineDigits?

theorem nearestProbeBefore_ok_iff :
    nearestProbeBefore lines generated = .ok target ↔
      (∀ digits, nearestDigits? lines generated = some digits → Readable digits) ∧
        target = (nearestDigits? lines generated).map Text.digitsValue := by
  rw [nearestProbeBefore, nearestDigits?]
  split
  · simp [eq_comm]
  · exact firstProbe_ok_iff

end LineMap

namespace Collector

/-! ## Error output -/

structure Traceable (map : LineMap) (lines : List Text) (digits : Text) : Prop where
  short : Readable digits
  mapped : ∀ line, map.get? (Text.digitsValue digits - 1) = some line → Writable line
  nearest : map.get? (Text.digitsValue digits - 1) = none →
    ∀ probe, LineMap.nearestDigits? lines (Text.digitsValue digits - 1) = some probe → Readable probe

theorem errorLine_ok_iff :
    (∃ line, collector.errorLine = .ok line ∧ ∀ found, line = some found → Writable found) ↔
      ∀ digits, ErrorOutput.lastLineNumber? collector.errors = some digits →
        ∀ map, collector.lineMap = some map → Traceable map collector.programLines digits := by
  rw [errorLine]
  cases ErrorOutput.lastLineNumber? collector.errors with
  | none => simp
  | some digits =>
    cases collector.lineMap with
    | none => simp
    | some map =>
      simp only [bind_ok_iff, Text.readDigits_ok_iff, Option.some.injEq, forall_eq']
      constructor
      · rintro ⟨line, ⟨_, ⟨short, rfl⟩, found⟩, writable⟩
        refine ⟨short, fun mapped same => ?_, fun unmapped => ?_⟩
        · rw [same] at found
          exact writable mapped (Except.ok.inj found).symm
        · rw [unmapped] at found
          obtain ⟨target, near, -⟩ := bind_ok_iff.1 found
          exact (LineMap.nearestProbeBefore_ok_iff.1 near).1
      · rintro ⟨short, mapped, nearest⟩
        cases found : map.get? (Text.digitsValue digits - 1) with
        | some line =>
          refine ⟨some line, ⟨_, ⟨short, rfl⟩, by rw [found]; rfl⟩, fun _ same => ?_⟩
          obtain rfl := Option.some.inj same
          exact mapped line found
        | none =>
          have near := LineMap.nearestProbeBefore_ok_iff.2 ⟨nearest found, rfl⟩
          refine ⟨_, ⟨_, ⟨short, rfl⟩, by rw [found]; exact bind_ok_iff.2 ⟨_, near, rfl⟩⟩, ?_⟩
          intro line same
          obtain ⟨value, target, rfl⟩ := Option.map_eq_some_iff.1 same
          obtain ⟨probe, closest, rfl⟩ := Option.map_eq_some_iff.1 target
          exact Text.writable_digitsValue (nearest found probe closest)

theorem guardIn?_digits (h : ErrorOutput.guardIn? line = some (digits, message)) :
    digits ≠ [] ∧ ∀ c ∈ digits, Text.isDigitChar c := by
  induction line with
  | nil => cases h
  | cons c rest ih =>
    rw [ErrorOutput.guardIn?, Option.or_eq_some_iff] at h
    rcases h with found | ⟨-, found⟩
    · rw [ErrorOutput.guardAt?] at found
      dsimp only at found
      split at found
      · next tagged =>
        rw [Bool.and_eq_true] at tagged
        obtain ⟨digits', rest', whole, nonempty, all⟩ := startsWithTag_iff.1 tagged.2
        cases found
        rw [whole, tagDigits_append all]
        exact ⟨nonempty, all⟩
      · cases found
    · exact ih found

theorem lastGuard?_digits (h : ErrorOutput.lastGuard? text = some (digits, message)) :
    digits ≠ [] ∧ ∀ c ∈ digits, Text.isDigitChar c := by
  obtain ⟨line, -, found⟩ := List.exists_of_findSome?_eq_some h
  exact guardIn?_digits found

structure ErrorsReadable (collector : Collector) (code : Option Int) : Prop where
  guard : ∀ digits message, ErrorOutput.lastGuard? collector.errors = some (digits, message) → Readable digits
  trace : ErrorOutput.lastGuard? collector.errors = none → Text.trim collector.errors ≠ [] →
    ErrorOutput.reportsFailure code collector.errors = true →
    ∀ digits, ErrorOutput.lastLineNumber? collector.errors = some digits →
      ∀ map, collector.lineMap = some map → Traceable map collector.programLines digits

theorem errorChunk_ok_iff :
    (∃ error, collector.errorChunk code = .ok error ∧ ∀ chunk, error = some chunk → TagReadable chunk.text) ↔
      collector.ErrorsReadable code := by
  cases guarded : ErrorOutput.lastGuard? collector.errors with
  | some guard =>
    obtain ⟨digits, message⟩ := guard
    obtain ⟨nonempty, all⟩ := lastGuard?_digits guarded
    have tag : TagReadable (digits ++ ':' :: message) ↔ Readable digits := by
      rw [TagReadable, tagDigits_append all, startsWithTag_iff.2 ⟨digits, message, rfl, nonempty, all⟩]
      simp
    have only : collector.ErrorsReadable code ↔ Readable digits :=
      ⟨fun h => h.guard digits message guarded, fun short => ⟨by simp [guarded, short], by simp [guarded]⟩⟩
    simp [errorChunk, guarded, only, tag]
  | none =>
    have only : collector.ErrorsReadable code ↔
        (Text.trim collector.errors ≠ [] ∧ ErrorOutput.reportsFailure code collector.errors →
          ∃ line, collector.errorLine = .ok line ∧ ∀ found, line = some found → Writable found) := by
      rw [errorLine_ok_iff]
      constructor
      · rintro h ⟨printed, fails⟩
        exact h.trace guarded printed fails
      · intro h
        exact ⟨by simp [guarded], fun _ printed fails => h ⟨printed, fails⟩⟩
    rw [only, errorChunk, guarded]
    by_cases reported : Text.trim collector.errors ≠ [] ∧ ErrorOutput.reportsFailure code collector.errors
    · rw [forall_prop_of_true reported, if_pos (by simpa using reported)]
      constructor
      · rintro ⟨error, ok, -⟩
        obtain ⟨line, found, written⟩ := bind_ok_iff.1 ok
        refine ⟨line, found, fun number same => ?_⟩
        subst same
        obtain ⟨text, written, -⟩ := bind_ok_iff.1 written
        exact (Text.writeInteger_ok_iff.1 written).1
      · rintro ⟨line, found, writable⟩
        cases line with
        | none =>
          refine ⟨_, bind_ok_iff.2 ⟨none, found, rfl⟩, fun _ same => ?_⟩
          obtain rfl := Option.some.inj same
          have zero := @tagReadable_ofInt 0 (Nat.pow_pos (by decide))
            (internalLabel ++ ": " ++ ErrorOutput.lastLine collector.errors)
          have text : Text.ofInt 0 = ['0'] := by decide
          simpa [text] using zero
        | some line =>
          have written := Text.writeInteger_ok_iff.2 ⟨writable line rfl, rfl⟩
          refine ⟨_, bind_ok_iff.2 ⟨some line, found, bind_ok_iff.2 ⟨_, written, rfl⟩⟩, fun _ same => ?_⟩
          obtain rfl := Option.some.inj same
          exact tagReadable_ofInt (writable line rfl) _
    · rw [if_neg (by simpa using reported)]
      simp [reported]

/-! ## The whole run -/

def printed (collector : Collector) : List Chunk :=
  collector.chunks ++ collector.splitter.flush.1.map (⟨·, false⟩)

/-- A run whose numbers, as far as finishing it reads or writes them, are short enough. -/
structure Legible (collector : Collector) (code : Option Int) : Prop where
  tags : ∀ chunk ∈ collector.printed, TagReadable chunk.text
  stopped : ∀ ms, collector.timeout = some ms → Writable (lineBehind collector.printed) ∧ Writable ms
  errors : collector.ErrorsReadable code

theorem tagReadable_timeout (h : Writable (lineBehind chunks)) :
    TagReadable (Text.ofInt (lineBehind chunks) ++ ":Timed out after " ++ Text.ofInt ms ++ " ms") := by
  simpa using tagReadable_ofInt h ("Timed out after " ++ Text.ofInt ms ++ " ms")

def stopChunk (collector : Collector) : Except DigitLimitError (Option Chunk) :=
  match collector.timeout with
  | none => .ok none
  | some ms => (timeoutChunk collector.printed ms).map some

theorem stopChunk_ok_iff (h : ∀ chunk ∈ collector.printed, TagReadable chunk.text) :
    (∃ stop, collector.stopChunk = .ok stop ∧ ∀ chunk, stop = some chunk → TagReadable chunk.text) ↔
      ∀ ms, collector.timeout = some ms → Writable (lineBehind collector.printed) ∧ Writable ms := by
  rw [stopChunk]
  cases collector.timeout with
  | none => simp
  | some ms =>
    simp only [map_ok_iff, timeoutChunk_ok_iff h, Option.some.injEq, forall_eq']
    constructor
    · rintro ⟨_, ⟨_, ⟨line, time, rfl⟩, rfl⟩, -⟩
      exact ⟨line, time⟩
    · rintro ⟨line, time⟩
      refine ⟨_, ⟨_, ⟨line, time, rfl⟩, rfl⟩, fun _ same => ?_⟩
      obtain rfl := Option.some.inj same
      exact tagReadable_timeout line

def ended (collector : Collector) (chunks : List Chunk) (results : List LineResult) : Collector :=
  { collector with
    splitter := collector.splitter.flush.2
    chunks
    results := some results
    guardTripped := (ErrorOutput.lastGuard? collector.errors).isSome }

theorem finish_eq (running : collector.results = none) (code : Option Int) :
    collector.finish false code = do
      let stop ← collector.stopChunk
      let error ← collector.errorChunk code
      let chunks := collector.printed ++ stop.toList ++ error.toList
      let results := backfill (← fuse chunks)
      return (results, collector.ended chunks results) := by
  obtain ⟨lineMap, lines, splitter, chunks, errors, timeout, results, guardTripped⟩ := collector
  obtain rfl : results = none := running
  cases timeout <;> rfl

theorem finish_ok_iff (running : collector.results = none) {code : Option Int} :
    (∃ report, collector.finish false code = .ok report) ↔ collector.Legible code := by
  simp only [finish_eq running, bind_ok_iff]
  constructor
  · rintro ⟨_, stop, stops, error, errs, results, fused, -⟩
    have readable := fuse_ok_iff.1 ⟨results, fused⟩
    simp only [List.mem_append, Option.mem_toList, or_imp, forall_and] at readable
    obtain ⟨⟨tags, stopTag⟩, errorTag⟩ := readable
    exact ⟨tags, (stopChunk_ok_iff tags).1 ⟨stop, stops, stopTag⟩, errorChunk_ok_iff.1 ⟨error, errs, errorTag⟩⟩
  · rintro ⟨tags, stopped, errors⟩
    obtain ⟨stop, stops, stopTag⟩ := (stopChunk_ok_iff tags).2 stopped
    obtain ⟨error, errs, errorTag⟩ := errorChunk_ok_iff.2 errors
    have readable : ∀ chunk ∈ collector.printed ++ stop.toList ++ error.toList, TagReadable chunk.text := by
      simp only [List.mem_append, Option.mem_toList, or_imp, forall_and]
      exact ⟨⟨tags, stopTag⟩, errorTag⟩
    obtain ⟨results, fused⟩ := fuse_ok_iff.2 readable
    exact ⟨_, stop, stops, error, errs, results, fused, rfl⟩

/-! ## Collecting a run -/

inductive Notice where
  | text (pipe : Pipe) (text : Text)
  | timedOut (ms : Int)

def Notice.through (pipe : Pipe) : Notice → Text
  | text other content => if other = pipe then content else []
  | timedOut _ => []

def Notice.time? : Notice → Option Int
  | text _ _ => none
  | timedOut ms => some ms

def heed (collector : Collector) : Notice → Collector
  | .text pipe text => collector.tell pipe text
  | .timedOut ms => collector.markTimedOut ms

def textOf (notices : List Notice) (pipe : Pipe) : Text :=
  notices.flatMap (Notice.through pipe)

def timeOf (notices : List Notice) : Option Int :=
  notices.reverse.findSome? Notice.time?

/-- The results of a program from its notices, which may come in any order and cut the texts anywhere. -/
def collect (program : Option Runnable) (notices : List Notice) (code : Option Int) :
    Except DigitLimitError (List LineResult) := do
  let start ← Collector.start program
  let (results, _) ← (notices.foldl heed start).finish false code
  return results

/-- A collector that has been told the text of each pipe and when the run was stopped. -/
def after (start : Collector) (notices : List Notice) : Collector :=
  { start with timeout := (timeOf notices).or start.timeout }.told (textOf notices)

theorem textOf_concat (notices : List Notice) (pipe : Pipe) (text : Text) :
    textOf (notices ++ [.text pipe text]) = Function.update (textOf notices) pipe (textOf notices pipe ++ text) := by
  funext other
  rw [textOf, List.flatMap_append, List.flatMap_singleton, Notice.through]
  by_cases here : other = pipe
  · subst here
    rw [if_pos rfl, Function.update_self]
    rfl
  · rw [if_neg (Ne.symm here), Function.update_of_ne here, List.append_nil]
    rfl

theorem timeOf_concat (notices : List Notice) (notice : Notice) :
    timeOf (notices ++ [notice]) = notice.time?.or (timeOf notices) := by
  rw [timeOf, List.reverse_append, List.findSome?_append]
  cases notice <;> rfl

theorem foldl_heed {start : Collector} (running : start.results = none) (untold : start.told (fun _ => []) = start)
    (notices : List Notice) : notices.foldl heed start = start.after notices := by
  induction notices using List.reverseRecOn with
  | nil => exact untold.symm
  | append_singleton notices notice ih =>
    rw [List.foldl_append, ih, List.foldl_cons, List.foldl_nil]
    cases notice with
    | timedOut ms =>
      have same : textOf (notices ++ [.timedOut ms]) = textOf notices := by
        funext pipe
        rw [textOf, List.flatMap_append]
        exact List.append_nil _
      simp only [after, same, timeOf_concat]
      rfl
    | text pipe text =>
      have told := @tell_told { start with timeout := (timeOf notices).or start.timeout } running (textOf notices) pipe text
      simp only [after, textOf_concat, timeOf_concat]
      exact told

theorem start_ok_iff :
    (∃ start, Collector.start program = .ok start) ↔
      ∀ text, program = some (.bare text) → ∀ line ∈ Text.splitNewlines text, ProbeReadable line := by
  rcases program with _ | _ | text
  · simp [Collector.start, bind, Except.bind, pure, Except.pure]
  · simp [Collector.start, Runnable.lineMap, Except.map, bind, Except.bind, pure, Except.pure]
  · have same : (∃ start, Collector.start (some (.bare text)) = .ok start) ↔
        ∃ entries, LineMap.rebuild none 0 (Text.splitNewlines text) = .ok entries := by
      simp only [Collector.start, Runnable.lineMap, LineMap.ofProgramText, bind_ok_iff, map_ok_iff]
      constructor
      · rintro ⟨_, _, ⟨_, ⟨entries, found, -⟩, -⟩, -⟩
        exact ⟨entries, found⟩
      · rintro ⟨entries, found⟩
        exact ⟨_, _, ⟨_, ⟨entries, found, rfl⟩, rfl⟩, rfl⟩
    rw [same, LineMap.rebuild_ok_iff]
    simp

/-- A run has results exactly if no number that is read or written on the way is too long: in the probes of a
program that is given as text, in the tags, in the time and the line of a timeout, in the last guard, and in the last
line of a traceback with the line that it leads to. -/
theorem collect_ok_iff (program : Option Runnable) (notices : List Notice) (code : Option Int) :
    (∃ results, collect program notices code = .ok results) ↔
      (∀ text, program = some (.bare text) → ∀ line ∈ Text.splitNewlines text, ProbeReadable line) ∧
        ∀ start, Collector.start program = .ok start → (start.after notices).Legible code := by
  rw [← start_ok_iff]
  simp only [collect, bind_ok_iff]
  constructor
  · rintro ⟨_, start, started, report, finished, -⟩
    obtain ⟨running, untold⟩ := told_start started
    rw [foldl_heed running untold] at finished
    refine ⟨⟨start, started⟩, fun other same => ?_⟩
    obtain rfl := Except.ok.inj (started.symm.trans same)
    exact (@finish_ok_iff (start.after notices) running code).1 ⟨report, finished⟩
  · rintro ⟨⟨start, started⟩, legible⟩
    obtain ⟨running, untold⟩ := told_start started
    obtain ⟨report, finished⟩ := (@finish_ok_iff (start.after notices) running code).2 (legible start started)
    rw [← foldl_heed running untold] at finished
    exact ⟨_, start, started, report, finished, rfl⟩

def ones (count : Nat) : Text :=
  List.replicate count '1' ++ ":x"

theorem parseTag_ones (long : digitLimit < count) : parseTag (ones count) = .error (.reading count) := by
  have all : ∀ c ∈ List.replicate count '1', Text.isDigitChar c := by
    intro c mem
    rw [List.eq_of_mem_replicate mem]
    decide
  have nonempty : List.replicate count '1' ≠ [] := by simp; omega
  have digits : tagDigits (ones count) = List.replicate count '1' := tagDigits_append all _
  have tagged : startsWithTag (ones count) := startsWithTag_iff.2 ⟨_, _, rfl, nonempty, all⟩
  rw [parseTag, digits, if_pos tagged, Text.readDigits, List.length_replicate, if_pos long]
  rfl

theorem splitTagged_ones (count : Nat) : splitTagged (ones count) = [ones count] := by
  apply splitTagged_of_holdsTag
  rw [ones, holdsTag_append_of_not_mem (by simp [List.mem_replicate])]
  decide

theorem printed_ones (start : Collector) (count : Nat) :
    (start.after [.text .output (ones count)]).printed = [⟨ones count, false⟩] := by
  have last : Splitter.withoutLineEnd (ones count) = ones count := by
    rw [Splitter.withoutLineEnd, ones, if_neg (by simp [Text.endsWithChar])]
  have whole : textOf [.text .output (ones count)] .output = ones count := by simp [textOf, Notice.through]
  have nonempty : ones count ≠ [] := by simp [ones]
  rw [printed, after, told, whole, splitTagged_ones, Splitter.after, splitTagged_ones, Splitter.flush]
  simp [last, nonempty]

theorem collect_ones (long : digitLimit < count) :
    collect none [.text .output (ones count)] (some 0) = .error (.reading count) := by
  rcases started : Collector.start none with _ | start
  · cases started
  obtain ⟨running, untold⟩ := told_start started
  have finished : (start.after [.text .output (ones count)]).finish false (some 0) = .error (.reading count) := by
    have unstopped : (start.after [.text .output (ones count)]).stopChunk = .ok none := by
      cases started
      rfl
    have silent : (start.after [.text .output (ones count)]).errorChunk (some 0) = .ok none := by
      cases started
      rfl
    have fused : fuse [⟨ones count, false⟩] = .error (.reading count) := by
      rw [fuse, Fusion.ofChunks, List.foldlM_cons, Fusion.add, if_neg (show _ ∉ Fusion.empty.seen from List.not_mem_nil),
        parseTag_ones long]
      rfl
    rw [@finish_eq (start.after [.text .output (ones count)]) running, unstopped, silent, printed_ones]
    simp only [bind, Except.bind, Option.toList_none, List.append_nil, fused]
  rw [collect, started]
  simp only [bind, Except.bind, foldl_heed running untold, finished]

theorem collect_of_long_tag : collect none [.text .output (ones 4301)] (some 0) = .error (.reading 4301) :=
  collect_ones (by decide)

end Collector

end LineProbe
