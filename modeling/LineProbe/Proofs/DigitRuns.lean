import LineProbe.Proofs.DigitLimit
import LineProbe.Proofs.Straight

/-!
# Texts without long runs of digits

The numbers of a run are runs of digits in its output, in its error output and in the text of its program.
-/

namespace LineProbe

open Text

def ShortRuns (text : Text) : Prop :=
  ∀ run, run <:+: text → (∀ c ∈ run, isDigitChar c = true) → Readable run

theorem ShortRuns.within (h : ShortRuns whole) (inside : part <:+: whole) : ShortRuns part := by
  intro run held
  exact h run (held.trans inside)

theorem shortRuns_of_length (short : text.length ≤ digitLimit) : ShortRuns text := by
  intro run held _
  exact Nat.le_trans held.length_le short

theorem isDigitChar_of_mem_tagDigits (mem : c ∈ tagDigits text) : isDigitChar c :=
  List.mem_takeWhile_imp mem

theorem tagDigits_drop_isInfix (text : Text) (count : Nat) : tagDigits (text.drop count) <:+: text :=
  (List.takeWhile_prefix _).isInfix.trans (List.drop_suffix _ _).isInfix

theorem ShortRuns.tagReadable (h : ShortRuns text) : TagReadable text := by
  intro _
  exact h _ (tagDigits_drop_isInfix text 0) fun c mem => isDigitChar_of_mem_tagDigits mem

theorem ShortRuns.probeReadable (h : ShortRuns line) : ProbeReadable line := by
  intro digits found
  obtain ⟨-, all, rest, whole⟩ := Probe.lineDigits?_iff.1 found
  refine h digits ?_ all
  have inside : digits <:+: trimLeft line := ⟨"print(\"".toList, ':' :: rest, by rw [whole]; simp⟩
  exact inside.trans (List.dropWhile_suffix _).isInfix

/-! ## Chunks -/

theorem infix_of_mem_splitTagged (mem : piece ∈ splitTagged text) : piece <:+: text := by
  induction size : text.length using Nat.strongRecOn generalizing text with
  | ind _ ih =>
    subst size
    rcases unsplit_or_firstCut text with unsplit | ⟨before, rest, cut⟩
    · rw [splitTagged_of_holdsTag unsplit, List.mem_singleton] at mem
      subst mem
      exact List.infix_rfl
    · rw [cut.splitTagged] at mem
      rcases List.mem_cons.1 mem with rfl | later
      · obtain ⟨c, after, rfl, -⟩ := cut.exists_end
        exact (List.prefix_append _ _).isInfix
      · have inside := ih rest.length cut.length_lt later rfl
        apply inside.trans
        rcases cut.whole with ⟨rfl, -⟩ | rfl
        · exact ⟨before ++ ['\n'], [], by simp⟩
        · exact ⟨before ++ ['\r', '\n'], [], by simp⟩

theorem withoutLineEnd_isPrefix (text : Text) : Splitter.withoutLineEnd text <+: text := by
  rw [Splitter.withoutLineEnd]
  split
  · dsimp only
    split
    · exact (List.dropLast_prefix _).trans (List.dropLast_prefix _)
    · exact List.dropLast_prefix _
  · exact List.prefix_rfl

def outputChunks (output : Text) : List Chunk :=
  (Splitter.chunks [output]).map (⟨·, false⟩)

theorem infix_of_mem_outputChunks (mem : chunk ∈ outputChunks output) : chunk.text <:+: output := by
  obtain ⟨piece, given, rfl⟩ := List.mem_map.1 mem
  rw [Splitter.chunks_eq, List.flatten_singleton] at given
  rcases List.mem_append.1 given with early | last
  · exact infix_of_mem_splitTagged (List.dropLast_subset _ early)
  · have held : Splitter.withoutLineEnd (Splitter.after output).pending <:+: output := by
      obtain ⟨pieces, pending, whole⟩ := exists_concat_splitTagged output
      have mem : (Splitter.after output).pending ∈ splitTagged output := by simp [Splitter.after, whole]
      exact (withoutLineEnd_isPrefix _).isInfix.trans (infix_of_mem_splitTagged mem)
    rw [Splitter.flush] at last
    dsimp only at last
    split at last
    · cases last
    · rw [List.mem_singleton.1 last]
      exact held

theorem ShortRuns.tagReadable_outputChunks (h : ShortRuns output) :
    ∀ chunk ∈ outputChunks output, TagReadable chunk.text := by
  intro chunk mem
  exact (h.within (infix_of_mem_outputChunks mem)).tagReadable

namespace Collector

theorem printed_after (start : Collector) (notices : List Notice) :
    (start.after notices).printed = outputChunks (textOf notices .output) := by
  rw [outputChunks, Splitter.chunks_eq, List.flatten_singleton, List.map_append]
  rfl

end Collector

/-! ## Error output -/

namespace ErrorOutput

theorem guardIn?_isInfix (h : guardIn? line = some (digits, message)) : digits <:+: line := by
  induction line with
  | nil => cases h
  | cons c rest ih =>
    rw [guardIn?, Option.or_eq_some_iff] at h
    rcases h with found | ⟨-, found⟩
    · rw [guardAt?] at found
      dsimp only at found
      split at found
      · cases found
        exact tagDigits_drop_isInfix _ _
      · cases found
    · exact (ih found).trans (List.suffix_cons c rest).isInfix

theorem lastGuard?_isInfix (h : lastGuard? text = some (digits, message)) : digits <:+: text := by
  obtain ⟨line, mem, found⟩ := List.exists_of_findSome?_eq_some h
  exact (guardIn?_isInfix found).trans (infix_of_mem_splitAtChar (List.mem_reverse.1 mem))

theorem mem_numbersAfter (mem : digits ∈ numbersAfter lead wholeWord previous text) :
    digits <:+: text ∧ ∀ c ∈ digits, isDigitChar c := by
  induction text generalizing previous with
  | nil => cases mem
  | cons c rest ih =>
    have later (mem : digits ∈ numbersAfter lead wholeWord (some c) rest) :
        digits <:+: c :: rest ∧ ∀ c ∈ digits, isDigitChar c :=
      ⟨(ih mem).1.trans (List.suffix_cons c rest).isInfix, (ih mem).2⟩
    rw [numbersAfter] at mem
    split at mem
    · rcases List.mem_cons.1 mem with rfl | behind
      · exact ⟨tagDigits_drop_isInfix _ _, fun c mem => isDigitChar_of_mem_tagDigits mem⟩
      · exact later behind
    · exact later mem

theorem lastLineNumber?_isInfix (h : lastLineNumber? text = some digits) :
    digits <:+: text ∧ ∀ c ∈ digits, isDigitChar c := by
  rw [lastLineNumber?, Option.or_eq_some_iff] at h
  rcases h with found | ⟨-, found⟩
  · exact mem_numbersAfter (List.mem_of_getLast? found)
  · exact mem_numbersAfter (List.mem_of_getLast? found)

end ErrorOutput

/-! ## Programs -/

namespace LineMap

theorem writable_probeTarget (h : probeTarget line = .ok (some target)) : Writable target := by
  rw [probeTarget] at h
  split at h
  · cases h
  · obtain ⟨value, read, same⟩ := map_ok_iff.1 h
    obtain ⟨short, rfl⟩ := readDigits_ok_iff.1 read
    cases same
    exact writable_digitsValue short

theorem writable_reportingProbe (h : reportingProbe line rest = .ok (some target)) : Writable target := by
  rw [reportingProbe] at h
  split at h
  · cases h
  · induction rest with
    | nil => cases h
    | cons next rest ih =>
      rw [followingProbe] at h
      split at h
      · exact ih h
      · split at h
        · cases h
        · exact writable_probeTarget h

theorem writable_rebuild {entries : List (Int × Int)} (h : rebuild current index lines = .ok entries)
    (writable : ∀ line ∈ current, Writable line) : ∀ entry ∈ entries, Writable entry.2 := by
  induction lines generalizing current index entries with
  | nil =>
    cases h
    simp
  | cons line rest ih =>
    obtain ⟨target, found, behind⟩ := bind_ok_iff.1 h
    cases target with
    | some target =>
      have own := writable_probeTarget found
      obtain ⟨later, rebuilt, same⟩ := bind_ok_iff.1 behind
      cases same
      rw [List.forall_mem_cons]
      exact ⟨own, ih rebuilt (by simpa using own)⟩
    | none =>
      obtain ⟨owner, reported, behind⟩ := bind_ok_iff.1 behind
      obtain ⟨later, rebuilt, same⟩ := bind_ok_iff.1 behind
      cases same
      rw [List.forall_mem_append]
      refine ⟨fun entry mem => ?_, ih rebuilt writable⟩
      obtain ⟨_, lifted, rfl⟩ := Option.map_eq_some_iff.1 (Option.mem_toList.1 mem)
      obtain ⟨source, owned, same⟩ := Option.bind_eq_some_iff.1 lifted
      cases same
      rcases Option.or_eq_some_iff.1 owned with own | ⟨-, given⟩
      · rw [own] at reported
        exact writable_reportingProbe reported
      · exact writable source given

end LineMap

/-- A program whose numbers are short enough. Those of a map that is rebuilt stand in the text. -/
def Runnable.Legible : Runnable → Prop
  | .generated program =>
    ShortRuns program.text ∧ ∀ generated line, program.lineMap.get? generated = some line → Writable line
  | .bare text => ShortRuns text

namespace Runnable

variable {program : Runnable}

theorem Legible.text (h : program.Legible) : ShortRuns program.text := by
  cases program with
  | generated program => exact h.1
  | bare text => exact h

theorem Legible.probeReadable (h : program.Legible) : ∀ line ∈ splitNewlines program.text, ProbeReadable line := by
  intro line mem
  exact (h.text.within (infix_of_mem_splitAtChar mem)).probeReadable

theorem Legible.writable (h : program.Legible) (made : program.lineMap = .ok map) {generated line : Int}
    (found : map.get? generated = some line) : Writable line := by
  cases program with
  | generated program =>
    cases made
    exact h.2 generated line found
  | bare text =>
    obtain ⟨entries, rebuilt, same⟩ := bind_ok_iff.1 made
    cases same
    obtain ⟨entry, here, rfl⟩ := Option.map_eq_some_iff.1 found
    exact LineMap.writable_rebuild rebuilt (by simp) entry (List.mem_of_find?_eq_some here)

end Runnable

/-! ## Whole runs -/

namespace Collector

variable {start : Collector}

theorem exists_start (legible : ∀ runnable ∈ program, runnable.Legible) : ∃ start, Collector.start program = .ok start := by
  rw [start_ok_iff]
  rintro text rfl
  exact (legible _ rfl).probeReadable

structure Fresh (program : Option Runnable) (start : Collector) : Prop where
  timeout : start.timeout = none
  lines : start.programLines = (program.map fun runnable => splitNewlines runnable.text).getD []
  lineMap : ∀ map, start.lineMap = some map → ∃ runnable ∈ program, runnable.lineMap = .ok map

theorem fresh_start (started : Collector.start program = .ok start) : Fresh program start := by
  cases program with
  | none =>
    cases started
    exact ⟨rfl, rfl, by simp⟩
  | some runnable =>
    obtain ⟨_, made, same⟩ := bind_ok_iff.1 ((Collector.start.eq_def _).symm.trans started)
    obtain ⟨map, built, rfl⟩ := map_ok_iff.1 made
    cases same
    exact ⟨rfl, rfl, by simp [built]⟩

theorem Fresh.probeReadable (fresh : Fresh program start) (legible : ∀ runnable ∈ program, runnable.Legible) :
    ∀ line ∈ start.programLines, ProbeReadable line := by
  rw [fresh.lines]
  cases program with
  | none => simp
  | some runnable => exact (legible runnable rfl).probeReadable

theorem Fresh.traceable (fresh : Fresh program start)
    (legible : ∀ runnable ∈ program, runnable.Legible) {map : LineMap} (mapped : start.lineMap = some map)
    {digits : Text} (short : Readable digits) : Traceable map start.programLines digits where
  short := short
  mapped line found := by
    obtain ⟨runnable, mem, built⟩ := fresh.lineMap map mapped
    exact (legible runnable mem).writable built found
  nearest _ probe found := by
    rw [LineMap.nearestDigits?] at found
    split at found
    · cases found
    · obtain ⟨line, mem, here⟩ := List.exists_of_findSome?_eq_some found
      have given := List.mem_of_mem_take (List.mem_reverse.1 mem)
      exact fresh.probeReadable legible line given probe here

theorem Fresh.timeout_after (fresh : Fresh program start) (notices : List Notice) :
    (start.after notices).timeout = timeOf notices := by
  rw [after, told, fresh.timeout, Option.or_none]

theorem legible_after (fresh : Fresh program start) (legible : ∀ runnable ∈ program, runnable.Legible)
    {notices : List Notice} (short : ∀ pipe, ShortRuns (textOf notices pipe))
    (stopped : ∀ ms, timeOf notices = some ms →
      Writable (lineBehind (outputChunks (textOf notices .output))) ∧ Writable ms) (code : Option Int) :
    (start.after notices).Legible code where
  tags := by
    rw [printed_after]
    exact (short .output).tagReadable_outputChunks
  stopped := by
    rw [printed_after, fresh.timeout_after]
    exact stopped
  errors := by
    refine ⟨fun digits message found => ?_, fun _ _ _ digits found map mapped => ?_⟩
    · exact short .errors digits (ErrorOutput.lastGuard?_isInfix found) (lastGuard?_digits found).2
    · obtain ⟨inside, all⟩ := ErrorOutput.lastLineNumber?_isInfix found
      exact fresh.traceable legible mapped (short .errors digits inside all)

end Collector

end LineProbe
