import LineProbe.Proofs.Backfilling
import LineProbe.Proofs.DigitLimit

/-!
# What chunks are fused into

Each chunk that is not a repetition and that has a tag counts for the line of its tag.
-/

namespace LineProbe

open Text

/-! ## First occurrences -/

section

variable [BEq α] [LawfulBEq α]

theorem eraseDups_concat (items : List α) (item : α) :
    (items ++ [item]).eraseDups = items.eraseDups ++ if items.contains item then [] else [item] := by
  rw [List.eraseDups_append, List.cons_removeAll]
  cases items.contains item <;> rfl

theorem eraseDups_insert (mem : item ∈ before) (after : List α) :
    (before ++ item :: after).eraseDups = (before ++ after).eraseDups := by
  rw [List.eraseDups_append, List.eraseDups_append, List.cons_removeAll, if_neg (by simpa using mem)]

theorem filter_eraseDups (test : α → Bool) (items : List α) :
    items.eraseDups.filter test = (items.filter test).eraseDups := by
  induction items using List.reverseRecOn with
  | nil => rfl
  | append_singleton items item ih =>
    rw [eraseDups_concat, List.filter_append, ih, List.filter_append]
    cases passes : test item with
    | false =>
      rw [List.filter_singleton, passes, cond_false, List.append_nil]
      split <;> simp [passes]
    | true =>
      have same : (items.filter test).contains item = items.contains item := by
        rw [Bool.eq_iff_iff]
        simp [passes]
      rw [List.filter_singleton, passes, cond_true, eraseDups_concat, same]
      split <;> simp [passes]

end

/-! ## Chunks that count -/

/-- A chunk with its tag taken off and its payload trimmed. -/
structure Tagged where
  line : Nat
  payload : Text
  isError : Bool

def Chunk.tag? (chunk : Chunk) : Option Nat :=
  (readTag? chunk.text).map Prod.fst

def Chunk.untag? (chunk : Chunk) : Option Tagged :=
  (readTag? chunk.text).map fun tag => ⟨tag.1, trim tag.2, chunk.isError⟩

def unrepeated (chunks : List Chunk) : List Chunk :=
  (chunks.zipIdx.filter fun entry => !(chunks.take entry.2).contains entry.1).map Prod.fst

def countedAt (chunks : List Chunk) (line : Int) : List Tagged :=
  ((unrepeated chunks).filterMap Chunk.untag?).filter fun tagged => tagged.line == line

def payloadsAt (chunks : List Chunk) (line : Int) : List Text :=
  ((countedAt chunks line).map Tagged.payload).filter (· ≠ [])

/-- The results of chunks: one for each line that has something to show, in ascending order. -/
structure Fused (chunks : List Chunk) (results : List LineResult) : Prop where
  ascending : Ascending results
  lines : ∀ line, (∃ result ∈ results, result.line = line) ↔ payloadsAt chunks line ≠ []
  value : ∀ result ∈ results,
    result.value = join "\\n" (splitLines (join "  " (payloadsAt chunks result.line)))
  isShown : ∀ result ∈ results, result.value ≠ [] ∧ '\n' ∉ result.value
  isError : ∀ result ∈ results,
    result.isError = true ↔ ∃ tagged ∈ countedAt chunks result.line, tagged.isError = true

theorem unrepeated_eq (chunks : List Chunk) : unrepeated chunks = chunks.eraseDups := by
  induction chunks using List.reverseRecOn with
  | nil => rfl
  | append_singleton chunks chunk ih =>
    have early : (chunks.zipIdx.filter fun entry => !((chunks ++ [chunk]).take entry.2).contains entry.1) =
        chunks.zipIdx.filter fun entry => !(chunks.take entry.2).contains entry.1 := by
      apply List.filter_congr
      intro entry mem
      have bound : entry.2 < chunks.length := by simpa using (List.mem_zipIdx mem).2.1
      rw [List.take_append_of_le_length (Nat.le_of_lt bound)]
    have last : (([chunk].zipIdx chunks.length).filter fun entry =>
        !((chunks ++ [chunk]).take entry.2).contains entry.1).map Prod.fst =
          if chunks.contains chunk then [] else [chunk] := by
      rw [List.zipIdx_singleton, List.filter_singleton, List.take_left]
      cases chunks.contains chunk <;> rfl
    rw [eraseDups_concat, ← ih, unrepeated, List.zipIdx_append, List.filter_append, early, List.map_append, Nat.zero_add,
      last, unrepeated]

theorem countedAt_concat (chunks : List Chunk) (chunk : Chunk) (line : Int) :
    countedAt (chunks ++ [chunk]) line = countedAt chunks line ++
      if chunk ∈ chunks then [] else (chunk.untag?.filter fun tagged => tagged.line == line).toList := by
  rw [countedAt, countedAt, unrepeated_eq, unrepeated_eq, eraseDups_concat, List.filterMap_append, List.filter_append]
  congr 1
  by_cases repeats : chunk ∈ chunks
  · simp [repeats]
  · simp only [List.contains_eq_mem, repeats, decide_false, Bool.false_eq_true, if_false]
    cases untagged : chunk.untag? with
    | none => simp [untagged]
    | some tagged => cases here : ((tagged.line : Int) == line) <;> simp [untagged, here, Option.filter]

/-! ## Line ends -/

theorem join_consFirst (separator : Text) (c : Char) (some : pieces ≠ []) :
    join separator (consFirst c pieces) = c :: join separator pieces := by
  match pieces with
  | [] => exact absurd rfl some
  | [_] => rfl
  | _ :: _ :: _ => rfl

theorem join_ne_nil (nonempty : ∀ piece ∈ pieces, piece ≠ []) (some : pieces ≠ []) : join separator pieces ≠ [] := by
  match pieces with
  | [] => exact absurd rfl some
  | [piece] => exact nonempty piece (by simp)
  | piece :: _ :: _ => simp [join, nonempty piece (by simp)]

theorem splitLines_ne_nil (text : Text) : splitLines text ≠ [] := by
  fun_induction splitLines text with
  | case4 c rest => cases splitLines rest <;> simp [consFirst]
  | _ => simp

theorem encodePayload_eq (text : Text) : encodePayload text = join "\\n" (splitLines text) := by
  fun_induction encodePayload text with
  | case1 => rfl
  | case2 rest ih =>
    rw [splitLines, join_cons _ _ (splitLines_ne_nil rest), ih]
    rfl
  | case3 rest notEnd ih =>
    rw [splitLines, if_pos rfl, join_cons _ _ (splitLines_ne_nil rest), ih]
    · rfl
    · exact notEnd
  | case4 c rest notEnd notNewline ih =>
    rw [splitLines, if_neg notNewline, join_consFirst _ _ (splitLines_ne_nil rest), ih]
    exact notEnd

theorem newline_not_mem_encodePayload (text : Text) : '\n' ∉ encodePayload text := by
  fun_induction encodePayload text with
  | case1 => simp
  | case2 rest ih => simpa using ih
  | case3 rest notEnd ih => simpa using ih
  | case4 c rest notEnd notNewline ih => simpa [Ne.symm notNewline] using ih

theorem encodePayload_ne_nil (nonempty : text ≠ []) : encodePayload text ≠ [] := by
  fun_cases encodePayload text with
  | case1 => exact absurd rfl nonempty
  | _ => simp

/-! ## Results line by line -/

def resultFor (chunks : List Chunk) (line : Int) : LineResult :=
  ⟨line, encodePayload (join payloadSeparator (payloadsAt chunks line)), (countedAt chunks line).any Tagged.isError⟩

theorem join_payloadsAt_ne_nil (some : payloadsAt chunks line ≠ []) :
    join payloadSeparator (payloadsAt chunks line) ≠ [] := by
  refine join_ne_nil (fun piece mem => ?_) some
  simpa using (List.mem_filter.1 mem).2

theorem fused_iff :
    Fused chunks results ↔ Ascending results ∧
      ∀ result, result ∈ results ↔ payloadsAt chunks result.line ≠ [] ∧ result = resultFor chunks result.line := by
  constructor
  · intro h
    have determined {result : LineResult} (mem : result ∈ results) : result = resultFor chunks result.line := by
      have value := h.value result mem
      have flag : result.isError = (countedAt chunks result.line).any Tagged.isError := by
        rw [Bool.eq_iff_iff, h.isError result mem, List.any_eq_true]
      rw [← encodePayload_eq] at value
      cases result
      simp_all [resultFor, payloadSeparator]
    refine ⟨h.ascending, fun result => ⟨fun mem => ?_, ?_⟩⟩
    · exact ⟨(h.lines _).1 ⟨result, mem, rfl⟩, determined mem⟩
    · rintro ⟨shown, same⟩
      obtain ⟨other, mem, line⟩ := (h.lines _).2 shown
      rw [same, ← line, ← determined mem]
      exact mem
  · rintro ⟨ascending, members⟩
    have determined {result : LineResult} (mem : result ∈ results) := (members result).1 mem
    refine ⟨ascending, fun line => ⟨?_, fun shown => ?_⟩, fun result mem => ?_, fun result mem => ?_, fun result mem => ?_⟩
    · rintro ⟨result, mem, rfl⟩
      exact (determined mem).1
    · exact ⟨resultFor chunks line, (members _).2 ⟨shown, rfl⟩, rfl⟩
    · rw [(determined mem).2, ← encodePayload_eq]
      rfl
    · obtain ⟨shown, same⟩ := determined mem
      rw [same]
      exact ⟨encodePayload_ne_nil (join_payloadsAt_ne_nil shown), newline_not_mem_encodePayload _⟩
    · rw [(determined mem).2]
      simp [resultFor]

theorem Fused.unique (first : Fused chunks results) (second : Fused chunks others) : results = others := by
  obtain ⟨ascending, members⟩ := fused_iff.1 first
  obtain ⟨ascending', members'⟩ := fused_iff.1 second
  exact ascending.eq_of_mem_iff ascending' fun result => (members result).trans (members' result).symm

theorem mem_iff_lookup {entries : List (Nat × α)} (distinct : (entries.map Prod.fst).Nodup) :
    (key, value) ∈ entries ↔ entries.lookup key = some value := by
  rw [List.lookup_eq_some_iff]
  constructor
  · intro mem
    obtain ⟨before, after, rfl⟩ := List.append_of_mem mem
    refine ⟨before, after, rfl, fun other earlier => ?_⟩
    simp only [List.map_append, List.map_cons, List.nodup_append, List.mem_cons] at distinct
    exact bne_iff_ne.2 (distinct.2.2 _ (List.mem_map_of_mem earlier) _ (.inl rfl)).symm
  · rintro ⟨before, after, rfl, -⟩
    simp

namespace Fusion

theorem lookup_addAt (line : Nat) (payload : Text) (entries : List (Nat × List Text)) (other : Nat) :
    (addAt line payload entries).lookup other =
      if other = line then some ((entries.lookup line).getD [] ++ [payload]) else entries.lookup other := by
  induction entries with
  | nil => simp [addAt, lookup_cons_eq_ite]
  | cons entry entries ih =>
    rw [addAt]
    by_cases same : entry.1 = line
    · subst same
      by_cases here : other = entry.1 <;> simp [lookup_cons_eq_ite, here]
    · rw [if_neg same, lookup_cons_eq_ite, lookup_cons_eq_ite, lookup_cons_eq_ite, ih]
      by_cases here : other = line
      · subst here
        simp [Ne.symm same]
      · simp [here]

theorem keys_addAt (line : Nat) (payload : Text) (entries : List (Nat × List Text)) :
    (addAt line payload entries).map Prod.fst =
      entries.map Prod.fst ++ if line ∈ entries.map Prod.fst then [] else [line] := by
  induction entries with
  | nil => rfl
  | cons entry entries ih =>
    rw [addAt]
    by_cases same : entry.1 = line
    · simp [same]
    · simp only [if_neg same, List.map_cons, ih, List.cons_append, List.mem_cons, Ne.symm same, false_or]

/-- What is known once the chunks have been read: the payloads that count for each line, and whether one of them is an
error. -/
structure Gathers (chunks : List Chunk) (fusion : Fusion) : Prop where
  distinct : (fusion.payloads.map Prod.fst).Nodup
  payloads : ∀ line : Nat, fusion.payloads.lookup line =
    if countedAt chunks line = [] then none else some ((countedAt chunks line).map Tagged.payload)
  errors : ∀ line : Nat, line ∈ fusion.errors ↔ ∃ tagged ∈ countedAt chunks line, tagged.isError = true

theorem Gathers.note (h : Gathers chunks fusion) (fresh : chunk ∉ chunks) :
    Gathers (chunks ++ [chunk]) (fusion.note chunk (readTag? chunk.text)) := by
  have counted (line : Nat) := countedAt_concat chunks chunk line
  simp only [if_neg fresh, Chunk.untag?] at counted
  cases tag : readTag? chunk.text with
  | none =>
    simp only [tag, Option.map_none, Option.filter_none, Option.toList_none, List.append_nil] at counted
    refine ⟨h.distinct, fun line => ?_, fun line => ?_⟩
    · rw [counted]
      exact h.payloads line
    · rw [counted]
      exact h.errors line
  | some tag' =>
    obtain ⟨own, payload⟩ := tag'
    have here (line : Nat) : countedAt (chunks ++ [chunk]) line = countedAt chunks line ++
        if own = line then [⟨own, trim payload, chunk.isError⟩] else [] := by
      rw [counted, tag]
      by_cases same : own = line <;> simp [Option.filter, same, Int.natCast_inj]
    refine ⟨?_, fun line => ?_, fun line => ?_⟩
    · rw [Fusion.note, keys_addAt]
      split
      · simpa using h.distinct
      · next absent => exact List.concat_eq_append ▸ h.distinct.concat absent
    · rw [Fusion.note, lookup_addAt, h.payloads, here]
      by_cases same : own = line
      · subst same
        by_cases none_ : countedAt chunks own = [] <;> simp [none_]
      · simp [same, Ne.symm same, h.payloads]
    · rw [here]
      by_cases same : own = line
      · subst same
        cases flag : chunk.isError <;> simp [Fusion.note, flag, h.errors]
      · cases flag : chunk.isError <;> simp [Fusion.note, flag, h.errors, same, Ne.symm same]

theorem gathers_ofChunks (h : ofChunks chunks = .ok fusion) : Gathers chunks fusion := by
  induction chunks using List.reverseRecOn generalizing fusion with
  | nil =>
    cases h
    constructor <;> simp [empty, countedAt, unrepeated]
  | append_singleton chunks chunk ih =>
    rw [ofChunks_concat, bind_ok_iff] at h
    obtain ⟨before, made, added⟩ := h
    rcases add_ok_iff.1 added with ⟨seen, rfl⟩ | ⟨fresh, -, rfl⟩
    · have counted (line : Int) : countedAt (chunks ++ [chunk]) line = countedAt chunks line := by
        rw [countedAt_concat, if_pos ((mem_seen_iff made chunk).1 seen), List.append_nil]
      obtain ⟨distinct, payloads, errors⟩ := ih made
      exact ⟨distinct, by simpa only [counted] using payloads, by simpa only [counted] using errors⟩
    · exact (ih made).note (mt (mem_seen_iff made chunk).2 fresh)

theorem Gathers.mem_payloads (h : Gathers chunks fusion) : (line, texts) ∈ fusion.payloads ↔
    countedAt chunks line ≠ [] ∧ texts = (countedAt chunks line).map Tagged.payload := by
  rw [mem_iff_lookup h.distinct, h.payloads]
  split
  · next none_ => simp [none_]
  · next some_ => simp [some_, eq_comm]

theorem Gathers.result? (h : Gathers chunks fusion) (line : Nat) :
    fusion.result? (line, (countedAt chunks line).map Tagged.payload) =
      if payloadsAt chunks line = [] then none else some (resultFor chunks line) := by
  have flag : fusion.errors.contains line = (countedAt chunks line).any Tagged.isError := by
    rw [Bool.eq_iff_iff, List.contains_iff_mem, h.errors, List.any_eq_true]
  have value : join payloadSeparator (payloadsAt chunks line) = [] ↔ payloadsAt chunks line = [] :=
    ⟨fun empty => by_contra fun shown => join_payloadsAt_ne_nil shown empty, fun nothing => by rw [nothing, join]⟩
  rw [Fusion.result?]
  change (if join payloadSeparator (payloadsAt chunks line) = [] then none
    else some (LineResult.mk line _ (fusion.errors.contains line))) = _
  simp only [value, flag]
  rfl

theorem line_of_result? {fusion : Fusion} (h : fusion.result? entry = some result) : result.line = entry.1 := by
  rw [Fusion.result?] at h
  split at h <;> cases h
  rfl

theorem Gathers.ascending (h : Gathers chunks fusion) : Ascending fusion.results := by
  have ordered : (fusion.payloads.mergeSort fun entry other => entry.1 ≤ other.1).Pairwise fun entry other =>
      decide (entry.1 ≤ other.1) = true := by
    apply List.pairwise_mergeSort
    · simp only [decide_eq_true_eq]
      omega
    · simp only [Bool.or_eq_true, decide_eq_true_eq]
      omega
  have distinct := List.pairwise_map.1 (((List.mergeSort_perm fusion.payloads
    fun entry other => entry.1 ≤ other.1).map Prod.fst).nodup_iff.2 h.distinct)
  rw [Ascending, results, List.pairwise_filterMap]
  refine ordered.imp₂ (fun entry other le differ result here result' there => ?_) distinct
  rw [LineResult.IsBefore, line_of_result? here, line_of_result? there]
  simp only [decide_eq_true_eq] at le
  omega

end Fusion

theorem exists_line_of_payloadsAt (shown : payloadsAt chunks line ≠ []) :
    ∃ n : Nat, line = n ∧ countedAt chunks n ≠ [] := by
  obtain ⟨payload, mem⟩ := List.exists_mem_of_ne_nil _ shown
  obtain ⟨tagged, counted, -⟩ := List.mem_map.1 (List.mem_filter.1 mem).1
  obtain rfl : (tagged.line : Int) = line := beq_iff_eq.1 (List.mem_filter.1 counted).2
  exact ⟨tagged.line, rfl, List.ne_nil_of_mem counted⟩

theorem fuse_fused (readable : ∀ chunk ∈ chunks, TagReadable chunk.text) :
    ∃ results, fuse chunks = .ok results ∧ Fused chunks results := by
  obtain ⟨fusion, made⟩ := Fusion.ofChunks_ok_iff.2 readable
  have gathers := Fusion.gathers_ofChunks made
  refine ⟨fusion.results, by rw [fuse, made]; rfl, fused_iff.2 ⟨gathers.ascending, fun result => ?_⟩⟩
  rw [Fusion.results, List.mem_filterMap]
  constructor
  · rintro ⟨⟨line, texts⟩, mem, found⟩
    obtain ⟨-, rfl⟩ := gathers.mem_payloads.1 (List.mem_mergeSort.1 mem)
    rw [gathers.result?] at found
    split at found
    · cases found
    · next shown =>
      cases found
      exact ⟨shown, rfl⟩
  · rintro ⟨shown, same⟩
    obtain ⟨line, here, counted⟩ := exists_line_of_payloadsAt shown
    rw [here] at shown same
    refine ⟨_, List.mem_mergeSort.2 (gathers.mem_payloads.2 ⟨counted, rfl⟩), ?_⟩
    rw [gathers.result?, if_neg shown, ← same]

/-! ## Other orders -/

theorem fuse_congr (readable : ∀ chunk ∈ chunks, TagReadable chunk.text)
    (readable' : ∀ chunk ∈ others, TagReadable chunk.text)
    (same : ∀ line, countedAt others line = countedAt chunks line) : fuse others = fuse chunks := by
  obtain ⟨results, fused, spec⟩ := fuse_fused readable
  obtain ⟨results', fused', spec'⟩ := fuse_fused readable'
  have payloads (line : Int) : payloadsAt others line = payloadsAt chunks line := by rw [payloadsAt, same, payloadsAt]
  have spec'' : Fused chunks results' := by
    rw [fused_iff] at spec' ⊢
    simpa only [payloads, same, resultFor] using spec'
  rw [fused, fused', spec''.unique spec]

def Chunk.isFor (chunk : Chunk) (line : Int) : Bool :=
  chunk.tag?.any fun tag : Nat => (tag : Int) == line

theorem countedAt_eq (chunks : List Chunk) (line : Int) :
    countedAt chunks line = (chunks.filter (·.isFor line)).eraseDups.filterMap Chunk.untag? := by
  rw [countedAt, unrepeated_eq, ← filter_eraseDups, List.filter_filterMap, List.filterMap_filter]
  congr 1
  funext chunk
  rw [Chunk.untag?, Chunk.isFor, Chunk.tag?]
  cases readTag? chunk.text with
  | none => rfl
  | some tag =>
    simp only [Option.map_some, Option.any_some]
    cases here : ((tag.1 : Int) == line) <;> simp [Option.filter, here]

theorem Chunk.isFor_of_tag?_ne {first second : Chunk} (differ : first.tag? ≠ second.tag?) (here : first.isFor line) :
    second.isFor line = false := by
  by_contra there
  rw [Bool.not_eq_false] at there
  simp only [Chunk.isFor, Option.any_eq_true, beq_iff_eq] at here there
  obtain ⟨tag, own, rfl⟩ := here
  obtain ⟨other, its, same⟩ := there
  rw [own, its, Int.natCast_inj.1 same] at differ
  exact differ rfl

theorem countedAt_swap (differ : first.tag? ≠ second.tag?) (before after : List Chunk) (line : Int) :
    countedAt (before ++ second :: first :: after) line = countedAt (before ++ first :: second :: after) line := by
  rw [countedAt_eq, countedAt_eq]
  simp only [List.filter_append, List.filter_cons]
  cases here : first.isFor line with
  | false => rfl
  | true =>
    rw [Chunk.isFor_of_tag?_ne differ here]
    rfl

/-- Fusing chunks gives what the chunks that count say line by line, and nothing else is described that way. Chunks of
different lines may change places, and a chunk may be repeated. -/
theorem fuse_iff_fused (chunks : List Chunk) (readable : ∀ chunk ∈ chunks, TagReadable chunk.text) :
    (∃ results, fuse chunks = .ok results ∧ ∀ other, Fused chunks other ↔ other = results) ∧
      (∀ before first second after, chunks = before ++ first :: second :: after → first.tag? ≠ second.tag? →
        fuse (before ++ second :: first :: after) = fuse chunks) ∧
      ∀ before chunk after, chunks = before ++ after → chunk ∈ before →
        fuse (before ++ chunk :: after) = fuse chunks := by
  obtain ⟨results, fused, spec⟩ := fuse_fused readable
  refine ⟨⟨results, fused, fun other => ⟨fun h => h.unique spec, fun same => same ▸ spec⟩⟩, ?_, ?_⟩
  · rintro before first second after rfl differ
    apply fuse_congr readable
    · intro chunk mem
      apply readable chunk
      simp only [List.mem_append, List.mem_cons] at mem ⊢
      tauto
    · exact countedAt_swap differ before after
  · rintro before chunk after rfl mem
    apply fuse_congr readable
    · intro other mem'
      apply readable other
      simp only [List.mem_append, List.mem_cons] at mem' ⊢
      rcases mem' with mem' | rfl | mem'
      · exact .inl mem'
      · exact .inl mem
      · exact .inr mem'
    · intro line
      rw [countedAt, countedAt, unrepeated_eq, unrepeated_eq, eraseDups_insert mem]

theorem fuse_iff_fused_sample :
    Fused [⟨"1: a\r\nb ", false⟩, ⟨"0:x", false⟩, ⟨"1: a\r\nb ", false⟩, ⟨"01: ", true⟩, ⟨"z", true⟩, ⟨"٠:y", false⟩]
        [⟨0, "x  y", false⟩, ⟨1, "a\\nb", true⟩] ∧
      fuse [⟨"0:x", false⟩, ⟨"1: a\r\nb ", false⟩, ⟨"1: a\r\nb ", false⟩, ⟨"01: ", true⟩, ⟨"z", true⟩, ⟨"٠:y", false⟩] =
        .ok [⟨0, "x  y", false⟩, ⟨1, "a\\nb", true⟩] := by
  let chunks : List Chunk :=
    [⟨"1: a\r\nb ", false⟩, ⟨"0:x", false⟩, ⟨"1: a\r\nb ", false⟩, ⟨"01: ", true⟩, ⟨"z", true⟩, ⟨"٠:y", false⟩]
  let swapped : List Chunk :=
    [⟨"0:x", false⟩, ⟨"1: a\r\nb ", false⟩, ⟨"1: a\r\nb ", false⟩, ⟨"01: ", true⟩, ⟨"z", true⟩, ⟨"٠:y", false⟩]
  have short : ∀ chunk ∈ chunks, (tagDigits chunk.text).length ≤ digitLimit := by decide +kernel
  obtain ⟨⟨results, fused, spec⟩, swap, -⟩ := fuse_iff_fused chunks fun chunk mem _ => short chunk mem
  have gathered : Fusion.ofChunks swapped = .ok ⟨swapped.eraseDups.reverse, [(0, ["x".toList, "y".toList]),
      (1, ["a\r\nb".toList, []])], [1]⟩ := by
    decide +kernel
  have known : fuse swapped = .ok [⟨0, "x  y", false⟩, ⟨1, "a\\nb", true⟩] := by
    rw [fuse, gathered]
    change Except.ok (List.filterMap _ (List.mergeSort _ _)) = _
    rw [List.mergeSort_of_pairwise (by decide)]
    decide +kernel
  have fused' := (swap [] _ _ _ rfl (by decide +kernel)).symm.trans known
  obtain rfl := Except.ok.inj (fused.symm.trans fused')
  exact ⟨(spec _).2 rfl, known⟩

end LineProbe
