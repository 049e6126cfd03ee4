import LineProbe.Proofs.Splitting

/-!
# Nothing is lost between chunks

Whatever output is cut into reads, the splitter gives the chunks of the whole, and only line ends are missing from
them: one between each two chunks, and at most one behind the last.
-/

namespace LineProbe

open Text

def BeginsTagged (text : Text) : Prop :=
  ∃ digits rest, text = digits ++ ':' :: rest ∧ digits ≠ [] ∧ ∀ c ∈ digits, isDigitChar c = true

def lineEnds : List Text :=
  [['\n'], ['\r', '\n']]

/-- A text made up of chunks with a line end between each two of them. -/
inductive Rejoins : List Text → Text → Prop where
  | nil : Rejoins [] []
  | last (chunk : Text) : Rejoins [chunk] chunk
  | cons {chunk ending text : Text} {chunks : List Text} (ends : ending ∈ lineEnds) (others : chunks ≠ [])
    (later : Rejoins chunks text) : Rejoins (chunk :: chunks) (chunk ++ ending ++ text)

theorem holdsTag_iff : holdsTag text ↔ ∃ before rest, text = before ++ '\n' :: rest ∧ startsWithTag rest := by
  induction text with
  | nil => simp [holdsTag]
  | cons c text ih =>
    rw [holdsTag, Bool.or_eq_true, Bool.and_eq_true, beq_iff_eq, ih]
    constructor
    · rintro (⟨rfl, tagged⟩ | ⟨before, rest, rfl, tagged⟩)
      · exact ⟨[], text, rfl, tagged⟩
      · exact ⟨c :: before, rest, rfl, tagged⟩
    · rintro ⟨before, rest, whole, tagged⟩
      rcases List.cons_eq_append_iff.1 whole with ⟨rfl, here⟩ | ⟨before, rfl, rfl⟩
      · obtain ⟨rfl, rfl⟩ := List.cons.inj here
        exact .inl ⟨rfl, tagged⟩
      · exact .inr ⟨before, rest, rfl, tagged⟩

theorem holdsTag_of_append (h : holdsTag (text ++ rest) = false) : holdsTag text = false := by
  by_contra holds
  obtain ⟨before, after, rfl, tagged⟩ := holdsTag_iff.1 (by simpa using holds)
  have whole : holdsTag (before ++ '\n' :: after ++ rest) :=
    holdsTag_iff.2 ⟨before, after ++ rest, by simp, startsWithTag_append tagged rest⟩
  rw [whole] at h
  cases h

theorem startsWithTag_behind_lineEnd (unsplit : holdsTag (before ++ ending ++ rest) = false) (ends : ending ∈ lineEnds) :
    startsWithTag rest = false := by
  by_contra tagged
  have whole : holdsTag (before ++ ending ++ rest) := by
    simp only [lineEnds, List.mem_cons, List.not_mem_nil, or_false] at ends
    rw [holdsTag_iff]
    rcases ends with rfl | rfl
    · exact ⟨before, rest, by simp, by simpa using tagged⟩
    · exact ⟨before ++ ['\r'], rest, by simp, by simpa using tagged⟩
  rw [whole] at unsplit
  cases unsplit

/-! ## Pieces of a text -/

theorem splitInduction {motive : Text → Prop} (unsplit : ∀ text, holdsTag text = false → motive text)
    (cut : ∀ text before rest, FirstCut text before rest → motive rest → motive text) (text : Text) : motive text := by
  induction size : text.length using Nat.strongRecOn generalizing text with
  | ind _ ih =>
    subst size
    rcases unsplit_or_firstCut text with whole | ⟨before, rest, first⟩
    · exact unsplit text whole
    · exact cut text before rest first (ih _ first.length_lt rest rfl)

theorem rejoins_splitTagged (text : Text) : Rejoins (splitTagged text) text := by
  induction text using splitInduction with
  | unsplit text whole =>
    rw [splitTagged_of_holdsTag whole]
    exact .last text
  | cut text before rest first ih =>
    have joined (ending : Text) (ends : ending ∈ lineEnds) :
        Rejoins (before :: splitTagged rest) (before ++ ending ++ rest) := ih.cons ends (splitTagged_ne_nil rest)
    rw [first.splitTagged]
    rcases first.whole with ⟨rfl, -⟩ | rfl
    · simpa using joined ['\n'] (by simp [lineEnds])
    · simpa using joined ['\r', '\n'] (by simp [lineEnds])

theorem holdsTag_of_mem_splitTagged (text : Text) : ∀ piece ∈ splitTagged text, holdsTag piece = false := by
  induction text using splitInduction with
  | unsplit text whole =>
    rw [splitTagged_of_holdsTag whole]
    exact List.forall_mem_singleton.2 whole
  | cut text before rest first ih =>
    rw [first.splitTagged]
    exact List.forall_mem_cons.2 ⟨first.unsplit, ih⟩

theorem startsWithTag_of_mem_splitTagged (text : Text) (tagged : startsWithTag text) :
    ∀ piece ∈ splitTagged text, startsWithTag piece := by
  induction text using splitInduction with
  | unsplit text whole =>
    rw [splitTagged_of_holdsTag whole]
    exact List.forall_mem_singleton.2 tagged
  | cut text before rest first ih =>
    rw [first.splitTagged]
    exact List.forall_mem_cons.2 ⟨by rwa [← first.startsWithTag_eq], ih first.tagged⟩

theorem startsWithTag_of_mem_tail (text : Text) : ∀ piece ∈ (splitTagged text).tail, startsWithTag piece := by
  rcases unsplit_or_firstCut text with whole | ⟨before, rest, first⟩
  · simp [splitTagged_of_holdsTag whole]
  · rw [first.splitTagged]
    exact startsWithTag_of_mem_splitTagged rest first.tagged

/-! ## The last chunk -/

theorem Rejoins.shorten {last ending text : Text} (h : Rejoins (pieces ++ [last ++ ending]) text) :
    ∃ front, text = front ++ ending ∧ Rejoins (pieces ++ [last]) front := by
  induction pieces generalizing text with
  | nil =>
    rw [List.nil_append] at h
    cases h with
    | last => exact ⟨last, rfl, .last last⟩
    | cons _ others _ => exact absurd rfl others
  | cons piece pieces ih =>
    generalize whole : piece :: pieces ++ [last ++ ending] = all at h
    cases h with
    | nil => cases whole
    | last => simp at whole
    | @cons _ between _ _ ends _ later =>
      obtain ⟨rfl, rfl⟩ := List.cons.inj whole
      obtain ⟨front, rfl, shorter⟩ := ih later
      exact ⟨piece ++ between ++ front, by simp, shorter.cons ends (by simp)⟩

theorem withoutLineEnd_append (text : Text) :
    ∃ ending, text = Splitter.withoutLineEnd text ++ ending ∧ (ending = [] ∨ ending ∈ lineEnds) := by
  unfold Splitter.withoutLineEnd
  split
  · next newline =>
    obtain ⟨line, rfl⟩ := endsWithChar_eq_true newline
    dsimp only
    rw [List.dropLast_concat]
    split
    · next carriage =>
      obtain ⟨front, rfl⟩ := endsWithChar_eq_true carriage
      exact ⟨['\r', '\n'], by simp, .inr (by simp [lineEnds])⟩
    · exact ⟨['\n'], rfl, .inr (by simp [lineEnds])⟩
  · exact ⟨[], by simp, .inl rfl⟩

theorem startsWithTag_append_lineEnd (h : ending = [] ∨ ending ∈ lineEnds) (text : Text) :
    startsWithTag (text ++ ending) = startsWithTag text := by
  simp only [lineEnds, List.mem_cons, List.not_mem_nil, or_false] at h
  rcases h with rfl | rfl | rfl
  · rw [List.append_nil]
  · exact startsWithTag_append_newline text []
  · exact startsWithTag_append_cons (by decide) (by decide) text ['\n']

theorem chunks_cases (texts : List Text) :
    ∃ pieces last ending, splitTagged texts.flatten = pieces ++ [last ++ ending] ∧ (ending = [] ∨ ending ∈ lineEnds) ∧
      (Splitter.chunks texts = pieces ++ [last] ∨ Splitter.chunks texts = [] ∧ pieces = [] ∧ last = []) := by
  obtain ⟨pieces, tail, same⟩ := exists_concat_splitTagged texts.flatten
  obtain ⟨ending, whole, ends⟩ := withoutLineEnd_append tail
  have chunks : Splitter.chunks texts = pieces ++ (Splitter.flush ⟨tail⟩).1 := by
    rw [Splitter.chunks_eq, Splitter.after, same, List.dropLast_concat, List.getLastD_concat]
  refine ⟨pieces, Splitter.withoutLineEnd tail, ending, by rw [← whole, same], ends, ?_⟩
  rw [chunks, Splitter.flush]
  by_cases empty : Splitter.withoutLineEnd tail = []
  · -- A piece behind a boundary begins with a tag, and no tag is left in a line end.
    have single : pieces = [] := by
      by_contra several
      obtain ⟨piece, others, rfl⟩ := List.exists_cons_of_ne_nil several
      have tagged := startsWithTag_of_mem_tail texts.flatten tail (by simp [same])
      rw [whole, empty, startsWithTag_append_lineEnd ends] at tagged
      cases tagged
    simp [single, empty]
  · simp [empty]

theorem rejoins_chunks (texts : List Text) :
    ∃ front ending, Rejoins (Splitter.chunks texts) front ∧ texts.flatten = front ++ ending ∧
      (ending = [] ∨ ending ∈ lineEnds) := by
  obtain ⟨pieces, last, ending, same, ends, chunks⟩ := chunks_cases texts
  have rejoined := rejoins_splitTagged texts.flatten
  rw [same] at rejoined
  obtain ⟨front, whole, shorter⟩ := rejoined.shorten
  rcases chunks with chunks | ⟨chunks, rfl, rfl⟩
  · exact ⟨front, ending, by rwa [chunks], whole, ends⟩
  · cases shorter with
    | last => exact ⟨[], ending, by rw [chunks]; exact .nil, whole, ends⟩
    | cons _ others _ => exact absurd rfl others

theorem beginsTagged_of_mem_tail_chunks (texts : List Text) : ∀ chunk ∈
    (Splitter.chunks texts).tail, BeginsTagged chunk := by
  obtain ⟨pieces, last, ending, same, ends, chunks | ⟨chunks, -, -⟩⟩ := chunks_cases texts
  · have tagged := startsWithTag_of_mem_tail texts.flatten
    rw [same] at tagged
    rw [chunks]
    cases pieces with
    | nil => simp
    | cons piece pieces =>
      rw [List.cons_append, List.tail_cons, List.forall_mem_append, List.forall_mem_singleton] at tagged ⊢
      refine ⟨fun chunk mem => startsWithTag_iff.1 (tagged.1 chunk mem), startsWithTag_iff.1 ?_⟩
      rw [← startsWithTag_append_lineEnd ends last]
      exact tagged.2
  · simp [chunks]

theorem holdsTag_of_mem_chunks (texts : List Text) : ∀ chunk ∈ Splitter.chunks texts, holdsTag chunk = false := by
  obtain ⟨pieces, last, ending, same, -, chunks | ⟨chunks, -, -⟩⟩ := chunks_cases texts
  · have unsplit := holdsTag_of_mem_splitTagged texts.flatten
    rw [same, List.forall_mem_append, List.forall_mem_singleton] at unsplit
    rw [chunks, List.forall_mem_append, List.forall_mem_singleton]
    exact ⟨unsplit.1, holdsTag_of_append unsplit.2⟩
  · simp [chunks]

/-- However output is cut into reads, its chunks are those of the whole. With a line end put back between each two
of them they are the whole, up to at most one line end behind it. Each chunk but the first begins with digits and a
colon, and none has a line end directly before digits and a colon. -/
theorem chunks_lossless (texts : List Text) :
    Splitter.chunks texts = Splitter.chunks [texts.flatten] ∧
      (∃ front ending, Rejoins (Splitter.chunks texts) front ∧ texts.flatten = front ++ ending ∧
        (ending = [] ∨ ending ∈ lineEnds)) ∧
      (∀ chunk ∈ (Splitter.chunks texts).tail, BeginsTagged chunk) ∧
      ∀ chunk ∈ Splitter.chunks texts, ∀ before rest, ∀ ending ∈ lineEnds,
        chunk = before ++ ending ++ rest → ¬ BeginsTagged rest := by
  refine ⟨by simp [Splitter.chunks_eq], rejoins_chunks texts, beginsTagged_of_mem_tail_chunks texts, ?_⟩
  intro chunk mem before rest ending ends whole tagged
  have unsplit := holdsTag_of_mem_chunks texts chunk mem
  rw [whole] at unsplit
  have untagged := startsWithTag_behind_lineEnd unsplit ends
  rw [startsWithTag_iff.2 tagged] at untagged
  cases untagged

theorem chunks_lossless_sample :
    Splitter.chunks ["x\n1", ":a\r", "\n2:b\n\n"] = Splitter.chunks ["x\n1:a\r\n2:b\n\n"] ∧
      BeginsTagged "2:b\n".toList ∧ ¬ BeginsTagged [] :=
  have lossless := chunks_lossless ["x\n1", ":a\r", "\n2:b\n\n"]
  ⟨lossless.1, lossless.2.2.1 "2:b\n" (by decide),
    lossless.2.2.2 "2:b\n" (by decide) "2:b" [] ['\n'] (by decide) (by decide)⟩

end LineProbe
