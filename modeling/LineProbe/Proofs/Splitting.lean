import LineProbe.Proofs.Text
import LineProbe.Run.Splitter
import Mathlib.Data.List.Basic

/-!
# Chunks on the wire

Each line that is printed goes over the wire as its number, a colon, its payload and a newline.
-/

namespace LineProbe

open Text

/-! ## Tags -/

theorem tagDigits_append (all : ∀ c ∈ digits, isDigitChar c) (rest : Text) :
    tagDigits (digits ++ ':' :: rest) = digits := by
  have colon : isDigitChar ':' = false := by decide
  rw [tagDigits, List.takeWhile_append_of_pos all, List.takeWhile_cons, if_neg (by simp [colon]), List.append_nil]

theorem startsWithTag_iff :
    startsWithTag text ↔ ∃ digits rest, text = digits ++ ':' :: rest ∧ digits ≠ [] ∧ ∀ c ∈ digits, isDigitChar c := by
  constructor
  · intro h
    simp only [startsWithTag, Bool.and_eq_true, decide_eq_true_eq, beq_iff_eq] at h
    obtain ⟨nonempty, colon⟩ := h
    have cut : tagDigits text ++ text.drop (tagDigits text).length = text :=
      (List.prefix_iff_eq_append.1 (List.takeWhile_prefix _))
    cases behind : text.drop (tagDigits text).length with
    | nil => simp [behind] at colon
    | cons c rest =>
      rw [behind, List.head?_cons, Option.some.injEq] at colon
      rw [behind, colon] at cut
      exact ⟨tagDigits text, rest, cut.symm, by simpa using nonempty, fun c mem => List.mem_takeWhile_imp mem⟩
  · rintro ⟨digits, rest, rfl, nonempty, all⟩
    simp [startsWithTag, tagDigits_append all, nonempty]

theorem startsWithTag_append (h : startsWithTag text) (rest : Text) : startsWithTag (text ++ rest) := by
  obtain ⟨digits, after, rfl, nonempty, all⟩ := startsWithTag_iff.1 h
  exact startsWithTag_iff.2 ⟨digits, after ++ rest, by simp, nonempty, all⟩

theorem startsWithTag_append_cons (notDigit : isDigitChar c = false) (notColon : c ≠ ':') (text rest : Text) :
    startsWithTag (text ++ c :: rest) = startsWithTag text := by
  rw [Bool.eq_iff_iff]
  refine ⟨fun h => ?_, fun h => startsWithTag_append h _⟩
  obtain ⟨digits, after, whole, nonempty, all⟩ := startsWithTag_iff.1 h
  -- A tag that went on behind `text` would hold `c` as one of its digits or as its colon.
  rcases List.append_eq_append_iff.1 whole with ⟨between, rfl, behind⟩ | ⟨between, rfl, behind⟩
  · cases between with
    | nil => exact absurd (List.cons.inj behind).1 notColon
    | cons d between =>
      obtain ⟨rfl, -⟩ := List.cons.inj behind
      rw [all c (by simp)] at notDigit
      cases notDigit
  · cases between with
    | nil => exact absurd (List.cons.inj behind).1.symm notColon
    | cons d between =>
      obtain ⟨rfl, -⟩ := List.cons.inj behind
      exact startsWithTag_iff.2 ⟨digits, between, rfl, nonempty, all⟩

theorem startsWithTag_append_newline (text rest : Text) : startsWithTag (text ++ '\n' :: rest) = startsWithTag text :=
  startsWithTag_append_cons (by decide) (by decide) text rest

/-! ## Boundaries -/

def boundary? : Text → Option Text
  | '\n' :: rest => if startsWithTag rest then some rest else none
  | '\r' :: '\n' :: rest => if startsWithTag rest then some rest else none
  | _ => none

theorem boundary?_eq_some :
    boundary? text = some rest ↔ startsWithTag rest ∧ (text = '\n' :: rest ∨ text = '\r' :: '\n' :: rest) := by
  fun_cases boundary? text <;> grind

theorem boundary?_newline (rest : Text) :
    boundary? ('\n' :: rest) = if startsWithTag rest then some rest else none := by
  simp [boundary?]

theorem boundary?_other (notNewline : c ≠ '\n') (notEnd : c = '\r' → rest.head? ≠ some '\n') :
    boundary? (c :: rest) = none := by
  rw [Option.eq_none_iff_forall_ne_some]
  intro after found
  rcases (boundary?_eq_some.1 found).2 with whole | whole
  · exact notNewline (List.cons.inj whole).1
  · obtain ⟨rfl, rfl⟩ := List.cons.inj whole
    exact notEnd rfl rfl

theorem splitTagged_cons (c : Char) (rest : Text) :
    splitTagged (c :: rest) =
      match boundary? (c :: rest) with
      | some after => [] :: splitTagged after
      | none => consFirst c (splitTagged rest) := by
  have single {c : Char} {rest : Text} (notEnd : c = '\r' → rest.head? ≠ some '\n') : splitTagged (c :: rest) =
      if c = '\n' && startsWithTag rest then [] :: splitTagged rest else consFirst c (splitTagged rest) := by
    rw [splitTagged]
    rintro after rfl rfl
    exact notEnd rfl rfl
  -- Only a carriage return before a newline makes the splitter look at two characters.
  by_cases isEnd : c = '\r' ∧ rest.head? = some '\n'
  · obtain ⟨rfl, first⟩ := isEnd
    obtain ⟨after, rfl⟩ := List.head?_eq_some_iff.1 first
    rw [splitTagged, boundary?, single fun other => absurd other (by decide)]
    split <;> simp_all
  · rw [not_and] at isEnd
    rw [single isEnd]
    by_cases newline : c = '\n'
    · subst newline
      rw [boundary?_newline]
      split <;> simp_all
    · rw [boundary?_other newline isEnd]
      simp [newline]

def holdsTag : Text → Bool
  | [] => false
  | c :: rest => c == '\n' && startsWithTag rest || holdsTag rest

theorem boundary?_of_holdsTag (h : holdsTag text = false) : boundary? text = none := by
  rw [Option.eq_none_iff_forall_ne_some]
  intro rest found
  obtain ⟨tagged, rfl | rfl⟩ := boundary?_eq_some.1 found <;> simp [holdsTag, tagged] at h

theorem splitTagged_of_holdsTag (h : holdsTag text = false) : splitTagged text = [text] := by
  induction text with
  | nil => rfl
  | cons c rest ih =>
    have later : holdsTag rest = false := by
      rw [holdsTag, Bool.or_eq_false_iff] at h
      exact h.2
    rw [splitTagged_cons, boundary?_of_holdsTag h, ih later]
    rfl

theorem holdsTag_append_of_not_mem (h : '\n' ∉ text) (rest : Text) : holdsTag (text ++ rest) = holdsTag rest := by
  induction text with
  | nil => rfl
  | cons c text ih =>
    rw [List.mem_cons, not_or] at h
    simp [holdsTag, Ne.symm h.1, ih h.2]

theorem holdsTag_concat (text : Text) : holdsTag (text ++ ['\n']) = holdsTag text := by
  induction text with
  | nil => rfl
  | cons c text ih => rw [List.cons_append, holdsTag, holdsTag, startsWithTag_append_newline, ih]

/-! ## The first piece -/

structure FirstCut (text before rest : Text) : Prop where
  unsplit : holdsTag before = false
  tagged : startsWithTag rest = true
  whole : text = before ++ '\n' :: rest ∧ endsWithChar before '\r' = false ∨ text = before ++ '\r' :: '\n' :: rest

theorem FirstCut.exists_end (h : FirstCut text before rest) :
    ∃ c after, text = before ++ c :: after ∧ isDigitChar c = false ∧ c ≠ ':' := by
  rcases h.whole with ⟨rfl, -⟩ | rfl
  · exact ⟨'\n', rest, rfl, by decide, by decide⟩
  · exact ⟨'\r', '\n' :: rest, rfl, by decide, by decide⟩

theorem FirstCut.startsWithTag_eq (h : FirstCut text before rest) : startsWithTag text = startsWithTag before := by
  obtain ⟨c, after, rfl, notDigit, notColon⟩ := h.exists_end
  exact startsWithTag_append_cons notDigit notColon before after

theorem unsplit_or_firstCut (text : Text) : holdsTag text = false ∨ ∃ before rest, FirstCut text before rest := by
  induction text with
  | nil => exact .inl rfl
  | cons c rest ih =>
    cases found : boundary? (c :: rest) with
    | some after =>
      obtain ⟨tagged, whole⟩ := boundary?_eq_some.1 found
      exact .inr ⟨[], after, rfl, tagged, whole.imp (fun whole => ⟨whole, rfl⟩) id⟩
    | none =>
      have newline : (c == '\n' && startsWithTag rest) = false := by
        by_contra tagged
        simp only [Bool.not_eq_false, Bool.and_eq_true, beq_iff_eq] at tagged
        obtain ⟨rfl, tagged⟩ := tagged
        simp [boundary?_newline, tagged] at found
      rcases ih with unsplit | ⟨before, after, cut⟩
      · exact .inl (by rw [holdsTag, newline, unsplit]; rfl)
      · refine .inr ⟨c :: before, after, ?_, cut.tagged, ?_⟩
        · rw [holdsTag, ← cut.startsWithTag_eq, newline, cut.unsplit]
          rfl
        · rcases cut.whole with ⟨rfl, plain⟩ | rfl
          · refine .inl ⟨rfl, ?_⟩
            cases before with
            | nil =>
              -- Were `c` a carriage return, the boundary would begin with it and not behind it.
              by_contra last
              obtain rfl : c = '\r' := by simpa [endsWithChar] using last
              rw [List.nil_append, boundary?_eq_some.2 ⟨cut.tagged, .inr rfl⟩] at found
              cases found
            | cons d before => rwa [← List.singleton_append, endsWithChar_append _ (by simp)]
          · exact .inr rfl

theorem FirstCut.tail (h : FirstCut text (c :: before) rest) :
    ∃ after, text = c :: after ∧ FirstCut after before rest := by
  have unsplit : holdsTag before = false := by
    have unsplit := h.unsplit
    rw [holdsTag, Bool.or_eq_false_iff] at unsplit
    exact unsplit.2
  rcases h.whole with ⟨rfl, plain⟩ | rfl
  · refine ⟨_, rfl, unsplit, h.tagged, .inl ⟨rfl, ?_⟩⟩
    cases before with
    | nil => rfl
    | cons d before => rwa [← List.singleton_append, endsWithChar_append _ (by simp)] at plain
  · exact ⟨_, rfl, unsplit, h.tagged, .inr rfl⟩

theorem FirstCut.boundary? (h : FirstCut text (c :: before) rest) : boundary? text = none := by
  rw [Option.eq_none_iff_forall_ne_some]
  intro after found
  obtain ⟨tail, rfl, cut⟩ := h.tail
  obtain ⟨tagged, whole | whole⟩ := boundary?_eq_some.1 found
  · obtain ⟨rfl, rfl⟩ := List.cons.inj whole
    have unsplit := h.unsplit
    simp [holdsTag, ← cut.startsWithTag_eq, tagged] at unsplit
  · obtain ⟨rfl, rfl⟩ := List.cons.inj whole
    cases before with
    | nil =>
      rcases h.whole with ⟨-, plain⟩ | other
      · simp [endsWithChar] at plain
      · simp at other
    | cons d before =>
      obtain ⟨_, same, inner⟩ := cut.tail
      obtain ⟨rfl, rfl⟩ := List.cons.inj same
      have unsplit := cut.unsplit
      simp [holdsTag, ← inner.startsWithTag_eq, tagged] at unsplit

theorem FirstCut.splitTagged (h : FirstCut text before rest) : splitTagged text = before :: splitTagged rest := by
  induction before generalizing text with
  | nil =>
    obtain ⟨c, after, rfl, -⟩ := h.exists_end
    have found : LineProbe.boundary? (c :: after) = some rest :=
      boundary?_eq_some.2 ⟨h.tagged, h.whole.imp And.left id⟩
    rw [List.nil_append, splitTagged_cons, found]
  | cons c before ih =>
    have inside := h.boundary?
    obtain ⟨after, rfl, cut⟩ := h.tail
    rw [splitTagged_cons, inside, ih cut]
    rfl

theorem FirstCut.append (h : FirstCut text before rest) (more : Text) :
    FirstCut (text ++ more) before (rest ++ more) := by
  refine ⟨h.unsplit, startsWithTag_append h.tagged more, ?_⟩
  rcases h.whole with ⟨rfl, plain⟩ | rfl
  · exact .inl ⟨by simp, plain⟩
  · exact .inr (by simp)

theorem FirstCut.length_lt (h : FirstCut text before rest) : rest.length < text.length := by
  rcases h.whole with ⟨rfl, -⟩ | rfl <;> simp <;> omega

theorem splitTagged_ne_nil (text : Text) : splitTagged text ≠ [] := by
  rcases unsplit_or_firstCut text with unsplit | ⟨before, rest, cut⟩
  · simp [splitTagged_of_holdsTag unsplit]
  · simp [cut.splitTagged]

theorem exists_concat_splitTagged (text : Text) : ∃ pieces last, splitTagged text = pieces ++ [last] :=
  ⟨_, _, (List.dropLast_append_getLast (splitTagged_ne_nil text)).symm⟩

theorem splitTagged_append (text more : Text) :
    splitTagged (text ++ more) =
      (splitTagged text).dropLast ++ splitTagged ((splitTagged text).getLastD [] ++ more) := by
  induction size : text.length using Nat.strongRecOn generalizing text with
  | ind _ ih =>
    subst size
    -- Behind the first boundary the text is shorter, and the piece before it is complete whatever follows.
    rcases unsplit_or_firstCut text with unsplit | ⟨before, rest, cut⟩
    · rw [splitTagged_of_holdsTag unsplit]
      rfl
    · have later := ih rest.length cut.length_lt rest rfl
      obtain ⟨piece, pieces, same⟩ := List.exists_cons_of_ne_nil (splitTagged_ne_nil rest)
      rw [(cut.append more).splitTagged, cut.splitTagged, later, same]
      simp

/-! ## Feeding a splitter -/

namespace Splitter

def feedAll (splitter : Splitter) : List Text → List Text × Splitter
  | [] => ([], splitter)
  | text :: texts =>
    let (parts, splitter) := splitter.feed text
    let (later, splitter) := feedAll splitter texts
    (parts ++ later, splitter)

def chunks (texts : List Text) : List Text :=
  let (parts, splitter) := start.feedAll texts
  parts ++ splitter.flush.1

def after (text : Text) : Splitter :=
  ⟨(splitTagged text).getLastD []⟩

theorem feed_after (seen text : Text) :
    ((splitTagged seen).dropLast ++ ((after seen).feed text).1, ((after seen).feed text).2) =
      ((splitTagged (seen ++ text)).dropLast, after (seen ++ text)) := by
  obtain ⟨pieces, last, same⟩ := exists_concat_splitTagged ((splitTagged seen).getLastD [] ++ text)
  rw [feed, after, after, splitTagged_append seen text, same, ← List.append_assoc]
  simp only [List.dropLast_concat, List.getLastD_concat]

theorem feedAll_after (seen : Text) (texts : List Text) :
    ((splitTagged seen).dropLast ++ ((after seen).feedAll texts).1, ((after seen).feedAll texts).2) =
      ((splitTagged (seen ++ texts.flatten)).dropLast, after (seen ++ texts.flatten)) := by
  induction texts generalizing seen with
  | nil => simp [feedAll]
  | cons text texts ih =>
    obtain ⟨parts, fed⟩ := Prod.mk.inj (feed_after seen text)
    rw [List.flatten_cons, ← List.append_assoc, ← ih, feedAll, ← parts, ← fed]
    simp

theorem chunks_eq (texts : List Text) :
    chunks texts = (splitTagged texts.flatten).dropLast ++ (after texts.flatten).flush.1 := by
  obtain ⟨parts, fed⟩ := Prod.mk.inj (feedAll_after [] texts)
  rw [List.nil_append] at parts fed
  rw [chunks, ← parts, ← fed]
  rfl

end Splitter

/-! ## Emissions -/

theorem digitValue?_of_isDigit (h : c.isDigit) : digitValue? c = some (c.toNat - '0'.toNat) := by
  have ascii : c.toNat < 0x80 := Nat.lt_of_le_of_lt (Char.isDigit_iff_toNat.1 h).2 (by decide)
  rw [digitValue?, if_pos ascii, if_pos h]

theorem digitsValue_ofNat (n : Nat) : digitsValue (ofNat n) = n := by
  have values : ∀ c ∈ ofNat n, digitValue? c = some (c.toNat - '0'.toNat) :=
    fun c mem => digitValue?_of_isDigit (isDigit_of_mem_ofNat mem)
  calc digitsValue (ofNat n)
      = (ofNat n).foldl (fun value c => 10 * value + (c.toNat - '0'.toNat)) 0 :=
        List.foldl_ext _ _ _ fun value c mem => by rw [values c mem]; rfl
    _ = n := Nat.ofDigitChars_ten_toDigits

structure Emission where
  line : Nat
  payload : Text
deriving DecidableEq, Repr

namespace Emission

def chunk (emission : Emission) : Text :=
  ofNat emission.line ++ ':' :: emission.payload

def wire (emission : Emission) : Text :=
  emission.chunk ++ ['\n']

/-- Emissions that can be told apart on the wire: the number can be read, no line of the payload looks
like another emission, and the payload does not run into the line end behind it. -/
structure Sendable (emission : Emission) : Prop where
  readable : (ofNat emission.line).length ≤ digitLimit
  untagged : holdsTag emission.payload = false
  closed : endsWithChar emission.payload '\r' = false

theorem isDigitChar_of_mem_ofNat (h : c ∈ ofNat n) : isDigitChar c := by
  rw [isDigitChar, digitValue?_of_isDigit (isDigit_of_mem_ofNat h)]
  rfl

theorem startsWithTag_chunk (emission : Emission) : startsWithTag emission.chunk :=
  startsWithTag_iff.2 ⟨_, _, rfl, Nat.toDigits_ne_nil, fun _ => isDigitChar_of_mem_ofNat⟩

theorem parseTag_chunk {emission : Emission} (h : emission.Sendable) :
    parseTag emission.chunk = .ok (some (emission.line, emission.payload)) := by
  have digits : tagDigits emission.chunk = ofNat emission.line :=
    tagDigits_append (fun _ => isDigitChar_of_mem_ofNat) _
  have read : readDigits (ofNat emission.line) = .ok emission.line := by
    rw [readDigits, if_neg (Nat.not_lt.2 h.readable), digitsValue_ofNat]
  rw [parseTag, digits, if_pos emission.startsWithTag_chunk, read]
  simp [chunk, pure, Except.pure, bind, Except.bind]

theorem Sendable.holdsTag_chunk {emission : Emission} (h : emission.Sendable) : holdsTag emission.chunk = false := by
  have number : '\n' ∉ ofNat emission.line := fun mem => by cases isDigit_of_mem_ofNat mem
  rw [chunk, holdsTag_append_of_not_mem number, holdsTag, h.untagged]
  rfl

theorem Sendable.endsWithChar_chunk {emission : Emission} (h : emission.Sendable) :
    endsWithChar emission.chunk '\r' = false := by
  rw [chunk, endsWithChar_append _ (by simp)]
  cases payload : emission.payload with
  | nil => rfl
  | cons c rest =>
    rw [← List.singleton_append, endsWithChar_append _ (by simp), ← payload]
    exact h.closed

theorem Sendable.firstCut {emission next : Emission} (h : emission.Sendable) (later : Text) :
    FirstCut (emission.wire ++ (next.wire ++ later)) emission.chunk (next.wire ++ later) where
  unsplit := h.holdsTag_chunk
  tagged := startsWithTag_append (startsWithTag_append next.startsWithTag_chunk _) _
  whole := .inl ⟨by simp [wire], h.endsWithChar_chunk⟩

theorem splitTagged_wires (sendable : ∀ e ∈ emissions ++ [last], e.Sendable) :
    splitTagged ((emissions ++ [last]).flatMap wire) = emissions.map chunk ++ [last.wire] := by
  induction emissions with
  | nil =>
    have h := sendable last (by simp)
    have whole : holdsTag last.wire = false := by rw [wire, holdsTag_concat, h.holdsTag_chunk]
    simpa using splitTagged_of_holdsTag whole
  | cons first emissions ih =>
    have h := sendable first (by simp)
    have later := ih fun e mem => sendable e (by simp_all)
    obtain ⟨next, rest, same⟩ := List.exists_cons_of_ne_nil (List.concat_ne_nil last emissions)
    rw [List.cons_append, List.flatMap_cons, same, List.flatMap_cons, (h.firstCut _).splitTagged,
      ← List.flatMap_cons, ← same, later]
    rfl

theorem flush_wire {emission : Emission} (h : emission.Sendable) :
    (Splitter.flush ⟨emission.wire⟩).1 = [emission.chunk] := by
  have last : Splitter.withoutLineEnd emission.wire = emission.chunk := by
    rw [Splitter.withoutLineEnd, wire, if_pos (endsWithChar_concat _ _), List.dropLast_concat,
      if_neg (by simp [h.endsWithChar_chunk])]
  rw [Splitter.flush, last, if_neg (by simp [chunk])]

end Emission

/-- Whatever pieces the text of some emissions is cut into, the splitter gives their chunks in order, and each
chunk gives back its line and its payload. -/
theorem chunks_of_wires (emissions : List Emission) (sendable : ∀ e ∈ emissions, e.Sendable)
    (texts : List Text) (cut : texts.flatten = emissions.flatMap Emission.wire) :
    Splitter.chunks texts = emissions.map Emission.chunk ∧
      (Splitter.chunks texts).map parseTag = emissions.map fun e => .ok (some (e.line, e.payload)) := by
  have whole : Splitter.chunks texts = emissions.map Emission.chunk := by
    rw [Splitter.chunks_eq, cut]
    rcases List.eq_nil_or_concat emissions with rfl | ⟨emissions, last, rfl⟩
    · rfl
    · rw [List.concat_eq_append] at sendable ⊢
      rw [Splitter.after, Emission.splitTagged_wires sendable, List.dropLast_concat, List.getLastD_concat,
        Emission.flush_wire (sendable last (by simp)), List.map_append]
      rfl
  refine ⟨whole, ?_⟩
  rw [whole, List.map_map]
  exact List.map_congr_left fun e mem => Emission.parseTag_chunk (sendable e mem)

theorem chunks_of_wires_sample :
    Splitter.chunks [['1'], "2:a\r", "\n7 b\n\n", [], "3", ":\n0", ":x:\n"] = ["12:a\r\n7 b\n", "3:", "0:x:"] ∧
      (Splitter.chunks [['1'], "2:a\r", "\n7 b\n\n", [], "3", ":\n0", ":x:\n"]).map parseTag =
        [.ok (some (12, "a\r\n7 b\n")), .ok (some (3, [])), .ok (some (0, "x:"))] :=
  chunks_of_wires [⟨12, "a\r\n7 b\n"⟩, ⟨3, []⟩, ⟨0, "x:"⟩]
    (by
      intro e mem
      simp only [List.mem_cons, List.not_mem_nil, or_false] at mem
      rcases mem with rfl | rfl | rfl <;> exact ⟨by decide, by decide, by decide⟩)
    _ (by decide)

end LineProbe
