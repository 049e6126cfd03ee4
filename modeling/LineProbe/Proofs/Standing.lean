import LineProbe.Proofs.Probe
import LineProbe.Proofs.Recognition
import LineProbe.Proofs.Rescan
import LineProbe.Proofs.Step

/-!
# Codes that stand as statements

A code stands as a statement if it leaves nothing open and goes on neither before its first nor behind its last
character.
-/

namespace LineProbe

open Text

structure Standing (code : Text) : Prop where
  settles : Settles code
  ends : endsWithChar code '\\' = false
  first : Starts code

theorem Standing.whole (h : Standing code) (blank : ∀ d ∈ indentation, isBlankChar d ∧ d ≠ '\n') :
    Whole (indentation ++ code) :=
  whole_of_settles blank h.settles h.ends h.first

theorem Injection.Plain.standing {what : Injection} (h : what.Plain) (origin : Int) : Standing (what.text origin) := by
  refine ⟨.of_takes (h.takes origin) rfl, ?_, h.starts origin⟩
  have slash := Reader.slash_run (show Reader.start.slash = false from rfl) (what.text origin)
  rw [← slash, (h.takes origin).run]
  rfl

/-! ## Putting texts together -/

theorem Settles.append_plain (settles : Settles front) (plain : Plain tail) : Settles (front ++ tail) := by
  by_cases empty : tail = []
  · rwa [empty, List.append_nil]
  · have behind : (⟨(Reader.start.run front).mode, 0, endsWithChar front '\\'⟩ : Reader).Takes tail ⟨.code, 0, false⟩ :=
      Reader.takes_quiet settles.settled (Int.le_refl 0) (fun c mem => (plain c mem).1) plain.newline_not_mem empty
    exact .of_takes (settles.takes.append behind) rfl

theorem Plain.endsWithChar (plain : Plain text) : endsWithChar text '\\' = false := by
  by_contra ends
  obtain ⟨before, rfl⟩ := endsWithChar_eq_true (by simpa using ends)
  exact absurd (plain '\\' (by simp)).1 (by decide)

theorem standing_append (plain : Plain front) (first : Starts front) (settles : Settles text)
    (ends : endsWithChar text '\\' = false) : Standing (front ++ text) := by
  refine ⟨settles.quiet_append (fun c mem => (plain c mem).1) plain.newline_not_mem, ?_, first.append text⟩
  by_cases empty : text = []
  · rw [empty, List.append_nil, plain.endsWithChar]
  · rw [endsWithChar_append _ empty, ends]

theorem standing_binding (temp : Temp) (settles : Settles value) (ends : endsWithChar value '\\' = false) :
    Standing (temp.name ++ " = ".toList ++ value) :=
  standing_append (plain_append.2 ⟨plain_tempName temp, by decide⟩) ((starts_tempName temp).append _) settles ends

theorem standing_bracketed (temp : Temp) (closed : Closed value) :
    Standing (temp.name ++ " = ".toList ++ ("(".toList ++ value ++ ")".toList)) := by
  have whole : "(".toList ++ value ++ ")".toList = '(' :: (value ++ [')']) := rfl
  rw [whole]
  refine standing_binding temp (.of_takes closed.bracketed rfl) ?_
  rw [← List.cons_append, endsWithChar_append _ (by simp)]
  rfl

/-! ## Calls of `print` -/

namespace Instrument

structure CommaCut (first rest : Text) : Prop where
  closed : Closed first
  others : Closed rest
  comma : ∀ c ∈ rest.head?, c = ','
  found : firstTop (charTest ',') none .code 0 (first ++ rest) = if rest = [] then none else some first.length

theorem exists_commaCut (closed : Closed text) : ∃ first rest, text = first ++ rest ∧ CommaCut first rest := by
  cases found : firstTop (charTest ',') none .code 0 text with
  | none => exact ⟨text, [], by simp, closed, ⟨trivial, rfl, rfl⟩, by rintro c ⟨⟩, by simpa using found⟩
  | some index =>
    obtain ⟨part, c, rest, rfl, rfl, reads, ground, passes⟩ := firstTop_eq_some found
    obtain rfl : c = ',' := by simpa [charTest] using passes
    obtain ⟨left, right, -⟩ := closed.cut (by decide) (by decide) reads ground
    have comma : Reader.start.Takes [','] Reader.start := Reader.takes_plain (Int.le_refl 0) (by decide)
    exact ⟨part, ',' :: rest, rfl, left, right.behind comma, by rintro c ⟨⟩; rfl, by simpa using found⟩

inductive Splices (line : Int) : Text → Text → Prop where
  | replaced {first rest : Text} (cut : CommaCut first rest) (blank : trim first = []) :
    Splices line (first ++ rest) (Probe.tag line ++ rest)
  | inserted {first rest : Text} (cut : CommaCut first rest)
    (special : (trim first).head? = some '*' ∨ isKeywordArgument (trim first) = true) :
    Splices line (first ++ rest) (Probe.tag line ++ (", " ++ (first ++ rest)))
  | shown {first rest : Text} (cut : CommaCut first rest) (filled : trim first ≠ [])
    (other : ¬ ((trim first).head? = some '*' ∨ isKeywordArgument (trim first) = true)) :
    Splices line (first ++ rest) (Probe.tag line ++ ((" + str".toList ++ '(' :: (first ++ [')'])) ++ rest))

theorem splices_splicedArguments (line : Int) (closed : Closed arguments) :
    Splices line arguments (splicedArguments line arguments) := by
  obtain ⟨first, rest, rfl, cut⟩ := exists_commaCut closed
  have comma : (findChar? (first ++ rest) ',').getD (first ++ rest).length = first.length := by
    rw [findChar?_eq (by simp), cut.found]
    split
    · next empty => simp [empty]
    · rfl
  unfold splicedArguments
  dsimp only
  rw [comma, List.take_left, List.drop_left]
  split
  · next blank => exact .replaced cut blank
  · next filled =>
    split
    · next special =>
      rw [List.append_assoc]
      exact .inserted cut special
    · next other =>
      have enter : (" + str(" : String).toList = " + str".toList ++ ['('] := by decide +kernel
      have spliced : Probe.tag line ++ " + str(".toList ++ first ++ ")".toList ++ rest =
          Probe.tag line ++ ((" + str".toList ++ '(' :: (first ++ [')'])) ++ rest) := by
        rw [enter]
        simp
      rw [spliced]
      exact .shown cut filled other

theorem CommaCut.takes (cut : CommaCut first rest) :
    Reader.start.Takes (" + str".toList ++ '(' :: (first ++ [')'])) Reader.start :=
  (Reader.takes_plain (Int.le_refl 0) (by decide)).append cut.closed.bracketed

theorem Splices.closed (h : Splices line arguments text) (closed : Closed arguments) : Closed text := by
  have tag : Reader.start.Takes (Probe.tag line) Reader.start := Reader.takes_tag (Int.le_refl 0) line
  have behind : Reader.start.Takes ", ".toList Reader.start := Reader.takes_plain (Int.le_refl 0) (by decide)
  cases h with
  | replaced cut => exact cut.others.behind tag
  | inserted => exact (closed.behind behind).behind tag
  | shown cut => exact (cut.others.behind cut.takes).behind tag

theorem call_cuts (before inner behind : Text) (close : Char) :
    (before ++ '(' :: (inner ++ close :: behind)).take (before.length + 1) = before ++ ['('] ∧
    slice (before ++ '(' :: (inner ++ close :: behind)) (before.length + 1) (before.length + 1 + inner.length) = inner ∧
    (before ++ '(' :: (inner ++ close :: behind)).drop (before.length + 1 + inner.length) = close :: behind := by
  have whole : before ++ '(' :: (inner ++ close :: behind) = (before ++ ['(']) ++ (inner ++ close :: behind) := by simp
  have length : before.length + 1 = (before ++ ['(']).length := by simp
  rw [whole, length]
  refine ⟨List.take_left, Construct.slice_append _ _ _, ?_⟩
  rw [← List.drop_drop, List.drop_left, List.drop_left]

theorem splicedBody_eq {before inner behind : Text} (whole : st.body = before ++ '(' :: (inner ++ close :: behind)) :
    splicedBody st before.length (before.length + 1 + inner.length) =
      before ++ ('(' :: (splicedArguments st.first inner ++ [close]) ++ behind) := by
  obtain ⟨taken, arguments, dropped⟩ := call_cuts before inner behind close
  rw [splicedBody, whole, arguments, taken, dropped]
  simp

theorem standing_splicedBody (h : Standing st.body)
    (found : Construct.print? st.body = some (.printCall openParen closeParen)) :
    Standing (splicedBody st openParen closeParen) := by
  obtain ⟨before, inner, close, behind, whole, rfl, rfl, chars, closed, closes, -⟩ := Construct.print?_shape found
  have quiet (c : Char) (mem : c ∈ before) := Construct.isQuiet_of_isTargetChar (chars c mem)
  have bracketed (text : Text) (closed : Closed text) : Reader.start.Takes ('(' :: (text ++ [close])) Reader.start :=
    Reader.takes_brackets rfl (Int.le_refl 0) rfl closes closed
  obtain ⟨settles, ends, c, rest, starts, notBlank⟩ := h
  obtain ⟨mode, slash, settled, taken⟩ : ∃ mode slash, mode.isSettled ∧
      Reader.start.Takes st.body ⟨mode, 0, slash⟩ := ⟨_, _, settles.settled, settles.takes⟩
  rw [whole] at taken ends starts
  have left : Reader.start.Takes before Reader.start := by
    have := taken.left
    rwa [Reader.run_start_quiet quiet] at this
  have right : Reader.start.Takes behind ⟨mode, 0, slash⟩ := by
    rw [show before ++ '(' :: (inner ++ close :: behind) = (before ++ '(' :: (inner ++ [close])) ++ behind by simp] at taken
    exact taken.right (left.append (bracketed inner closed)).run
  rw [splicedBody_eq whole]
  refine ⟨.of_takes (left.append ((bracketed _ ((splices_splicedArguments st.first closed).closed closed)).append right)) settled,
    ?_, ?_⟩
  · rw [show before ++ ('(' :: (splicedArguments st.first inner ++ [close]) ++ behind) =
      (before ++ '(' :: splicedArguments st.first inner) ++ close :: behind by simp, endsWithChar_append _ (by simp)]
    rwa [show before ++ '(' :: (inner ++ close :: behind) = (before ++ '(' :: inner) ++ close :: behind by simp,
      endsWithChar_append _ (by simp)] at ends
  · cases before with
    | nil =>
      cases starts
      exact ⟨'(', _, rfl, notBlank⟩
    | cons d before =>
      obtain ⟨rfl, -⟩ := List.cons.inj starts
      exact ⟨d, _, rfl, notBlank⟩

end Instrument

/-! ## Loop headers -/

theorem Settles.cut_found (settles : Settles code) (found : firstTop test none .code 0 code = some part.length)
    (whole : code = part ++ c :: rest) (quiet : isQuiet c) (inLine : c ≠ '\n') : Settles part ∧ Settles rest := by
  obtain ⟨before, d, behind, cut, length, reads, ground, -⟩ := firstTop_eq_some found
  obtain ⟨rfl, tail⟩ := List.append_inj (whole.symm.trans cut) length.symm
  obtain ⟨rfl, rfl⟩ := List.cons.inj tail
  rw [whole] at settles
  exact settles.cut quiet inLine reads ground

theorem Settles.before_colon (h : Settles (text ++ [':'])) : Settles text := by
  have settled := h.settled
  have depth := h.depth
  rw [Reader.run_append, Reader.run_cons, Reader.run_nil] at settled depth
  have before := Mode.settled_of_next settled (by decide) (by decide) (by decide)
  rw [Reader.next_of_quiet before (by decide)] at depth
  exact ⟨⟨h.takes.left.above, depth, before⟩, h.takes.left.held⟩

def BreaksOff (loop : Text) : Prop :=
  ∃ front blanks, loop = front ++ '\\' :: (blanks ++ [':']) ∧ ∀ c ∈ blanks, isBlankChar c = true

namespace Construct

theorem LoopShape.cut (shape : LoopShape code part body) (settles : Settles code) : Settles part ∧ Settles body := by
  obtain ⟨left, right⟩ := settles.cut_found shape.found shape.whole (by decide) (by decide)
  have behind : Settles (['n'] ++ (body ++ [':'])) := right
  exact ⟨left, (behind.behind_quiet (by decide)).before_colon⟩

theorem LoopShape.standing_iterable (shape : LoopShape code part body) (h : Standing code) (unbroken : ¬ BreaksOff code)
    (temp : Temp) : Standing (temp.name ++ " = ".toList ++ trim body) := by
  refine standing_binding temp (shape.cut h.settles).2.trim ?_
  by_contra ends
  obtain ⟨front, last⟩ := endsWithChar_eq_true (by simpa using ends)
  obtain ⟨left, right, between, -, blank⟩ := trim_between_blanks body
  refine unbroken ⟨part ++ 'i' :: 'n' :: (left ++ front), right, ?_, blank⟩
  rw [shape.whole, between, last]
  simp

theorem LoopShape.standing_head (shape : LoopShape code part body) (h : Standing code) (temp : Temp) :
    Standing (part ++ "in ".toList ++ temp.name ++ [':']) := by
  have tail : Plain ("in ".toList ++ (temp.name ++ [':'])) :=
    plain_append.2 ⟨by decide, plain_append.2 ⟨plain_tempName temp, by decide⟩⟩
  rw [List.append_assoc, List.append_assoc]
  refine ⟨(shape.cut h.settles).1.append_plain tail, ?_, ?_⟩
  · rw [endsWithChar_append _ (by simp), tail.endsWithChar]
  · obtain ⟨blank, rest, starts, -⟩ := shape.starts
    cases part with
    | nil =>
      have := shape.whole.symm.trans starts
      cases this
    | cons c part =>
      obtain ⟨rfl, -⟩ := List.cons.inj (shape.whole.symm.trans starts)
      exact ⟨'f', _, rfl, by decide⟩

/-! ## Inline compounds -/

theorem InlineShape.take (shape : InlineShape code head body) : code.take (head.length + 1) = head ++ [':'] := by
  rw [shape.whole, show head ++ ':' :: body = (head ++ [':']) ++ body by simp]
  exact List.take_left' (by simp)

theorem InlineShape.drop (shape : InlineShape code head body) : code.drop (head.length + 1) = body := by
  rw [shape.whole, show head ++ ':' :: body = (head ++ [':']) ++ body by simp]
  exact List.drop_left' (by simp)

theorem InlineShape.cut (shape : InlineShape code head body) (settles : Settles code) : Settles head ∧ Settles body :=
  settles.cut_found shape.found shape.whole (by decide) (by decide)

theorem InlineShape.head_ne_nil (shape : InlineShape code head body) : head ≠ [] := by
  rintro rfl
  have starts := shape.starts
  rw [shape.whole, List.nil_append, firstWord, nameAtStart_of_head (by rintro _ ⟨⟩; decide)] at starts
  exact absurd starts (by decide)

theorem InlineShape.standing_head (shape : InlineShape code head body) (h : Standing code) :
    Standing (head ++ [':']) := by
  have colon : Plain [':'] := by decide
  refine ⟨(shape.cut h.settles).1.append_plain colon, ?_, ?_⟩
  · rw [endsWithChar_append _ (by simp), colon.endsWithChar]
  · obtain ⟨c, rest, starts, notBlank⟩ := h.first
    obtain ⟨d, head, rfl⟩ := List.exists_cons_of_ne_nil shape.head_ne_nil
    obtain ⟨rfl, -⟩ := List.cons.inj (shape.whole.symm.trans starts)
    exact ⟨d, head ++ [':'], rfl, notBlank⟩

theorem InlineShape.standing_body (shape : InlineShape code head body) (h : Standing code) :
    Standing (trimLeft body) := by
  have filled : trimLeft body ≠ [] := by
    intro empty
    exact shape.filled (trim_eq_nil_iff.2 (trimLeft_eq_nil_iff.1 empty))
  refine ⟨(shape.cut h.settles).2.trimLeft, ?_, ?_⟩
  · have ends := h.ends
    rwa [shape.whole, ← leadingBlanks_append_trimLeft body, show head ++ ':' :: (leadingBlanks body ++ trimLeft body) =
      (head ++ ':' :: leadingBlanks body) ++ trimLeft body by simp, endsWithChar_append _ filled] at ends
  · exact starts_trimLeft filled

end Construct

end LineProbe
