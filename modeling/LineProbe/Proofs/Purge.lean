import LineProbe.Proofs.Silence

/-!
# Codes without their blocking calls

The blocking calls of a code cut it into gaps, and the code with the calls replaced has guarded values between the
same gaps.
-/

namespace LineProbe

open Text

/-! ## Gaps between calls -/

theorem spansBehind_cases (before text : Text)
    (closed : ∀ call ∈ blockingCalls (before ++ text), (matchingBracket? (before ++ text) call.openParen).isSome) :
    spansBehind before text = [] ∧ Silent [] before.getLast? (Mode.code.run before) text ∨
      ∃ gap first rest, text = gap ++ (first ++ rest) ∧ Operand first ∧
        (Mode.code.run (before ++ gap)).isSettled ∧
        Silent (first ++ rest) before.getLast? (Mode.code.run before) gap ∧
        spansBehind before text =
          ⟨(before ++ gap).length, (before ++ gap ++ first).length⟩ :: spansBehind (before ++ gap ++ first) rest := by
  induction text generalizing before with
  | nil => exact .inl ⟨by rw [spansBehind, callsFrom, collectSpans], silent_nil _ _ _⟩
  | cons c text ih =>
    by_cases hit : before.getLast?.any joins = false ∧ (Mode.code.run before).isSettled ∧ Opens (c :: text)
    · obtain ⟨alone, settled, opens⟩ := hit
      obtain ⟨⟨name, offset⟩, found⟩ := Option.isSome_iff_exists.1 (callAtStart?_isSome_iff.2 opens)
      have listed : (⟨name, before.length, before.length + offset⟩ : NamedCall) ∈ blockingCalls (before ++ c :: text) :=
        mem_blockingCalls_iff.2 ⟨before, c :: text, offset, rfl, alone, settled, found, rfl, rfl⟩
      obtain ⟨close, closing⟩ := Option.isSome_iff_exists.1 (closed _ listed)
      obtain ⟨first, rest, whole, call, -⟩ := exists_blockingCall found settled closing
      have spans := spansBehind_call alone settled call rest
      rw [← whole] at spans
      exact .inr ⟨[], first, rest, whole, call.operand, by simpa using settled, silent_nil _ _ _, by simpa using spans⟩
    · have free (alone : before.getLast?.any joins = false) (settled : (Mode.code.run before).isSettled) :
          ¬ Opens (c :: text) :=
        fun opens => hit ⟨alone, settled, opens⟩
      have shift : before ++ c :: text = (before ++ [c]) ++ text := by simp
      have last : (before ++ [c]).getLast? = some c := List.getLast?_concat
      rw [shift] at closed
      rw [spansBehind_cons free]
      rcases ih (before ++ [c]) closed with ⟨spans, silent⟩ | ⟨gap, first, rest, rfl, operand, settled, silent, spans⟩
      · refine .inl ⟨spans, silent_cons.2 ⟨by simpa using free, ?_⟩⟩
        rwa [last, Mode.run_append] at silent
      · refine .inr ⟨c :: gap, first, rest, rfl, operand, by simpa using settled, silent_cons.2 ⟨free, ?_⟩, ?_⟩
        · rwa [last, Mode.run_append] at silent
        · simpa using spans

/-! ## Replacing calls -/

structure Mute (value : Text) : Prop where
  operand : Operand value
  enclosed : Enclosed value
  silent : ∀ (behind : Text) (previous : Option Char) (mode : Mode), mode.isSettled = true →
    Silent behind previous mode value

theorem Mute.stops (h : Mute value) (rest : Text) : Stops (value ++ rest) := by
  cases h.enclosed with
  | intro inner =>
    rintro c ⟨⟩
    decide

theorem silent_replaceSpans (values : ∀ site, Mute (value site)) (before text : Text) (site : Nat)
    (closed : ∀ call ∈ blockingCalls (before ++ text), (matchingBracket? (before ++ text) call.openParen).isSome)
    (apart : ∀ span ∈ spansBehind before text, endsInName ((before ++ text).take span.start) = false)
    (last : behind = [] ∨ behind = ['('] ∧ endsInName (before ++ text) = false) :
    Silent behind before.getLast? (Mode.code.run before)
      (replaceSpans (before ++ text) value before.length site (spansBehind before text)) := by
  induction size : text.length using Nat.strongRecOn generalizing before text site with
  | ind size_ ih =>
    subst size
    rcases spansBehind_cases before text closed with
      ⟨spans, silent⟩ | ⟨gap, first, rest, rfl, operand, settled, silent, spans⟩
    · rw [spans, replaceSpans, List.drop_left]
      rcases last with rfl | ⟨rfl, free⟩
      · exact silent
      · exact silent.paren free
    · have shift : before ++ (gap ++ (first ++ rest)) = (before ++ gap ++ first) ++ rest := by simp
      have cut : (before ++ (gap ++ (first ++ rest))).take (before ++ gap).length = before ++ gap := by
        rw [← List.append_assoc, List.take_left]
      have between : slice (before ++ (gap ++ (first ++ rest))) before.length (before ++ gap).length = gap := by
        rw [slice, cut, List.drop_left]
      rw [spans, List.forall_mem_cons, cut] at apart
      have shorter : rest.length < (gap ++ (first ++ rest)).length := by
        have := List.length_pos_iff.2 operand.ne_nil
        simp only [List.length_append]
        omega
      rw [shift] at closed apart last
      have later := ih rest.length shorter (before ++ gap ++ first) rest (site + 1) closed apart.2 last rfl
      rw [spans, replaceSpans, between, List.append_assoc, silent_append, silent_append, shift]
      have mute := values site
      have inside : ((Mode.code.run before).run gap).isSettled := by rwa [← Mode.run_append]
      refine ⟨?_, mute.silent _ _ _ inside, ?_⟩
      · rw [List.append_assoc]
        exact (silent.paren apart.1).before (mute.stops _)
      · rw [mute.operand.mode_run inside]
        rw [Mode.run_append, operand.mode_run settled] at later
        exact later.behind_of fun _ => operand.joins_getLast? _

/-! ## Guarded values -/

theorem silent_of_calls (h : blockingCalls (text ++ ['(']) = []) : Silent ['('] none .code text :=
  (silent_append.1 (blockingCalls_eq_nil_iff.1 h)).1

theorem stops_closer (rest : Text) : Stops (')' :: rest) := by
  rintro c ⟨⟩
  decide

theorem not_opensParen_closer (rest : Text) : ¬ OpensParen (')' :: rest) := by
  rw [OpensParen, trimLeft_of_head (by simp; decide)]
  simp

theorem silent_parenthesized {inner : Text} (settled : mode.isSettled) (h : Silent [] (some '(') .code inner) :
    Silent behind previous mode ('(' :: (inner ++ [')'])) := by
  have outside {c : Char} (other : joins c = false) (rest : Text) : ¬ Opens (c :: rest) := by
    intro opens
    rw [opens.joins_head] at other
    cases other
  rw [silent_cons, Mode.next_of_readsCode (Mode.readsCode_of_settled settled (by decide)), silent_append]
  refine ⟨fun _ _ => outside (by decide) _, h.inert (stops_closer _) (not_opensParen_closer _), silent_cons.2 ⟨?_, ?_⟩⟩
  · exact fun _ _ => outside (by decide) _
  · exact silent_nil _ _ _

theorem silent_call (harmless : Silent ['('] none .code name) (plain : Plain name)
    (h : Silent [] (some '(') .code arguments) :
    Silent behind previous .code (name ++ '(' :: (arguments ++ [')'])) := by
  rw [silent_append]
  refine ⟨?_, silent_parenthesized (Mode.depthRun_quiet rfl (fun c mem => (plain c mem).1) 0).1 h⟩
  exact harmless.of_none.before (by rintro c ⟨⟩; decide)

theorem paren_not_mem_of_plain (plain : Plain text) : '(' ∉ text :=
  fun mem => absurd (plain _ mem).1 (by decide)

theorem silent_plain (free : '(' ∉ text) : Silent [] previous mode text :=
  silent_of_no_paren free (by rintro c ⟨⟩) (by simp [OpensParen, trimLeft])

theorem silent_guardCall (plain : Plain site) (line limit : Int) :
    Silent behind previous .code (Probe.guardCall site line limit) := by
  rw [Reader.guardCall_eq]
  refine silent_call (silent_of_calls (by decide +kernel)) (by decide) (silent_plain ?_)
  simp only [List.mem_append, List.mem_cons, not_or]
  refine ⟨⟨by decide, paren_not_mem_of_plain plain, by decide⟩, ?_⟩
  exact ⟨⟨⟨by decide, paren_not_mem_of_plain (plain_ofInt line)⟩, by decide⟩, paren_not_mem_of_plain (plain_ofInt limit)⟩

theorem plain_siteName (number : Nat) : Plain (Probe.siteName number) :=
  plain_cons.2 ⟨by decide, plain_ofNat number⟩

theorem mute_guardedValue (number : Nat) (line limit : Int) (silent : Silent [] none .code value)
    (closed : Closed value) : Mute (Probe.guardedValue (Probe.siteName number) line limit value) := by
  refine ⟨(bracketed_guardedValue number line limit closed).operand, enclosed_guardedValue number line limit value, ?_⟩
  intro behind previous mode settled
  rw [guardedValue_eq]
  refine silent_parenthesized settled (silent_append.2 ⟨silent_guardCall (plain_siteName number) line limit, ?_⟩)
  have guarded : Reader.start.Takes (Probe.guardCall (Probe.siteName number) line limit) Reader.start :=
    Reader.takes_guardCall (Int.le_refl 0) (by simp [Probe.siteName]) (plain_siteName number) _ _
  have reached : Mode.code.run (Probe.guardCall (Probe.siteName number) line limit) = .code := by
    have := Reader.mode_run Reader.start (Probe.guardCall (Probe.siteName number) line limit)
    rw [guarded.run] at this
    exact this.symm
  rw [reached]
  exact silent_call (silent_of_calls (by decide +kernel)) (by decide) silent.of_none

structure Directives.Sound (directives : Directives) : Prop where
  silent : ∀ mock ∈ directives.mock, blockingCalls mock = []
  closed : ∀ mock ∈ directives.mock, Closed mock

theorem silent_mockValue (h : directives.Sound) :
    Silent [] none .code (mockValue directives) ∧ Closed (mockValue directives) := by
  have empty : Silent [] none .code "\"\"".toList ∧ Closed "\"\"".toList :=
    ⟨blockingCalls_eq_nil_iff.1 (by decide +kernel), ⟨by decide, by decide, trivial⟩, rfl, rfl⟩
  unfold mockValue
  split
  · exact empty
  · exact empty
  · next mock _ given => exact ⟨blockingCalls_eq_nil_iff.1 (h.silent mock given), h.closed mock given⟩

theorem silent_substituteBlocking (line callLimit : Int) (site : Nat) (sound : directives.Sound)
    (closed : ∀ call ∈ blockingCalls code, (matchingBracket? code call.openParen).isSome)
    (apart : ∀ span ∈ blockingSpans code, endsInName (code.take span.start) = false)
    (last : behind = [] ∨ behind = ['('] ∧ endsInName code = false) :
    Silent behind none .code (substituteBlocking code line directives callLimit site).1 := by
  obtain ⟨silent, balanced⟩ := silent_mockValue sound
  exact silent_replaceSpans (fun number => mute_guardedValue number line _ silent balanced) [] code site closed apart last

theorem silent_of_not_hasBlockingCall
    (closed : ∀ call ∈ blockingCalls code, (matchingBracket? code call.openParen).isSome)
    (free : hasBlockingCall code = false) (last : behind = [] ∨ behind = ['('] ∧ endsInName code = false) :
    Silent behind none .code code := by
  have none_ : spansBehind [] code = [] := by
    have : blockingSpans code = [] := by simpa [hasBlockingCall] using free
    exact this
  rcases spansBehind_cases [] code closed with ⟨-, silent⟩ | ⟨gap, first, rest, -, -, -, -, spans⟩
  · rcases last with rfl | ⟨rfl, bare⟩
    · exact silent
    · exact silent.paren bare
  · rw [none_] at spans
    cases spans

end LineProbe
