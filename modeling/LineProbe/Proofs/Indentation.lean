import LineProbe.Config.Indent
import LineProbe.Proofs.Text
import Mathlib.Logic.Relation

/-!
# Measuring indentation

Measuring undoes writing: the level of a line is the number of units that stand at its front one behind the other, and
counting them comes to an end since a unit is never empty.
-/

namespace LineProbe

open Text

namespace IndentConfig

theorem size_pos (config : IndentConfig) : 0 < config.size := by
  cases mode : config.mode <;> simp [size, mode, config.width_pos]

theorem blank_char (config : IndentConfig) : isBlankChar config.char ∧ config.char ≠ '\n' := by
  cases mode : config.mode <;> simp only [char, mode] <;> decide

theorem render_eq (config : IndentConfig) (level : Nat) :
    config.render level = List.replicate (level * config.size) config.char := by
  induction level with
  | zero => simp [render, repeated]
  | succ level ih =>
    rw [Nat.succ_mul, Nat.add_comm (level * config.size), ← List.replicate_append_replicate, ← ih]
    rfl

theorem measure_render_append (config : IndentConfig) (level : Nat) (text : Text) :
    config.measure (config.render level ++ text) = level + config.measure text := by
  have all : ∀ c ∈ config.render level, (c == config.char) := by
    intro c mem
    rw [render_eq] at mem
    simpa using List.eq_of_mem_replicate mem
  rw [measure, List.takeWhile_append_of_pos all, render_eq, List.length_append, List.length_replicate, Nat.add_comm,
    Nat.add_mul_div_right _ _ config.size_pos, Nat.add_comm]
  rfl

theorem measure_eq_zero (config : IndentConfig) (h : ∀ c ∈ text.head?, isBlankChar c = false) :
    config.measure text = 0 := by
  have apart : text.takeWhile (· == config.char) = [] := by
    cases text with
    | nil => rfl
    | cons c rest =>
      have other : c ≠ config.char := by
        rintro rfl
        exact absurd config.blank_char.1 (by simp [h _ rfl])
      simp [other]
  rw [measure, apart, List.length_nil, Nat.zero_div]

theorem measure_render (config : IndentConfig) (level : Nat) : config.measure (config.render level) = level := by
  rw [← List.append_nil (config.render level), measure_render_append, config.measure_eq_zero (by simp), Nat.add_zero]

theorem replicate_prefix_iff {c : Char} :
    List.replicate count c <+: line ↔ count ≤ (line.takeWhile (· == c)).length := by
  induction count generalizing line with
  | zero => simp
  | succ count ih =>
    cases line with
    | nil => simp
    | cons d rest =>
      rw [List.replicate_succ, List.cons_prefix_cons, ih]
      by_cases same : d = c
      · simp [same]
      · simp [same, Ne.symm same]

theorem render_prefix_iff (config : IndentConfig) : config.render level <+: line ↔ level ≤ config.measure line := by
  rw [render_eq, replicate_prefix_iff, measure, Nat.le_div_iff_mul_le config.size_pos]

end IndentConfig

theorem blank_render (config : IndentConfig) (level : Nat) : ∀ d ∈ config.render level, isBlankChar d ∧ d ≠ '\n' := by
  intro d mem
  rw [config.render_eq] at mem
  rw [List.eq_of_mem_replicate mem]
  exact config.blank_char

/-! ## Counting units -/

/-- How far the counting of units has come: how many were found, and where the next one is looked for. -/
structure Count where
  level : Nat
  position : Nat

/-- One round of counting goes past a unit that stands at the position. -/
def Count.next? (unit line : Text) (count : Count) : Option Count :=
  if startsWith (line.drop count.position) unit then some ⟨count.level + 1, count.position + unit.length⟩ else none

/-- Any number of rounds leads from one count to the other. -/
def Count.Rounds (unit line : Text) : Count → Count → Prop :=
  Relation.ReflTransGen fun count after => count.next? unit line = some after

/-- Counting from the front of a line comes to `last`, and there is no further round. -/
def Counted (unit line : Text) (last : Count) : Prop :=
  Count.Rounds unit line ⟨0, 0⟩ last ∧ last.next? unit line = none

/-- The longest beginning of a line that consists of units only. -/
structure LongestRepetition (unit line front : Text) : Prop where
  repeats : ∃ count, front = repeated count unit
  begins : front <+: line
  longest : ∀ other, other <+: line → (∃ count, other = repeated count unit) → other.length ≤ front.length

theorem repeated_succ (count : Nat) (unit : Text) : repeated (count + 1) unit = repeated count unit ++ unit := by
  induction count with
  | zero => simp [repeated]
  | succ count ih => rw [repeated, ih, ← List.append_assoc, ← repeated, ih]

theorem length_repeated (count : Nat) (unit : Text) : (repeated count unit).length = count * unit.length := by
  induction count with
  | zero => simp [repeated]
  | succ count ih => rw [repeated_succ, List.length_append, ih, Nat.succ_mul]

/-- The units that were found stand one behind the other up to the position. -/
structure Count.Sound (unit line : Text) (count : Count) : Prop where
  position : count.position = (repeated count.level unit).length
  begins : repeated count.level unit <+: line

namespace Count

variable {count after : Count}

theorem Sound.next?_isSome (sound : count.Sound unit line) :
    (count.next? unit line).isSome ↔ repeated (count.level + 1) unit <+: line := by
  obtain ⟨rest, rfl⟩ := sound.begins
  rw [next?, sound.position, List.drop_left, repeated_succ, List.prefix_append_right_inj, Option.isSome_ite,
    startsWith, List.isPrefixOf_iff_prefix]

theorem Sound.next (sound : count.Sound unit line) (h : count.next? unit line = some after) : after.Sound unit line := by
  have begins := sound.next?_isSome.1 (by rw [h]; rfl)
  rw [next?, Option.ite_none_right_eq_some] at h
  cases h.2
  refine ⟨?_, begins⟩
  rw [repeated_succ, List.length_append, sound.position]

theorem sound_of_rounds (h : Rounds unit line ⟨0, 0⟩ count) : count.Sound unit line := by
  induction h with
  | refl => exact ⟨rfl, List.nil_prefix⟩
  | tail _ round ih => exact ih.next round

-- What is left of the line behind the position gets shorter in each round.
theorem exists_last (filled : unit ≠ []) (count : Count) :
    ∃ last, Rounds unit line count last ∧ last.next? unit line = none := by
  induction size : line.length - count.position using Nat.strongRecOn generalizing count with
  | ind size_ ih =>
    subst size
    cases round : count.next? unit line with
    | none => exact ⟨count, .refl, round⟩
    | some after =>
      have shorter : line.length - after.position < line.length - count.position := by
        rw [next?, Option.ite_none_right_eq_some, Option.some.injEq] at round
        obtain ⟨here, rfl⟩ := round
        have inside := (List.isPrefixOf_iff_prefix.1 here).length_le
        have positive := List.length_pos_iff.2 filled
        rw [List.length_drop] at inside
        dsimp only
        omega
      obtain ⟨last, rounds, ends⟩ := ih _ shorter after rfl
      exact ⟨last, .head round rounds, ends⟩

end Count

theorem Counted.level_eq {config : IndentConfig} (h : Counted config.unit line last) :
    last.level = config.measure line := by
  have sound := Count.sound_of_rounds h.1
  have atMost := config.render_prefix_iff.1 sound.begins
  have atLeast := mt sound.next?_isSome.2 (by simp [h.2])
  rw [show repeated (last.level + 1) config.unit = config.render (last.level + 1) from rfl, config.render_prefix_iff] at atLeast
  omega

theorem counted_iff_filled (unit : Text) : (∀ line, ∃ last, Counted unit line last) ↔ unit ≠ [] := by
  constructor
  · rintro ends rfl
    obtain ⟨last, -, stops⟩ := ends []
    simp [Count.next?, startsWith] at stops
  · exact fun filled line => Count.exists_last filled ⟨0, 0⟩

namespace IndentConfig

theorem longestRepetition_render (config : IndentConfig) (line : Text) :
    LongestRepetition config.unit line (config.render (config.measure line)) where
  repeats := ⟨_, rfl⟩
  begins := config.render_prefix_iff.2 (Nat.le_refl _)
  longest := by
    rintro _ begins ⟨count, rfl⟩
    rw [render, length_repeated, length_repeated]
    exact Nat.mul_le_mul_right _ (config.render_prefix_iff.1 begins)

theorem isOk_ofWidth_iff (mode : IndentMode) (width : Int) : (ofWidth mode width).isOk ↔ 0 < width.toNat := by
  unfold ofWidth
  split
  · next positive => simpa [Except.isOk, Except.toBool] using positive
  · next refused => simpa [Except.isOk, Except.toBool] using refused

/-- Measuring undoes writing in front of any text, and what is measured is the longest beginning that consists of
units. Counting the units ends with that level. It ends on every line for the units that are not empty, as is that of
every configuration: a width whose blanks make an empty unit is refused. -/
theorem measure_inverts_render (config : IndentConfig) :
    (∀ level text, config.measure (config.render level ++ text) = level + config.measure text) ∧
    (∀ line, LongestRepetition config.unit line (config.render (config.measure line))) ∧
    (∀ line, ∃ last, Counted config.unit line last ∧ last.level = config.measure line) ∧
    config.unit ≠ [] ∧
    (∀ unit, (∀ line, ∃ last, Counted unit line last) ↔ unit ≠ []) ∧
    ∀ width, (ofWidth .spaces width).isOk ↔ List.replicate width.toNat ' ' ≠ [] := by
  have filled : config.unit ≠ [] := by
    have positive := config.size_pos
    rw [unit, ne_eq, List.replicate_eq_nil_iff]
    omega
  refine ⟨config.measure_render_append, config.longestRepetition_render, fun line => ?_, filled, counted_iff_filled,
    fun width => ?_⟩
  · obtain ⟨last, counted⟩ := (counted_iff_filled _).2 filled line
    exact ⟨last, counted, counted.level_eq⟩
  · rw [isOk_ofWidth_iff, ne_eq, List.replicate_eq_nil_iff]
    omega

end IndentConfig

end LineProbe
