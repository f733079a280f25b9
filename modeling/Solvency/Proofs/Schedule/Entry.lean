import Solvency.Proofs.Decimal.Whole
import Solvency.Proofs.Schedule.Reader
import Solvency.Proofs.Text.Numeral
import Solvency.Proofs.Text.Split

/-! # Entries of a bracket list

An entry is two bounds and a percentage in digits. Behind a schedule that ends at the upper bound
before it, its text adds the bracket that it stands for if it keeps all rules, and is refused by the
first rule that it breaks otherwise.
-/
namespace Solvency
open Text

theorem Amount.scaled?_digits (n : Nat) :
    scaled? (String.ofList (digits n)) 1 = if n ≤ Decimal.maxMantissa then some n else none := by
  rw [scaled?, String.toList_ofList, (trimmed_digits n).trim_eq, Decimal.read_whole]
  by_cases hn : n ≤ Decimal.maxMantissa
  · obtain ⟨y, hy, hw⟩ := Decimal.times?_whole (x := ⟨false, n, 0⟩) (n := 1) (q := n) rfl hn
    have hroom : ¬((⟨false, n, 0⟩ : Decimal).isBelowZero = true ∨ multiplierLimit ≤ 1) := by
      simp [Decimal.isBelowZero]
      decide
    simp only [if_pos hn, Option.bind_eq_bind, Option.bind_some, if_neg hroom, hy]
    exact congrArg some hw
  · simp [hn]

namespace Schedule

theorem bound?_digits (n : Nat) : bound? (digits n) = if n < wordLimit then some n else none := by
  rw [bound?, Amount.scaled?_digits]
  by_cases hn : n < wordLimit
  · have hroom : n ≤ Decimal.maxMantissa := hn.le.trans (by decide)
    simp [hn, hroom]
  · rw [if_neg hn]
    split
    · simpa using Nat.le_of_not_lt hn
    · rfl

theorem percent?_digits (n : Nat) :
    percent? (digits n) = if h : n < 101 then some ⟨n, h⟩ else none := by
  rw [percent?, (trimmed_digits n).trim_eq]
  by_cases hn : n < 101
  · rw [natural?_digits hn]
    simp [hn]
  · have hnone : natural? 101 (digits n) = none := by
      simp [natural?, withoutPlus_digits, hn]
    simp [hnone, hn]

theorem orFlaw_some {α : Type} (flaw : BracketFlaw) (a : α) : orFlaw flaw (some a) = .ok a := rfl

/-- An entry of a bracket list, in whole units of value. -/
structure Entry where
  lower : Nat
  upper : Nat
  percent : Nat
deriving DecidableEq

namespace Entry

/-- The bounds, as they stand before the colon. -/
def range (e : Entry) : List Char := digits e.lower ++ '-' :: digits e.upper

def text (e : Entry) : List Char := e.range ++ ':' :: digits e.percent

/-- The rules for an entry, given the upper bound of the entry before it. -/
structure Sound (multiplier : Nat) (previous : Option Nat) (e : Entry) : Prop where
  ordered : e.lower ≤ e.upper
  upper_lt : e.upper < wordLimit
  increasing : ∀ p ∈ previous, p < e.upper
  percent_le : e.percent ≤ 100
  scaled_lt : e.upper * multiplier < valueLimit

/-- The first rule that an entry breaks on its own. -/
def ownFlaw? (multiplier : Nat) (e : Entry) : Option BracketFlaw :=
  if wordLimit ≤ e.lower then some .lowerBound
  else if wordLimit ≤ e.upper then some .upperBound
  else if e.upper < e.lower then some .reversed
  else if 100 < e.percent then some .percent
  else if valueLimit ≤ e.upper * multiplier then some .overflow
  else none

/-- The first rule that an entry breaks; its order is looked at last. -/
def flaw? (multiplier : Nat) (previous : Option Nat) (e : Entry) : Option BracketFlaw :=
  (e.ownFlaw? multiplier).or (if previous.any (e.upper ≤ ·) then some .unordered else none)

theorem ownFlaw?_eq_none {multiplier : Nat} {e : Entry} :
    e.ownFlaw? multiplier = none ↔ e.lower ≤ e.upper ∧ e.upper < wordLimit ∧ e.percent ≤ 100 ∧
      e.upper * multiplier < valueLimit := by
  unfold ownFlaw?
  split_ifs <;> simp <;> omega

theorem flaw?_eq_none {multiplier : Nat} {previous : Option Nat} {e : Entry} :
    e.flaw? multiplier previous = none ↔ e.Sound multiplier previous := by
  rw [flaw?, Option.or_eq_none_iff, ownFlaw?_eq_none]
  have hnext : (if previous.any (e.upper ≤ ·) then some BracketFlaw.unordered else none) = none ↔
      ∀ p ∈ previous, p < e.upper := by
    cases previous <;> simp
  rw [hnext]
  constructor
  · rintro ⟨⟨ho, hu, hp, hs⟩, hi⟩
    exact ⟨ho, hu, hi, hp, hs⟩
  · rintro ⟨ho, hu, hi, hp, hs⟩
    exact ⟨⟨ho, hu, hp, hs⟩, hi⟩

instance (multiplier : Nat) (previous : Option Nat) (e : Entry) :
    Decidable (e.Sound multiplier previous) :=
  decidable_of_iff _ flaw?_eq_none

/-- The bracket that an entry stands for. -/
def bracket (multiplier : Nat) (e : Entry) : Bracket :=
  ⟨e.upper * multiplier, e.percent % 101, Nat.mod_lt e.percent (by decide)⟩

/-- The text of an entry splits at its colon and its dash. -/
theorem splitOn_text (e : Entry) : splitOn ':' e.text = [e.range, digits e.percent] := by
  have hpercent : ':' ∉ digits e.percent := not_mem_digits (by decide)
  have hrange : ':' ∉ e.range := by
    simp [range, not_mem_digits]
  rw [text, splitOn_append hrange, splitOn_of_not_mem hpercent]

theorem splitOn_range (e : Entry) : splitOn '-' e.range = [digits e.lower, digits e.upper] := by
  have hlower : '-' ∉ digits e.lower := not_mem_digits (by decide)
  have hupper : '-' ∉ digits e.upper := not_mem_digits (by decide)
  rw [range, splitOn_append hlower, splitOn_of_not_mem hupper]

theorem readBracket_text (multiplier : Nat) (e : Entry) :
    readBracket multiplier e.text =
      (e.ownFlaw? multiplier).elim (.ok (e.bracket multiplier)) .error := by
  simp only [readBracket, splitOn_text, splitOn_range, bound?_digits, percent?_digits, ownFlaw?]
  -- the rules in the order in which the reader comes to them
  by_cases hl : wordLimit ≤ e.lower
  · rw [if_pos hl, if_neg (Nat.not_lt.mpr hl)]
    rfl
  rw [if_neg hl, if_pos (Nat.lt_of_not_le hl)]
  by_cases hu : wordLimit ≤ e.upper
  · rw [if_pos hu, if_neg (Nat.not_lt.mpr hu)]
    rfl
  rw [if_neg hu, if_pos (Nat.lt_of_not_le hu)]
  simp only [orFlaw_some, ok_bind]
  by_cases ho : e.upper < e.lower
  · simp only [if_pos ho]
    rfl
  by_cases hp : 100 < e.percent
  · simp only [if_neg ho, if_pos hp, dif_neg (show ¬e.percent < 101 by omega)]
    rfl
  have hp' : e.percent < 101 := by omega
  have hbracket : (⟨e.upper * multiplier, e.percent, hp'⟩ : Bracket) = e.bracket multiplier := by
    simp only [bracket, Nat.mod_eq_of_lt hp']
  by_cases hs : valueLimit ≤ e.upper * multiplier
  · simp only [if_neg ho, if_neg hp, dif_pos hp', orFlaw_some, ok_bind, if_pos hs]
    rfl
  · simp only [if_neg ho, if_neg hp, dif_pos hp', orFlaw_some, ok_bind, if_neg hs, hbracket]
    rfl

theorem mem_text {e : Entry} {c : Char} (h : c ∈ e.text) : c.isDigit = true ∨ c = '-' ∨ c = ':' := by
  simp only [text, range, List.mem_append, List.mem_cons] at h
  rcases h with (h | h | h) | h | h
  · exact Or.inl (isDigit_of_mem_digits h)
  · exact Or.inr (Or.inl h)
  · exact Or.inl (isDigit_of_mem_digits h)
  · exact Or.inr (Or.inr h)
  · exact Or.inl (isDigit_of_mem_digits h)

theorem text_ne_nil (e : Entry) : e.text ≠ [] := by
  simp [text]

theorem comma_not_mem_text (e : Entry) : ',' ∉ e.text := by
  intro h
  rcases mem_text h with hd | hd | hd
  · cases hd
  · cases hd
  · cases hd

theorem trimmed_text (e : Entry) : Trimmed e.text := by
  apply Trimmed.of_forall
  intro c hc
  rcases mem_text hc with hd | rfl | rfl
  · exact isBlank_of_isDigit hd
  · decide
  · decide

end Entry

variable {multiplier : Nat} (row : Nat) {previous : Option Nat} {s : Schedule} {e : Entry}
  {flaw : BracketFlaw}

/-- What is above the top is above every boundary. -/
theorem forall_lt_iff_top? {x : Nat} :
    (∀ a ∈ s.brackets, a.upTo < x) ↔ ∀ t ∈ s.top?, t < x := by
  have hi := s.increasing
  unfold top?
  rcases List.eq_nil_or_concat s.brackets with hn | ⟨init, last, hs⟩
  · simp [hn]
  · rw [hs, List.concat_eq_append] at hi ⊢
    obtain ⟨_, _, hlast⟩ := List.pairwise_append.mp hi
    have hmax : ∀ a ∈ init, a.upTo < last.upTo := fun a ha => hlast a ha last (by simp)
    simp only [List.getLast?_append_of_ne_nil _ (List.cons_ne_nil last []), List.getLast?_singleton,
      Option.map_some, Option.mem_some_iff, forall_eq', List.mem_append, List.mem_singleton]
    constructor
    · intro h
      exact h last (Or.inr rfl)
    · rintro h a (ha | rfl)
      · exact (hmax a ha).trans h
      · exact h

/-- The schedule read so far ends at the upper bound of the entry before, if there is one. -/
def EndsAt (multiplier : Nat) (previous : Option Nat) (s : Schedule) : Prop :=
  s.top? = previous.map (· * multiplier)

theorem endsAt_empty (multiplier : Nat) : empty.EndsAt multiplier none := rfl

theorem endsAt_of_brackets {t : Schedule} (h : t.brackets = s.brackets ++ [e.bracket multiplier]) :
    t.EndsAt multiplier (some e.upper) := by
  simp [EndsAt, top?, h, Entry.bracket]

/-- Scaling keeps the order of an upper bound and the one before it. -/
theorem EndsAt.forall_lt_iff (hs : s.EndsAt multiplier previous) (hm : 0 < multiplier) (e : Entry) :
    (∀ a ∈ s.brackets, a.upTo < (e.bracket multiplier).upTo) ↔
      previous.any (e.upper ≤ ·) = false := by
  rw [forall_lt_iff_top?, hs]
  cases previous with
  | none => simp
  | some p => simp [Entry.bracket, Nat.mul_lt_mul_right hm]

theorem readNext_text (multiplier row : Nat) (s : Schedule) (e : Entry) :
    readNext multiplier row s e.text =
      ((e.ownFlaw? multiplier).elim (orFlaw .unordered (s.push? (e.bracket multiplier)))
        .error).mapError (Fault.bracket row (String.ofList e.text)) := by
  rw [readNext, e.trimmed_text.trim_eq, Entry.readBracket_text]
  cases e.ownFlaw? multiplier <;> rfl

theorem readNext_of_flaw (hm : 0 < multiplier) (hs : s.EndsAt multiplier previous)
    (h : e.flaw? multiplier previous = some flaw) :
    readNext multiplier row s e.text = .error (.bracket row (String.ofList e.text) flaw) := by
  rw [readNext_text]
  unfold Entry.flaw? at h
  cases ho : e.ownFlaw? multiplier with
  | some own =>
    rw [ho, Option.some_or] at h
    cases h
    rfl
  | none =>
    rw [ho, Option.none_or] at h
    split at h
    · rename_i hany
      cases h
      have hpush : s.push? (e.bracket multiplier) = none := by
        have hlt : ¬∀ a ∈ s.brackets, a.upTo < (e.bracket multiplier).upTo := by
          simp [hs.forall_lt_iff hm, hany]
        exact dif_neg hlt
      rw [Option.elim_none, hpush]
      rfl
    · cases h

theorem readNext_of_sound (hm : 0 < multiplier) (hs : s.EndsAt multiplier previous)
    (h : e.Sound multiplier previous) :
    ∃ t, readNext multiplier row s e.text = .ok t ∧ t.EndsAt multiplier (some e.upper) ∧
      t.brackets = s.brackets ++ [e.bracket multiplier] := by
  obtain ⟨hown, hnext⟩ := Option.or_eq_none_iff.mp (Entry.flaw?_eq_none.mpr h)
  have hany : previous.any (e.upper ≤ ·) = false := by
    by_contra hn
    rw [if_pos (eq_true_of_ne_false hn)] at hnext
    cases hnext
  rw [readNext_text, hown, push?, dif_pos ((hs.forall_lt_iff hm e).mpr hany)]
  exact ⟨_, rfl, endsAt_of_brackets rfl, rfl⟩

end Schedule
end Solvency
