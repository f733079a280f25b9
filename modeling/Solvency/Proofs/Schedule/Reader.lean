import Solvency.Proofs.Checked
import Solvency.Proofs.Schedule.Order
import Solvency.Schedule.Reader

/-! # What a bracket list is read as

A list that is accepted has one bracket for each segment, in order, and each is the reading of its
segment. Their boundaries are whole multiples of the value multiplier.
-/
namespace Solvency.Schedule
open Text

theorem orFlaw_eq_ok {α : Type} {flaw : BracketFlaw} {x : Option α} {a : α} :
    orFlaw flaw x = .ok a ↔ x = some a := elim_eq_ok

theorem bound?_lt {cs : List Char} {n : Nat} (h : bound? cs = some n) : n < wordLimit := by
  simpa using (Option.filter_eq_some_iff.mp h).2

/-- An accepted segment is `lower-upper:percent` with its bounds in order. -/
theorem readBracket_eq_ok {multiplier : Nat} {segment : List Char} {b : Bracket}
    (h : readBracket multiplier segment = .ok b) :
    ∃ range percent lower upper low high, splitOn ':' segment = [range, percent] ∧
      splitOn '-' range = [lower, upper] ∧ bound? lower = some low ∧ bound? upper = some high ∧
      low ≤ high ∧ percent? percent = some b.percent ∧ high * multiplier < valueLimit ∧
      b.upTo = high * multiplier := by
  unfold readBracket at h
  split at h
  · rename_i range percent hseg
    split at h
    · rename_i lower upper hrange
      obtain ⟨low, hl, h⟩ := bind_eq_ok.mp h
      obtain ⟨high, hh, h⟩ := bind_eq_ok.mp h
      by_cases hlt : high < low
      · simp only [if_pos hlt] at h
        cases h
      · simp only [if_neg hlt] at h
        obtain ⟨p, hp, h⟩ := bind_eq_ok.mp h
        by_cases hv : valueLimit ≤ high * multiplier
        · simp only [if_pos hv] at h
          cases h
        · simp only [if_neg hv] at h
          obtain rfl := pure_eq_ok.mp h
          exact ⟨range, percent, lower, upper, low, high, hseg, hrange, orFlaw_eq_ok.mp hl,
            orFlaw_eq_ok.mp hh, Nat.not_lt.mp hlt, orFlaw_eq_ok.mp hp, Nat.not_le.mp hv, rfl⟩
    · cases h
  · cases h

theorem push?_brackets {s t : Schedule} {b : Bracket} (h : s.push? b = some t) :
    t.brackets = s.brackets ++ [b] := by
  unfold push? at h
  split at h
  · cases h
    rfl
  · cases h

theorem readNext_eq_ok {multiplier row : Nat} {s t : Schedule} {segment : List Char}
    (h : readNext multiplier row s segment = .ok t) :
    ∃ b, readBracket multiplier (trim segment) = .ok b ∧ t.brackets = s.brackets ++ [b] := by
  obtain ⟨b, hb, hp⟩ := bind_eq_ok.mp (mapError_eq_ok.mp h)
  exact ⟨b, hb, push?_brackets (orFlaw_eq_ok.mp hp)⟩

/-- The pieces of a bracket list, none if nothing is listed. -/
def segments (text : String) : List (List Char) :=
  if listBody text = [] then [] else splitOn ',' (listBody text)

theorem read_eq_ok {text : String} {multiplier row : Nat} {s : Schedule}
    (h : read text multiplier row = .ok s) :
    List.Forall₂ (fun segment b => readBracket multiplier (trim segment) = .ok b)
      (segments text) s.brackets := by
  unfold read at h
  unfold segments
  split at h
  · rename_i hn
    cases h
    rw [if_pos hn]
    exact .nil
  · rename_i hn
    rw [if_neg hn]
    obtain ⟨bs, hbs, he⟩ := foldlM_appends Schedule.brackets
      (fun segment b => readBracket multiplier (trim segment) = .ok b)
      (fun _ _ _ => readNext_eq_ok) h
    rw [he]
    exact hbs

/-- Strictly increasing boundaries, each a word times the multiplier, and true percentages. -/
structure ScaledBy (multiplier : Nat) (s : Schedule) : Prop where
  increasing : s.brackets.Pairwise fun a b => a.upTo < b.upTo
  percent_le : ∀ b ∈ s.brackets, b.percent.val ≤ 100
  scaled : ∀ b ∈ s.brackets, ∃ bound < wordLimit, b.upTo = bound * multiplier

theorem scaledBy_of_read {text : String} {multiplier row : Nat} {s : Schedule}
    (h : read text multiplier row = .ok s) : s.ScaledBy multiplier where
  increasing := s.increasing
  percent_le b _ := b.percent.val_le
  scaled b hb := by
    obtain ⟨segment, _, hr⟩ := exists_of_forall₂ (read_eq_ok h) hb
    obtain ⟨_, _, _, _, _, high, _, _, _, hh, _, _, _, he⟩ := readBracket_eq_ok hr
    exact ⟨high, bound?_lt hh, he⟩

/-- The boundaries of a schedule that has been read are values. -/
theorem inRange_of_read {text : String} {multiplier row : Nat} {s : Schedule}
    (h : read text multiplier row = .ok s) : s.InRange := by
  intro b hb
  obtain ⟨segment, _, hr⟩ := exists_of_forall₂ (read_eq_ok h) hb
  obtain ⟨_, _, _, _, _, _, _, _, _, _, _, _, hlt, he⟩ := readBracket_eq_ok hr
  exact he ▸ hlt

end Solvency.Schedule
