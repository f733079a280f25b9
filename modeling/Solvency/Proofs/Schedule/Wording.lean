import Solvency.Proofs.Amount.Plain
import Solvency.Proofs.Decimal.Rounded
import Solvency.Proofs.Schedule.Reader
import Solvency.Proofs.Text.Split

/-! # Bounds as they are written

An accepted segment is two bounds around a dash and a percentage behind a colon. A bound may have a
point, an exponent or underscores like any other number. One that is whole becomes the boundary that
it denotes. Any other is cut off, or carried over to the next whole number where it has no room.
-/
namespace Solvency.Schedule
open Text

/-- The three texts of a segment, whose range has no other dash and which has no other colon. -/
@[ext]
structure Wording where
  lower : List Char
  upper : List Char
  percent : List Char
  dash : '-' ∉ lower ∧ '-' ∉ upper
  colon : ':' ∉ lower ++ '-' :: upper ∧ ':' ∉ percent

namespace Wording

def range (w : Wording) : List Char := w.lower ++ '-' :: w.upper

def text (w : Wording) : List Char := w.range ++ ':' :: w.percent

theorem splitOn_text (w : Wording) : splitOn ':' w.text = [w.range, w.percent] :=
  splitOn_eq_pair.mpr ⟨rfl, w.colon⟩

theorem splitOn_range (w : Wording) : splitOn '-' w.range = [w.lower, w.upper] :=
  splitOn_eq_pair.mpr ⟨rfl, w.dash⟩

/-- A segment is worded in one way. -/
theorem text_injective : Function.Injective text := by
  intro v w h
  have htext := v.splitOn_text
  rw [h, w.splitOn_text] at htext
  obtain ⟨hrange, hpercent⟩ : w.range = v.range ∧ w.percent = v.percent := by simpa using htext
  have hbounds := v.splitOn_range
  rw [← hrange, w.splitOn_range] at hbounds
  obtain ⟨hlower, hupper⟩ : w.lower = v.lower ∧ w.upper = v.upper := by simpa using hbounds
  exact Wording.ext hlower.symm hupper.symm hpercent.symm

end Wording

variable {text : String} {segment cs : List Char} {multiplier row n : Nat} {s : Schedule}
  {b : Bracket}

theorem exists_wording (h : readBracket multiplier segment = .ok b) :
    ∃ (w : Wording) (low high : Nat), segment = w.text ∧ bound? w.lower = some low ∧
      bound? w.upper = some high ∧ low ≤ high ∧ percent? w.percent = some b.percent ∧
      b.upTo = high * multiplier := by
  obtain ⟨range, percent, lower, upper, low, high, hsegment, hrange, hlow, hhigh, hle, hpercent, -,
    hupTo⟩ := readBracket_eq_ok h
  obtain ⟨rfl, hcolon⟩ := splitOn_eq_pair.mp hsegment
  obtain ⟨rfl, hdash⟩ := splitOn_eq_pair.mp hrange
  exact ⟨⟨lower, upper, percent, hdash, hcolon⟩, low, high, rfl, hlow, hhigh, hle, hpercent, hupTo⟩

/-- The number that a bound denotes. -/
def denoted (cs : List Char) : ℚ := Decimal.denoted (trim cs)

/-- What is kept of a bound: a whole number next to it, which is the lower one where its digits and
its number have room. -/
structure Kept (cs : List Char) (n : Nat) : Prop where
  nonneg : 0 ≤ denoted cs
  floor_le : ⌊denoted cs⌋₊ ≤ n
  le_ceil : n ≤ ⌈denoted cs⌉₊
  truncated : Decimal.Representable (Decimal.written (Decimal.base (trim cs))).value →
    Decimal.Representable (denoted cs) → n = ⌊denoted cs⌋₊

theorem Kept.eq_of_whole (h : Kept cs n) {k : ℕ} (hk : denoted cs = k) : n = k := by
  have hfloor := h.floor_le
  have hceil := h.le_ceil
  rw [hk, Nat.floor_natCast] at hfloor
  rw [hk, Nat.ceil_natCast] at hceil
  exact hceil.antisymm hfloor

theorem Kept.exact_iff (h : Kept cs n) (multiplier : Nat) :
    ((n * multiplier : ℕ) : ℚ) = denoted cs * multiplier ↔
      multiplier = 0 ∨ ∃ k : ℕ, denoted cs = k := by
  rw [Nat.cast_mul]
  constructor
  · intro he
    by_cases hm : multiplier = 0
    · exact .inl hm
    · exact .inr ⟨n, (mul_right_cancel₀ (Nat.cast_ne_zero.mpr hm) he).symm⟩
  · rintro (rfl | ⟨k, hk⟩)
    · simp
    · rw [hk, h.eq_of_whole hk]

theorem bound?_kept (h : bound? cs = some n) (hminus : '-' ∉ cs) : Kept cs n := by
  have hlt := bound?_lt h
  obtain ⟨x, y, hx, -, hy, rfl⟩ := Amount.scaled?_eq_some (Option.filter_eq_some_iff.mp h).1
  rw [String.toList_ofList] at hx
  -- a bound is scaled by one, which is ten to no power
  have hvalue := (Decimal.times?_tenTo (j := 0) (Decimal.read_bounded hx) hy).1
  have hmagnitude := Decimal.magnitude_of_value_eq hvalue
  rw [pow_zero, mul_one] at hmagnitude
  rw [Decimal.whole_eq_floor, hmagnitude] at hlt ⊢
  have hminus' : '-' ∉ trim cs := fun hc => hminus (trim_subset cs hc)
  obtain ⟨hnonneg, hbeside⟩ := Decimal.read_beside hx hminus' (Nat.lt_of_floor_lt hlt)
  obtain ⟨hfloor, hceil⟩ := hbeside.floor_bounds hnonneg
  refine ⟨hnonneg, hfloor, hceil, fun hbase hnumber => ?_⟩
  have hexact : x.value = denoted cs := Decimal.read_exact hx hbase hnumber
  rw [← hexact, Decimal.value_of_nonneg (hexact ▸ hnonneg)]

/-- The boundary is what is kept of the upper bound in the segment, scaled. It is the scaled bound
exactly where that is whole. -/
def BoundaryOf (multiplier : Nat) (segment : List Char) (b : Bracket) : Prop :=
  ∃ (w : Wording) (n : Nat), trim segment = w.text ∧ Kept w.upper n ∧ b.upTo = n * multiplier ∧
    ((b.upTo : ℚ) = denoted w.upper * multiplier ↔
      multiplier = 0 ∨ ∃ k : ℕ, denoted w.upper = k)

/-- Every boundary that is read is a bound that was written, or a whole number next to it. -/
theorem read_boundaries (h : read text multiplier row = .ok s) :
    List.Forall₂ (BoundaryOf multiplier) (segments text) s.brackets := by
  refine (read_eq_ok h).imp fun segment b hb => ?_
  obtain ⟨w, _, high, hsegment, _, hhigh, _, _, hupTo⟩ := exists_wording hb
  have hkept := bound?_kept hhigh w.dash.2
  exact ⟨w, high, hsegment, hkept, hupTo, hupTo ▸ hkept.exact_iff multiplier⟩

/-- Two whole bounds, one with an exponent and one with an underscore and a point, and one that is cut
off. -/
theorem mixedBounds_read :
    ∃ s, read "[0-1e2:100, 1e2-1_250.0:50, 7-2000.75:35]" 10 2 = .ok s ∧
      s.brackets.map Bracket.upTo = [1000, 12500, 20000] ∧
      List.Forall₂ (BoundaryOf 10) (segments "[0-1e2:100, 1e2-1_250.0:50, 7-2000.75:35]")
        s.brackets := by
  let s : Schedule := ⟨[⟨1000, 100⟩, ⟨12500, 50⟩, ⟨20000, 35⟩], by decide⟩
  have hread : read "[0-1e2:100, 1e2-1_250.0:50, 7-2000.75:35]" 10 2 = .ok s := rfl
  exact ⟨s, hread, rfl, read_boundaries hread⟩

/-- One and a half is not refused as an upper bound: one is kept of it. -/
theorem fractionalBound_accepted :
    ∃ s, read "[0-1.5:50]" 1 2 = .ok s ∧ s.brackets.map Bracket.upTo = [1] ∧
      ¬ List.Forall₂ (fun segment b => ∃ w : Wording, trim segment = w.text ∧
          (b.upTo : ℚ) = denoted w.upper * (1 : ℕ))
        (segments "[0-1.5:50]") s.brackets := by
  let s : Schedule := ⟨[⟨1, 50⟩], by decide⟩
  have hread : read "[0-1.5:50]" 1 2 = .ok s := rfl
  refine ⟨s, hread, rfl, fun h => ?_⟩
  let v : Wording := ⟨['0'], ['1', '.', '5'], ['5', '0'], by decide, by decide⟩
  have hsegments : segments "[0-1.5:50]" = [v.text] := by decide
  rw [hsegments] at h
  obtain ⟨w, hw, he⟩ := (List.forall₂_cons.mp h).1
  have hv : trim v.text = v.text := by decide
  obtain rfl := Wording.text_injective (hv.symm.trans hw)
  have hwritten : Decimal.written (Decimal.base (trim v.upper)) = ⟨false, 15, 1⟩ := by decide
  have hexponent : Decimal.exponent (trim v.upper) = 0 := by decide
  rw [denoted, Decimal.denoted, hwritten, hexponent] at he
  norm_num [Decimal.value, Decimal.magnitude, Decimal.sign] at he

end Solvency.Schedule
