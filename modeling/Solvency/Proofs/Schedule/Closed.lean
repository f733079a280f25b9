import Solvency.Proofs.Schedule.FaceValue

/-! # The closed form of a weight

The brackets cut a value into parts, one for each bracket and one above the top. Where the product
of each bracket is whole, the walk with its early end comes to the sum of the weights of these
parts, each rounded down on its own. Without any rounding the parts add up to the percentages that
the single units of the value count at, so that a weight lies below this exact sum by at most one
for each part.
-/
namespace Solvency

theorem Percent.portion_eq [Arithmetic] {percent : Percent} {width : Nat}
    (h : Whole (width * percent.val)) : percent.portion width = width * percent.val / 100 := by
  rw [portion, h]

namespace Schedule
open Arithmetic

/-- A part of a value and the percentage it counts at. -/
structure Part where
  percent : Percent
  width : Nat

namespace Part

/-- The exact weight of the part, in hundredths. -/
def hundredths (p : Part) : Nat := p.width * p.percent.val

/-- The weight of the part, rounded down. -/
def weight (p : Part) : Nat := p.hundredths / 100

theorem weight_le (p : Part) : 100 * p.weight ≤ p.hundredths :=
  Nat.mul_div_le _ _

theorem hundredths_le (p : Part) : p.hundredths ≤ 100 * p.weight + 100 := by
  unfold weight
  omega

theorem hundredths_eq_zero {p : Part} (h : p.width = 0) : p.hundredths = 0 := by
  simp [hundredths, h]

theorem weight_eq_zero {p : Part} (h : p.width = 0) : p.weight = 0 := by
  simp [weight, hundredths_eq_zero h]

end Part

/-- The parts of a value in the brackets that follow the boundary `lower`. -/
def partsFrom (value lower : Nat) : List Bracket → List Part
  | [] => []
  | b :: bs => ⟨b.percent, min value b.upTo - min value lower⟩ :: partsFrom value b.upTo bs

def parts (s : Schedule) (value : Nat) : List Part := partsFrom value 0 s.brackets

/-- The percentage above a top bracket that counts at `percent`. -/
def beyond (policy : TopPolicy) (percent : Percent) : Percent :=
  match policy with
  | .capped => ⟨0, by decide⟩
  | .extended => percent

/-- The part of a value above the bracket `b`. -/
def partAbove (policy : TopPolicy) (value : Nat) (b : Bracket) : Part :=
  ⟨beyond policy b.percent, value - min value b.upTo⟩

/-- What a walk has behind it when it starts: nothing, which counts nothing. -/
def start : Bracket := ⟨0, 0, by decide⟩

def topBracket (s : Schedule) : Bracket := s.brackets.getLastD start

def excess (s : Schedule) (policy : TopPolicy) (value : Nat) : Part :=
  partAbove policy value s.topBracket

/-- The percentage of the unit of value above `x`. -/
def marginalFrom (policy : TopPolicy) (x : Nat) (top : Bracket) (bs : List Bracket) : Percent :=
  (bs.find? (x < ·.upTo)).elim (beyond policy top.percent) Bracket.percent

def marginal (s : Schedule) (policy : TopPolicy) (x : Nat) : Percent :=
  marginalFrom policy x s.topBracket s.brackets

/-- The weight of a value without any rounding, unit by unit. -/
def integral (s : Schedule) (policy : TopPolicy) (value : Nat) : ℚ :=
  ∑ x ∈ Finset.range value, ((s.marginal policy x).val : ℚ) / 100

section Walks
variable {policy : TopPolicy} {value total last : Nat} {behind : Bracket} {bs : List Bracket}

@[simp] theorem partsFrom_nil (value lower : Nat) : partsFrom value lower [] = [] := rfl

@[simp] theorem partsFrom_cons (value lower : Nat) (b : Bracket) (bs : List Bracket) :
    partsFrom value lower (b :: bs) =
      ⟨b.percent, min value b.upTo - min value lower⟩ :: partsFrom value b.upTo bs := rfl

@[simp] theorem length_partsFrom (value lower : Nat) (bs : List Bracket) :
    (partsFrom value lower bs).length = bs.length := by
  induction bs generalizing lower with
  | nil => rfl
  | cons b bs ih => simp [ih]

/-- A value that a walk has not got past has nothing in the brackets ahead. -/
theorem width_of_mem_partsFrom (h : Walk total last bs) (hv : value ≤ last) :
    ∀ p ∈ partsFrom value last bs, p.width = 0 := by
  induction bs generalizing total last with
  | nil => exact fun _ hp => absurd hp List.not_mem_nil
  | cons b bs ih =>
    have hb : value ≤ b.upTo := hv.trans (h.above b List.mem_cons_self)
    refine List.forall_mem_cons.mpr ⟨?_, ih (h.skip le_rfl) hb⟩
    show min value b.upTo - min value last = 0
    omega

theorem sum_partsFrom_eq_zero {f : Part → Nat} (hf : ∀ p, p.width = 0 → f p = 0)
    (h : Walk total last bs) (hv : value ≤ last) :
    ((partsFrom value last bs).map f).sum = 0 := by
  refine List.sum_eq_zero fun n hn => ?_
  obtain ⟨p, hp, rfl⟩ := List.mem_map.mp hn
  exact hf p (width_of_mem_partsFrom h hv p hp)

theorem width_partAbove_eq_zero (h : Walk total behind.upTo bs) (hv : value ≤ behind.upTo) :
    (partAbove policy value (bs.getLastD behind)).width = 0 := by
  induction bs generalizing total behind with
  | nil => simp [partAbove, hv]
  | cons b bs ih =>
    rw [List.getLastD_cons]
    exact ih (h.skip le_rfl) (hv.trans (h.above b List.mem_cons_self))

/-- The last step of a walk adds the part above the top, which has room beside what is weighed. -/
theorem beyondTop_eq (ht : total ≤ behind.upTo) (hl : behind.upTo ≤ value)
    (hv : value < valueLimit) :
    beyondTop policy total (value - behind.upTo) behind.percent =
      total + saturate (partAbove policy value behind).hundredths / 100 := by
  cases policy with
  | capped => simp [beyondTop, partAbove, beyond, Part.hundredths, saturate]
  | extended =>
    have hwidth : value - min value behind.upTo = value - behind.upTo := by omega
    have hexcess := Nat.div_le_div_right (c := 100)
      (saturate_le ((value - behind.upTo) * behind.percent.val))
    have hportion := behind.percent.hundredth_le (value - behind.upTo)
    simp only [beyondTop, partAbove, beyond, Part.hundredths, hwidth]
    exact saturate_of_lt (by omega)

/-- A running total stays within the value, so that only the products have to be whole. -/
theorem weighFrom_eq [Arithmetic] (h : Walk total behind.upTo bs) (hl : behind.upTo ≤ value)
    (hv : value < valueLimit) (hp : ∀ p ∈ partsFrom value behind.upTo bs, Whole p.hundredths) :
    weighFrom policy value total behind.upTo behind.percent bs =
      total + ((partsFrom value behind.upTo bs).map Part.weight).sum +
        saturate (partAbove policy value (bs.getLastD behind)).hundredths / 100 := by
  induction bs generalizing total behind with
  | nil => exact beyondTop_eq h.total_le hl hv
  | cons b bs ih =>
    rw [partsFrom_cons, Nat.min_eq_right hl] at hp ⊢
    obtain ⟨hb, hbs⟩ := List.forall_mem_cons.mp hp
    rw [weighFrom, List.getLastD_cons, List.map_cons, List.sum_cons]
    split
    -- the value ends in this bracket, and nothing of it is left for those ahead
    · rename_i hends
      have hrest := h.skip le_rfl
      have hahead := sum_partsFrom_eq_zero (fun _ => Part.weight_eq_zero) hrest hends
      have habove : (partAbove policy value (bs.getLastD b)).hundredths = 0 :=
        Part.hundredths_eq_zero (width_partAbove_eq_zero hrest hends)
      have htotal := (h.add_portion_le hl).trans_lt hv
      rw [Nat.min_eq_left hends] at hb ⊢
      rw [keep_of_lt htotal, Percent.portion_eq hb, hahead, habove]
      rfl
    · rename_i hends
      have hpassed := Nat.le_of_not_le hends
      have hbelow := h.add_portion_le (h.above b List.mem_cons_self)
      have htotal := hbelow.trans_lt (hpassed.trans_lt hv)
      have hnext := h.next
      rw [Nat.min_eq_right hpassed] at hb ⊢
      rw [keep_of_lt htotal] at hnext ⊢
      rw [ih hnext hpassed hbs, Percent.portion_eq hb]
      simp only [Part.weight, Part.hundredths, Nat.add_assoc]

/-- One more unit of value adds its marginal percentage to the exact weight. -/
theorem hundredths_succ {x : Nat} (h : Walk total behind.upTo bs) (hx : behind.upTo ≤ x) :
    ((partsFrom (x + 1) behind.upTo bs).map Part.hundredths).sum +
        (partAbove policy (x + 1) (bs.getLastD behind)).hundredths =
      ((partsFrom x behind.upTo bs).map Part.hundredths).sum +
        (partAbove policy x (bs.getLastD behind)).hundredths +
        (marginalFrom policy x (bs.getLastD behind) bs).val := by
  induction bs generalizing total behind with
  | nil =>
    have hwide : x + 1 - min (x + 1) behind.upTo = x - min x behind.upTo + 1 := by omega
    simp [partAbove, Part.hundredths, marginalFrom, hwide, Nat.add_mul]
  | cons b bs ih =>
    simp only [List.getLastD_cons, partsFrom_cons, List.map_cons, List.sum_cons]
    by_cases hb : x < b.upTo
    -- the unit lies in this bracket: both values end here
    · have hzero : ∀ v ≤ b.upTo, ((partsFrom v b.upTo bs).map Part.hundredths).sum +
          (partAbove policy v (bs.getLastD b)).hundredths = 0 := by
        intro v hv
        rw [sum_partsFrom_eq_zero (fun _ => Part.hundredths_eq_zero) (h.skip le_rfl) hv,
          Part.hundredths_eq_zero (width_partAbove_eq_zero (h.skip le_rfl) hv)]
      have hnext := hzero (x + 1) hb
      have hnow := hzero x hb.le
      have hwide : min (x + 1) b.upTo - min (x + 1) behind.upTo =
          min x b.upTo - min x behind.upTo + 1 := by omega
      have hunit : (marginalFrom policy x (bs.getLastD b) (b :: bs)) = b.percent := by
        simp [marginalFrom, hb]
      rw [hunit]
      simp only [Part.hundredths, hwide, Nat.add_mul] at hnext hnow ⊢
      omega
    · have hpassed := Nat.le_of_not_lt hb
      have hrest := ih (h.skip le_rfl) hpassed
      have hwide : min (x + 1) b.upTo - min (x + 1) behind.upTo =
          min x b.upTo - min x behind.upTo := by omega
      have hskip : marginalFrom policy x (bs.getLastD b) (b :: bs) =
          marginalFrom policy x (bs.getLastD b) bs := by
        simp [marginalFrom, hb]
      rw [hwide, hskip]
      omega

end Walks

variable (s : Schedule) (policy : TopPolicy) (value : Nat)

/-- Nothing is lost of the products on the way to a weight. -/
def WeighsWhole [Arithmetic] : Prop := ∀ p ∈ s.parts value, Whole p.hundredths

instance [Arithmetic] : Decidable (s.WeighsWhole value) :=
  inferInstanceAs (Decidable (∀ p ∈ s.parts value, Whole p.hundredths))

variable {s value} in
theorem weigh_eq_parts [Arithmetic] (hv : value < valueLimit) (hw : s.WeighsWhole value) :
    s.weigh policy value =
      ((s.parts value).map Part.weight).sum + saturate (s.excess policy value).hundredths / 100 := by
  have hwalk : weighFrom policy value 0 start.upTo start.percent s.brackets = _ :=
    weighFrom_eq (Walk.start s) (Nat.zero_le value) hv hw
  rw [Nat.zero_add] at hwalk
  exact hwalk

theorem hundredths_excess_capped : (s.excess .capped value).hundredths = 0 := by
  simp [excess, partAbove, beyond, Part.hundredths]

theorem sum_marginal :
    ∑ x ∈ Finset.range value, (s.marginal policy x).val =
      ((s.parts value).map Part.hundredths).sum + (s.excess policy value).hundredths := by
  induction value with
  | zero =>
    have hparts : ((s.parts 0).map Part.hundredths).sum = 0 :=
      sum_partsFrom_eq_zero (fun _ => Part.hundredths_eq_zero) (Walk.start s) le_rfl
    simp [hparts, excess, partAbove, Part.hundredths]
  | succ x ih =>
    have hstep := @hundredths_succ policy 0 start s.brackets x (Walk.start s) (Nat.zero_le x)
    rw [Finset.sum_range_succ, ih]
    exact hstep.symm

theorem integral_eq_parts :
    s.integral policy value =
      ((((s.parts value).map Part.hundredths).sum + (s.excess policy value).hundredths : ℕ) : ℚ) /
        100 := by
  rw [← sum_marginal, integral, Nat.cast_sum, Finset.sum_div]

/-- Rounding each part on its own loses less than one for each. -/
theorem sum_weight_bounds (ps : List Part) :
    100 * (ps.map Part.weight).sum ≤ (ps.map Part.hundredths).sum ∧
      (ps.map Part.hundredths).sum ≤ 100 * ((ps.map Part.weight).sum + ps.length) := by
  induction ps with
  | nil => simp
  | cons p ps ih =>
    obtain ⟨hlow, hhigh⟩ := ih
    have hp := p.weight_le
    have hp' := p.hundredths_le
    simp only [List.map_cons, List.sum_cons, List.length_cons]
    omega

/-- A weight is the sum of its parts, rounded down one by one. It never passes the exact weight, and
without saturation stays within one for each part of it. -/
theorem weigh_closed_form [Arithmetic] {value : Nat} (hv : value < valueLimit)
    (hw : s.WeighsWhole value) :
    s.weigh .capped value = ((s.parts value).map Part.weight).sum ∧
    s.weigh .extended value =
      ((s.parts value).map Part.weight).sum +
        saturate (s.excess .extended value).hundredths / 100 ∧
    (∀ policy, (s.weigh policy value : ℚ) ≤ s.integral policy value) ∧
    s.integral .capped value - s.brackets.length ≤ s.weigh .capped value ∧
    ((s.excess .extended value).hundredths < valueLimit →
      s.integral .extended value - (s.brackets.length + 1 : ℕ) ≤ s.weigh .extended value) := by
  have hcapped : s.weigh .capped value = ((s.parts value).map Part.weight).sum := by
    rw [weigh_eq_parts .capped hv hw, hundredths_excess_capped]
    rfl
  obtain ⟨hlow, hhigh⟩ := sum_weight_bounds (s.parts value)
  have hlength : (s.parts value).length = s.brackets.length := length_partsFrom _ _ _
  refine ⟨hcapped, weigh_eq_parts .extended hv hw, ?_, ?_, ?_⟩
  · intro policy
    have hsaturate := saturate_le (s.excess policy value).hundredths
    rw [integral_eq_parts, weigh_eq_parts policy hv hw, le_div_iff₀ (by norm_num)]
    norm_cast
    omega
  · rw [integral_eq_parts, hundredths_excess_capped, hcapped, sub_le_iff_le_add,
      div_le_iff₀ (by norm_num)]
    norm_cast
    omega
  · intro hfit
    rw [integral_eq_parts, weigh_eq_parts .extended hv hw, saturate_of_lt hfit,
      sub_le_iff_le_add, div_le_iff₀ (by norm_num)]
    norm_cast
    omega

/-- The first boundary is nothing, and a third of a unit is lost in the second bracket. -/
def steppedSchedule : Schedule :=
  ⟨[⟨0, 75, by decide⟩, ⟨3, 45, by decide⟩, ⟨7, Fin.last 100⟩], by decide⟩

/-- A value above the top, which counts in full there. -/
theorem steppedSchedule_closed_form :
    9 < valueLimit ∧ steppedSchedule.WeighsWhole 9 ∧
    (steppedSchedule.excess .extended 9).hundredths < valueLimit ∧
    (steppedSchedule.parts 9).map Part.weight = [0, 1, 4] ∧
    steppedSchedule.weigh .capped 9 = ((steppedSchedule.parts 9).map Part.weight).sum ∧
    steppedSchedule.weigh .extended 9 = ((steppedSchedule.parts 9).map Part.weight).sum +
      saturate (steppedSchedule.excess .extended 9).hundredths / 100 ∧
    (∀ policy, (steppedSchedule.weigh policy 9 : ℚ) ≤ steppedSchedule.integral policy 9) ∧
    steppedSchedule.integral .capped 9 - (3 : ℕ) ≤ steppedSchedule.weigh .capped 9 ∧
    steppedSchedule.integral .extended 9 - (4 : ℕ) ≤ steppedSchedule.weigh .extended 9 := by
  have hv : 9 < valueLimit := by decide
  have hfit : (steppedSchedule.excess .extended 9).hundredths < valueLimit := by decide
  have hw : steppedSchedule.WeighsWhole 9 := by decide
  obtain ⟨hcapped, hextended, hbelow, hnear, hnear'⟩ := weigh_closed_form steppedSchedule hv hw
  exact ⟨hv, hw, hfit, by decide, hcapped, hextended, hbelow, hnear, hnear' hfit⟩

end Schedule
end Solvency
