import Solvency.Proofs.Schedule.Closed

/-! # Weights without overflow

A walk that refuses every difference below zero and every product or sum that is no value gets
through exactly if the product of each bracket is a value, and then comes to the weight in every
arithmetic. It does so for every value if all boundaries leave room for a percentage. What is above
the top saturates, so that no weight comes near to what a value can be.
-/
namespace Solvency
open Arithmetic

/-- The number, unless it is too large for a value. -/
def fitting? (n : Nat) : Option Nat := if n < valueLimit then some n else none

/-- The difference, unless it lies below zero. -/
def minus? (m n : Nat) : Option Nat := if n ≤ m then some (m - n) else none

theorem fitting?_of_lt {n : Nat} (h : n < valueLimit) : fitting? n = some n := if_pos h

theorem fitting?_eq_some {n k : Nat} : fitting? n = some k ↔ n < valueLimit ∧ n = k := by
  simp [fitting?]

theorem minus?_of_le {m n : Nat} (h : n ≤ m) : minus? m n = some (m - n) := if_pos h

/-- The portion, unless the product on the way to it does not fit. -/
def Percent.portion? (percent : Percent) (width : Nat) : Option Nat :=
  (fitting? (width * percent.val)).map (· / 100)

theorem Percent.portion?_eq [Arithmetic] {percent : Percent} {width : Nat}
    (h : width * percent.val < valueLimit) :
    percent.portion? width = some (percent.portion width) := by
  rw [portion?, fitting?_of_lt h, Percent.portion_eq (whole_of_lt h), Option.map_some]

namespace Schedule

/-- Adds the portion of what lies between `last` and `reached`. -/
def addPortion? (percent : Percent) (total last reached : Nat) : Option Nat := do
  let width ← minus? reached last
  let portion ← percent.portion? width
  fitting? (total + portion)

/-- The walk through a schedule with every difference, product and sum looked at. Above the top only
the difference can be refused: what follows it saturates. -/
def weighFrom? (policy : TopPolicy) (value total last : Nat) (percent : Percent) :
    List Bracket → Option Nat
  | [] =>
    match policy with
    | .capped => some total
    | .extended =>
      (minus? value last).map fun excess => beyondTop .extended total excess percent
  | b :: bs =>
    if value ≤ b.upTo then addPortion? b.percent total last value
    else do
      let total ← addPortion? b.percent total last b.upTo
      weighFrom? policy value total b.upTo b.percent bs

def weigh? (s : Schedule) (policy : TopPolicy) (value : Nat) : Option Nat :=
  weighFrom? policy value 0 0 ⟨0, Nat.zero_lt_succ 100⟩ s.brackets

/-- Every boundary has room for its percentage. -/
def Roomy (bs : List Bracket) : Prop := ∀ b ∈ bs, b.upTo * 100 < valueLimit

variable {policy : TopPolicy} {value total last reached : Nat} {percent : Percent} {b : Bracket}
  {bs : List Bracket} {s : Schedule}

theorem product_lt_of_addPortion? {k : Nat} (hl : last ≤ reached)
    (h : addPortion? percent total last reached = some k) :
    (reached - last) * percent.val < valueLimit := by
  rw [addPortion?, minus?_of_le hl, Option.bind_eq_bind, Option.bind_some] at h
  obtain ⟨_, hportion, _⟩ := Option.bind_eq_some_iff.mp h
  obtain ⟨_, hproduct, _⟩ := Option.map_eq_some_iff.mp hportion
  exact (fitting?_eq_some.mp hproduct).1

/-- What a walk has got through was looked at bracket by bracket. -/
theorem hundredths_lt_of_weighFrom? {start k : Nat} (h : Walk start last bs) (hl : last ≤ value)
    (hk : weighFrom? policy value total last percent bs = some k) :
    ∀ p ∈ partsFrom value last bs, p.hundredths < valueLimit := by
  induction bs generalizing start total last percent with
  | nil => exact fun _ hp => absurd hp List.not_mem_nil
  | cons b bs ih =>
    rw [partsFrom_cons, Nat.min_eq_right hl, List.forall_mem_cons]
    rw [weighFrom?] at hk
    have hrest := h.skip le_rfl
    split at hk
    · rename_i hends
      rw [Nat.min_eq_left hends]
      refine ⟨product_lt_of_addPortion? hl hk, fun p hp => ?_⟩
      rw [Part.hundredths_eq_zero (width_of_mem_partsFrom hrest hends p hp)]
      decide
    · rename_i hends
      have hpassed := Nat.le_of_not_le hends
      obtain ⟨_, hportion, hk⟩ := Option.bind_eq_some_iff.mp hk
      rw [Nat.min_eq_right hpassed]
      exact ⟨product_lt_of_addPortion? (h.above b List.mem_cons_self) hportion, ih hrest hpassed hk⟩

/-- A part is no wider than its bracket reaches. -/
theorem hundredths_lt_of_roomy (hroom : Roomy bs) (value lower : Nat) :
    ∀ p ∈ partsFrom value lower bs, p.hundredths < valueLimit := by
  induction bs generalizing lower with
  | nil => exact fun _ hp => absurd hp List.not_mem_nil
  | cons b bs ih =>
    obtain ⟨hb, hbs⟩ := List.forall_mem_cons.mp hroom
    refine List.forall_mem_cons.mpr ⟨?_, ih hbs b.upTo⟩
    calc
      (min value b.upTo - min value lower) * b.percent.val
        ≤ b.upTo * 100 :=
          Nat.mul_le_mul ((Nat.sub_le _ _).trans (min_le_right _ _)) b.percent.val_le
      _ < valueLimit := hb

theorem beyondTop_room (ht : total * 100 < valueLimit) (excess : Nat) :
    beyondTop policy total excess percent * 50 ≤ valueLimit := by
  cases policy with
  | capped =>
    rw [beyondTop]
    omega
  | extended =>
    have hsaturated : saturate (excess * percent.val) ≤ valueLimit - 1 := Nat.min_le_right _ _
    have hweight := saturate_le (total + saturate (excess * percent.val) / 100)
    rw [beyondTop]
    omega

variable [Arithmetic]

theorem Walk.addPortion?_eq (h : Walk total last (b :: bs)) (hl : last ≤ reached)
    (hr : reached < valueLimit) (hp : (reached - last) * b.percent.val < valueLimit) :
    addPortion? b.percent total last reached =
      some (keep (total + b.percent.portion (reached - last))) := by
  have hfits := (h.add_portion_le hl).trans_lt hr
  simp only [addPortion?, minus?_of_le hl, Percent.portion?_eq hp, fitting?_of_lt hfits,
    keep_of_lt hfits, Option.bind_eq_bind, Option.bind_some]

theorem weighFrom?_eq (h : Walk total last bs) (hl : last ≤ value) (hv : value < valueLimit)
    (hp : ∀ p ∈ partsFrom value last bs, p.hundredths < valueLimit) :
    weighFrom? policy value total last percent bs =
      some (weighFrom policy value total last percent bs) := by
  induction bs generalizing total last percent with
  | nil =>
    cases policy with
    | capped => rfl
    | extended =>
      rw [weighFrom?, minus?_of_le hl]
      rfl
  | cons b bs ih =>
    rw [partsFrom_cons, Nat.min_eq_right hl] at hp
    obtain ⟨hb, hbs⟩ := List.forall_mem_cons.mp hp
    rw [weighFrom?, weighFrom]
    by_cases hends : value ≤ b.upTo
    · rw [Nat.min_eq_left hends] at hb
      rw [if_pos hends, if_pos hends, h.addPortion?_eq hl hv hb]
    · have hpassed := Nat.le_of_not_le hends
      rw [Nat.min_eq_right hpassed] at hb
      rw [if_neg hends, if_neg hends, Option.bind_eq_bind,
        h.addPortion?_eq (h.above b List.mem_cons_self) (hpassed.trans_lt hv) hb, Option.bind_some]
      exact ih h.next hpassed hbs

/-- The saturated product above the top weighs no more than its hundredth part. -/
theorem weighFrom_room (h : Walk total last bs) (hl : last ≤ value) (hlast : last * 100 < valueLimit)
    (hroom : Roomy bs) : weighFrom policy value total last percent bs * 50 ≤ valueLimit := by
  induction bs generalizing total last percent with
  | nil =>
    have htotal := h.total_le
    exact beyondTop_room (by omega) _
  | cons b bs ih =>
    obtain ⟨hb, hbs⟩ := List.forall_mem_cons.mp hroom
    rw [weighFrom]
    split
    · rename_i hv
      have hkept := (keep_le _).trans (h.add_portion_le hl)
      omega
    · rename_i hv
      exact ih h.next (Nat.le_of_not_le hv) hb hbs

theorem weigh?_eq (hv : value < valueLimit) (hp : ∀ p ∈ s.parts value, p.hundredths < valueLimit) :
    s.weigh? policy value = some (s.weigh policy value) :=
  weighFrom?_eq (Walk.start s) (Nat.zero_le value) hv hp

theorem weighsWhole_of_weigh? {k : Nat} (h : s.weigh? policy value = some k) :
    s.WeighsWhole value := fun p hp =>
  whole_of_lt (hundredths_lt_of_weighFrom? (Walk.start s) (Nat.zero_le value) h p hp)

/-- A weight that is computed without overflow is the weight in every arithmetic. -/
theorem weigh_of_weigh? (hv : value < valueLimit) {k : Nat} (h : s.weigh? policy value = some k) :
    s.weigh policy value = k := by
  have hp := hundredths_lt_of_weighFrom? (Walk.start s) (Nat.zero_le value) h
  exact Option.some.inj ((weigh?_eq hv hp).symm.trans h)

theorem weigh_room (hroom : Roomy s.brackets) (policy : TopPolicy) (value : Nat) :
    s.weigh policy value * 50 ≤ valueLimit :=
  weighFrom_room (Walk.start s) (Nat.zero_le value) (by decide) hroom

end Schedule
end Solvency
