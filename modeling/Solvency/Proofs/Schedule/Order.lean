import Solvency.Proofs.Schedule.FaceValue

/-! # Weights under the two policies

Among boundaries that are values a walk never has more behind it than a value can be. The extended
policy therefore weighs no value at less than the capped one does.
-/
namespace Solvency
open Arithmetic

theorem saturate_mono {m n : Nat} (h : m ≤ n) : saturate m ≤ saturate n := min_le_min_right _ h

namespace Schedule

/-- Every boundary is a value. -/
def InRange (s : Schedule) : Prop := ∀ b ∈ s.brackets, b.upTo < valueLimit

/-- A walk among boundaries that are values. -/
structure RangedWalk (total last : Nat) (ahead : List Bracket) : Prop extends
    Walk total last ahead where
  last_lt : last < valueLimit
  inRange : ∀ b ∈ ahead, b.upTo < valueLimit

variable {policy : TopPolicy} {total last : Nat} {percent : Percent} {b : Bracket}
  {bs : List Bracket}

theorem RangedWalk.start {s : Schedule} (h : s.InRange) : RangedWalk 0 0 s.brackets where
  toWalk := Walk.start s
  last_lt := by decide
  inRange := h

theorem RangedWalk.total_lt (h : RangedWalk total last bs) : total < valueLimit :=
  h.total_le.trans_lt h.last_lt

theorem le_beyondTop (ht : total < valueLimit) (excess : Nat) :
    total ≤ beyondTop policy total excess percent := by
  cases policy with
  | capped => exact le_rfl
  | extended =>
    calc
      total = saturate total := (saturate_of_lt ht).symm
      _ ≤ _ := saturate_mono (Nat.le_add_right total _)

variable [Arithmetic]

theorem RangedWalk.next (h : RangedWalk total last (b :: bs)) :
    RangedWalk (keep (total + b.percent.portion (b.upTo - last))) b.upTo bs where
  toWalk := h.toWalk.next
  last_lt := h.inRange b List.mem_cons_self
  inRange c hc := h.inRange c (List.mem_cons_of_mem b hc)

theorem weighFrom_capped_le (h : RangedWalk total last bs) (value : Nat) :
    weighFrom .capped value total last percent bs ≤
      weighFrom .extended value total last percent bs := by
  induction bs generalizing total last percent with
  | nil => exact le_beyondTop h.total_lt _
  | cons b bs ih =>
    rw [weighFrom, weighFrom]
    split
    · exact le_rfl
    · exact ih h.next

theorem weigh_capped_le {s : Schedule} (hs : s.InRange) (value : Nat) :
    s.weigh .capped value ≤ s.weigh .extended value :=
  weighFrom_capped_le (RangedWalk.start hs) value

end Schedule

theorem PerFacility.sum_mono {x y : PerFacility Nat}
    (h : ∀ facility, x.on facility ≤ y.on facility) : x.sum ≤ y.sum :=
  Nat.add_le_add (Nat.add_le_add (h .vipLoan) (h .crossMargin)) (h .portfolioMargin)

namespace Listing

def InRange (l : Listing) : Prop := ∀ facility, (l.schedule facility).InRange

/-- What the pledges at the facilities are worth together, before it is kept. -/
def worths [Arithmetic] (l : Listing) (policy : TopPolicy) (pledge : Pledge) : Nat :=
  (PerFacility.ofFn fun facility => l.worth policy facility (pledge.on facility)).sum

variable [Arithmetic] {l : Listing} {pledge : Pledge}

theorem capacity_eq (l : Listing) (policy : TopPolicy) (pledge : Pledge) :
    l.capacity policy pledge = keep (l.worths policy pledge) := rfl

theorem worths_capped_le (hl : l.InRange) (pledge : Pledge) :
    l.worths .capped pledge ≤ l.worths .extended pledge := by
  apply PerFacility.sum_mono
  intro facility
  simp only [PerFacility.on_ofFn]
  exact Schedule.weigh_capped_le (hl facility) _

theorem capacity_capped_le (hl : l.InRange) (hw : Whole (l.worths .extended pledge)) :
    l.capacity .capped pledge ≤ l.capacity .extended pledge :=
  hw.keep_mono (worths_capped_le hl pledge)

end Listing

/-- Every boundary of every listing is a value. -/
def Market.InRange (m : Market) : Prop := ∀ l ∈ m.listings, l.InRange

end Solvency
