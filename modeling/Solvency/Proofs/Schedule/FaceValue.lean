import Solvency.Pledge
import Solvency.Proofs.Whole

/-! # Weights never exceed face value

Every piece of a value counts at no more than all of itself, so a walk through a schedule cannot
weigh more than what it has walked past. A pledge therefore supports no more debt than its units are
worth. What overflows on the way only lessens a weight.
-/
namespace Solvency
open Arithmetic

theorem Percent.val_le (percent : Percent) : percent.val ≤ 100 := Nat.le_of_lt_succ percent.isLt

theorem Percent.hundredth_le (percent : Percent) (width : Nat) :
    width * percent.val / 100 ≤ width := by
  have hm := Nat.mul_le_mul_left width percent.val_le
  omega

theorem Percent.portion_le [Arithmetic] (percent : Percent) (width : Nat) :
    percent.portion width ≤ width :=
  (Nat.div_le_div_right (keep_le _)).trans (percent.hundredth_le width)

namespace Schedule

theorem beyondTop_le (policy : TopPolicy) (percent : Percent) {total last value : Nat}
    (ht : total ≤ last) (hl : last ≤ value) :
    beyondTop policy total (value - last) percent ≤ value := by
  cases policy with
  | capped => exact ht.trans hl
  | extended =>
    have hs := saturate_le (total + saturate ((value - last) * percent.val) / 100)
    have hx := Nat.div_le_div_right (c := 100) (saturate_le ((value - last) * percent.val))
    have hp := percent.hundredth_le (value - last)
    simp only [beyondTop]
    omega

/-- Where a walk stands: it has weighed the value up to `last` as `total`, and the boundaries ahead
of it increase from there. -/
structure Walk (total last : Nat) (ahead : List Bracket) : Prop where
  total_le : total ≤ last
  above : ∀ b ∈ ahead, last ≤ b.upTo
  increasing : ahead.Pairwise fun a b => a.upTo < b.upTo

theorem Walk.start (s : Schedule) : Walk 0 0 s.brackets where
  total_le := le_rfl
  above _ _ := Nat.zero_le _
  increasing := s.increasing

/-- A bracket that is passed leaves what was ahead of it. -/
theorem Walk.skip {total last reached : Nat} {b : Bracket} {bs : List Bracket}
    (h : Walk total last (b :: bs)) (hr : reached ≤ b.upTo) : Walk reached b.upTo bs := by
  obtain ⟨hbs, hi⟩ := List.pairwise_cons.mp h.increasing
  exact ⟨hr, fun c hc => (hbs c hc).le, hi⟩

variable [Arithmetic]

/-- With a portion of the next bracket the total stays within what is reached of it. -/
theorem Walk.add_portion_le {total last : Nat} {b : Bracket} {bs : List Bracket}
    (h : Walk total last (b :: bs)) {reached : Nat} (hl : last ≤ reached) :
    total + b.percent.portion (reached - last) ≤ reached := by
  have htotal := h.total_le
  have hportion := b.percent.portion_le (reached - last)
  omega

/-- Passing a bracket adds no more to the total than to the value passed. -/
theorem Walk.next {total last : Nat} {b : Bracket} {bs : List Bracket}
    (h : Walk total last (b :: bs)) :
    Walk (keep (total + b.percent.portion (b.upTo - last))) b.upTo bs :=
  h.skip ((keep_le _).trans (h.add_portion_le (h.above b List.mem_cons_self)))

theorem weighFrom_le (policy : TopPolicy) {value total last : Nat} (percent : Percent)
    {ahead : List Bracket} (h : Walk total last ahead) (hl : last ≤ value) :
    weighFrom policy value total last percent ahead ≤ value := by
  induction ahead generalizing total last percent with
  | nil => exact beyondTop_le policy percent h.total_le hl
  | cons b bs ih =>
    rw [weighFrom]
    split
    · exact (keep_le _).trans (h.add_portion_le hl)
    · rename_i hv
      exact ih b.percent h.next (Nat.le_of_not_le hv)

theorem weigh_le (s : Schedule) (policy : TopPolicy) (value : Nat) : s.weigh policy value ≤ value :=
  weighFrom_le policy 0 (Walk.start s) (Nat.zero_le value)

end Schedule

namespace Listing
variable [Arithmetic]

theorem worth_le (l : Listing) (policy : TopPolicy) (facility : Facility) (units : Nat) :
    l.worth policy facility units ≤ l.quote.price * units := by
  rw [Nat.mul_comm]
  exact ((l.schedule facility).weigh_le policy _).trans (keep_le (units * l.quote.price))

theorem capacity_le (l : Listing) (policy : TopPolicy) (pledge : Pledge) :
    l.capacity policy pledge ≤ l.quote.price * pledge.total := by
  have hv := l.worth_le policy .vipLoan pledge.vipLoan
  have hc := l.worth_le policy .crossMargin pledge.crossMargin
  have hp := l.worth_le policy .portfolioMargin pledge.portfolioMargin
  calc
    l.capacity policy pledge ≤ l.worth policy .vipLoan pledge.vipLoan +
        l.worth policy .crossMargin pledge.crossMargin +
        l.worth policy .portfolioMargin pledge.portfolioMargin := keep_le _
    _ ≤ l.quote.price * pledge.vipLoan + l.quote.price * pledge.crossMargin +
        l.quote.price * pledge.portfolioMargin := by omega
    _ = l.quote.price * pledge.total := by rw [← Nat.mul_add, ← Nat.mul_add]; rfl

end Listing
end Solvency
