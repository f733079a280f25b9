import Solvency.Proofs.Market.Bounded
import Solvency.Proofs.Schedule.Growth

/-! # Capacities grow with the pledges, and no faster

More units at a facility are worth no less there and add no more to their worth than their price.
The capacity of a pledge follows, as long as that of the larger pledge is computed without overflow.
Without room for the sum over the facilities a larger pledge may support less.
-/
namespace Solvency

namespace Pledge

/-- The pledge with more units at one facility. -/
def add (pledge : Pledge) (facility : Facility) (units : Nat) : Pledge :=
  PerFacility.ofFn fun f => if f = facility then pledge.on f + units else pledge.on f

theorem on_add (pledge : Pledge) (facility : Facility) (units : Nat) :
    (pledge.add facility units).on facility = pledge.on facility + units := by
  rw [add, PerFacility.on_ofFn, if_pos rfl]

theorem on_le_on_add (pledge : Pledge) (facility : Facility) (units : Nat) (f : Facility) :
    pledge.on f ≤ (pledge.add facility units).on f := by
  rw [add, PerFacility.on_ofFn]
  split
  · exact Nat.le_add_right _ _
  · exact le_rfl

end Pledge

namespace Listing
open Arithmetic

variable [Arithmetic] {l : Listing} {policy : TopPolicy} {facility : Facility}
  {amount units k : Nat} {p q : Pledge}

theorem WorthWhole.of_le (h : l.WorthWhole facility units) (hle : amount ≤ units) :
    l.WorthWhole facility amount := by
  have hvalue := Nat.mul_le_mul_right l.quote.price hle
  exact ⟨hvalue.trans_lt h.value_lt, h.weighsWhole.of_le hvalue⟩

theorem worth_mono (h : l.WorthWhole facility units) (hle : amount ≤ units) :
    l.worth policy facility amount ≤ l.worth policy facility units := by
  rw [h.worth_eq, (h.of_le hle).worth_eq]
  exact Schedule.weigh_mono h.value_lt h.weighsWhole (Nat.mul_le_mul_right l.quote.price hle)

theorem worth_add_le (h : l.WorthWhole facility (amount + units)) :
    l.worth policy facility (amount + units) ≤
      l.worth policy facility amount + units * l.quote.price := by
  have hvalue : (amount + units) * l.quote.price =
    amount * l.quote.price + units * l.quote.price := Nat.add_mul _ _ _
  have hrise : (l.schedule facility).weigh policy _ ≤ _ :=
    Schedule.weigh_le_add h.value_lt h.weighsWhole
      (Nat.mul_le_mul_right l.quote.price (Nat.le_add_right amount units))
  rw [h.worth_eq, (h.of_le (Nat.le_add_right amount units)).worth_eq]
  omega

theorem worths_mono (hq : ∀ facility, l.WorthWhole facility (q.on facility))
    (hle : ∀ facility, p.on facility ≤ q.on facility) : l.worths policy p ≤ l.worths policy q := by
  apply PerFacility.sum_mono
  intro facility
  simp only [PerFacility.on_ofFn]
  exact worth_mono (hq facility) (hle facility)

/-- Pledging more supports no less debt. -/
theorem capacity_mono (hq : l.capacity? policy q = some k)
    (hle : ∀ facility, p.on facility ≤ q.on facility) :
    l.capacity policy p ≤ l.capacity policy q := by
  obtain ⟨hwhole, hsum, -, hcapacity⟩ := capacity_of_capacity? hq
  calc
    l.capacity policy p ≤ l.worths policy p := keep_le _
    _ ≤ l.worths policy q := worths_mono hwhole hle
    _ = l.capacity policy q := hsum.trans hcapacity.symm

/-- Only the worth at the facility itself changes. -/
theorem worths_add (l : Listing) (policy : TopPolicy) (p : Pledge) (facility : Facility)
    (units : Nat) :
    l.worths policy (p.add facility units) + l.worth policy facility (p.on facility) =
      l.worths policy p + l.worth policy facility (p.on facility + units) := by
  unfold worths
  cases facility <;> simp [Pledge.add] <;> omega

theorem capacity_add_le (hk : l.capacity? policy (p.add facility units) = some k) :
    l.capacity policy (p.add facility units) ≤ l.capacity policy p + units * l.quote.price := by
  obtain ⟨hwhole, hsum, hlt, hcapacity⟩ := capacity_of_capacity? hk
  have hframe := l.worths_add policy p facility units
  have hworth : l.worth policy facility _ ≤ _ :=
    worth_add_le (p.on_add facility units ▸ hwhole facility)
  have hless : l.worths policy p ≤ _ := worths_mono hwhole (p.on_le_on_add facility units)
  have hkept : l.capacity policy p = l.worths policy p := keep_of_lt (hless.trans_lt (hsum ▸ hlt))
  omega

end Listing

/-- Percentages that rise and fall, on brackets too narrow for whole results. -/
def unevenSchedule : Schedule :=
  ⟨[⟨3, 55, by decide⟩, ⟨7, Fin.last 100⟩, ⟨10, 20, by decide⟩], by decide⟩

def unevenMarket : Market where
  listings := [⟨⟨"eth", 4, .eightPlaces⟩, ⟨unevenSchedule, .empty, unevenSchedule⟩⟩]
  distinct := by decide

end Solvency
