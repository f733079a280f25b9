import Solvency.Market

/-! # Pledges

The units of one token that are pledged to each facility. Their capacity is the debt they support:
the value at each facility, weighed by the listing's schedule there, summed.
-/
namespace Solvency

abbrev Pledge := PerFacility Nat

namespace Pledge

/-- Shares of `equity`, one divisor for each facility, rounded down. -/
def share (equity : Nat) (divisors : PerFacility Nat) : Pledge := divisors.map (equity / ·)

/-- Shares of `equity`, one divisor for each facility, rounded up. -/
def shareUp (equity : Nat) (divisors : PerFacility Nat) : Pledge := divisors.map (divUp equity)

def total (p : Pledge) : Nat := p.sum

end Pledge

namespace Listing

/-- The weighed value of `units` pledged to a facility. -/
def worth [Arithmetic] (l : Listing) (policy : TopPolicy) (facility : Facility) (units : Nat) :
    Nat :=
  (l.schedule facility).weigh policy (l.quote.value units)

def capacity [Arithmetic] (l : Listing) (policy : TopPolicy) (pledge : Pledge) : Nat :=
  Arithmetic.keep
    (PerFacility.ofFn fun facility => l.worth policy facility (pledge.on facility)).sum

/-- The fewest units of debt whose value passes the pledge's capacity by `overshoot`. Only this last
sum is looked at. -/
def debtBeyond [Arithmetic] (l : Listing) (policy : TopPolicy) (pledge : Pledge) (overshoot : Nat) :
    Except Fault Nat :=
  let target := l.capacity policy pledge + overshoot
  if target < valueLimit then l.quote.unitsCovering target else .error (.overflow .overshoot)

end Listing
end Solvency
