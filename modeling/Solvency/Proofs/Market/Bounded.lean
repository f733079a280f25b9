import Solvency.Proofs.Market.Loaded
import Solvency.Proofs.Schedule.Bounded
import Solvency.Proofs.Schedule.Order

/-! # Capacities without overflow

The bounds of a bracket list and the prices of a sheet are words. With the usual multiplier of values,
the boundaries of a loaded market leave room for their percentages, and whatever words of units are
pledged, their capacity is computed without a difference below zero and without a product or a sum
that is no value.
-/
namespace Solvency
open Arithmetic

namespace Listing

/-- The worth of pledged units, where neither their value nor a step of the walk is refused. -/
def worth? (l : Listing) (policy : TopPolicy) (facility : Facility) (units : Nat) : Option Nat := do
  let value ← fitting? (units * l.quote.price)
  (l.schedule facility).weigh? policy value

/-- The capacity of a pledge, added up facility by facility. -/
def capacity? (l : Listing) (policy : TopPolicy) (pledge : Pledge) : Option Nat :=
  Facility.all.foldlM (fun sum facility => do
    let worth ← l.worth? policy facility (pledge.on facility)
    fitting? (sum + worth)) 0

variable {l : Listing} {policy : TopPolicy} {facility : Facility} {units k : Nat} {pledge : Pledge}

/-- A capacity that is computed is the sum of worths that are, and this sum has room. -/
theorem exists_worths (h : l.capacity? policy pledge = some k) :
    ∃ worths : PerFacility Nat,
      (∀ facility, l.worth? policy facility (pledge.on facility) = some (worths.on facility)) ∧
      worths.sum < valueLimit ∧ worths.sum = k := by
  simp only [capacity?, Facility.all, List.foldlM_cons, List.foldlM_nil, Option.bind_eq_bind,
    Nat.zero_add] at h
  obtain ⟨_, hv, h⟩ := Option.bind_eq_some_iff.mp h
  obtain ⟨vip, hvip, hv⟩ := Option.bind_eq_some_iff.mp hv
  obtain ⟨_, hc, h⟩ := Option.bind_eq_some_iff.mp h
  obtain ⟨cross, hcross, hc⟩ := Option.bind_eq_some_iff.mp hc
  obtain ⟨_, hp, h⟩ := Option.bind_eq_some_iff.mp h
  obtain ⟨portfolio, hportfolio, hp⟩ := Option.bind_eq_some_iff.mp hp
  obtain rfl := (fitting?_eq_some.mp hv).2
  obtain rfl := (fitting?_eq_some.mp hc).2
  obtain ⟨hlt, rfl⟩ := fitting?_eq_some.mp hp
  refine ⟨⟨vip, cross, portfolio⟩, ?_, hlt, Option.some.inj h⟩
  intro facility
  cases facility with
  | vipLoan => exact hvip
  | crossMargin => exact hcross
  | portfolioMargin => exact hportfolio

section
variable [Arithmetic]

/-- The worth is computed in full. -/
structure WorthWhole (l : Listing) (facility : Facility) (units : Nat) : Prop where
  value_lt : units * l.quote.price < valueLimit
  weighsWhole : (l.schedule facility).WeighsWhole (units * l.quote.price)

theorem WorthWhole.worth_eq (h : l.WorthWhole facility units) :
    l.worth policy facility units = (l.schedule facility).weigh policy (units * l.quote.price) := by
  rw [worth, Quote.value, keep_of_lt h.value_lt]

theorem worthWhole_of_worth? (h : l.worth? policy facility units = some k) :
    l.WorthWhole facility units ∧ l.worth policy facility units = k := by
  obtain ⟨_, hvalue, hweigh⟩ := Option.bind_eq_some_iff.mp h
  obtain ⟨hlt, rfl⟩ := fitting?_eq_some.mp hvalue
  have hwhole : l.WorthWhole facility units := ⟨hlt, Schedule.weighsWhole_of_weigh? hweigh⟩
  exact ⟨hwhole, hwhole.worth_eq.trans (Schedule.weigh_of_weigh? hlt hweigh)⟩

theorem worthWhole_of_isSome (policy : TopPolicy)
    (h : (l.worth? policy facility units).isSome = true) : l.WorthWhole facility units := by
  obtain ⟨_, hk⟩ := Option.isSome_iff_exists.mp h
  exact (worthWhole_of_worth? hk).1

/-- A capacity that is computed without overflow is the capacity in every arithmetic. -/
theorem capacity_of_capacity? (h : l.capacity? policy pledge = some k) :
    (∀ facility, l.WorthWhole facility (pledge.on facility)) ∧ l.worths policy pledge = k ∧
      k < valueLimit ∧ l.capacity policy pledge = k := by
  obtain ⟨worths, hworths, hlt, rfl⟩ := exists_worths h
  have hsum : l.worths policy pledge = worths.sum := by
    rw [Listing.worths, PerFacility.sum_ofFn, (worthWhole_of_worth? (hworths .vipLoan)).2,
      (worthWhole_of_worth? (hworths .crossMargin)).2,
      (worthWhole_of_worth? (hworths .portfolioMargin)).2]
    rfl
  refine ⟨fun facility => (worthWhole_of_worth? (hworths facility)).1, hsum, hlt, ?_⟩
  rw [capacity_eq, hsum, keep_of_lt hlt]

theorem worth?_eq (hroom : ∀ facility, Schedule.Roomy (l.schedule facility).brackets)
    (hp : l.quote.price < wordLimit) (policy : TopPolicy) (facility : Facility)
    (hu : units < wordLimit) :
    l.worth? policy facility units = some (l.worth policy facility units) := by
  have hvalue := Market.value_lt_valueLimit hp hu
  rw [worth?, fitting?_of_lt hvalue, Option.bind_eq_bind, Option.bind_some, worth, Quote.value,
    keep_of_lt hvalue]
  exact Schedule.weigh?_eq hvalue (Schedule.hundredths_lt_of_roomy (hroom facility) _ 0)

theorem capacity?_eq (hroom : ∀ facility, Schedule.Roomy (l.schedule facility).brackets)
    (hp : l.quote.price < wordLimit) (hpledge : ∀ facility, pledge.on facility < wordLimit)
    (policy : TopPolicy) : l.capacity? policy pledge = some (l.capacity policy pledge) := by
  have hworth : ∀ facility, l.worth policy facility (pledge.on facility) * 50 ≤ valueLimit :=
    fun facility => Schedule.weigh_room (hroom facility) policy _
  have hlimit : 0 < valueLimit := by decide
  have hv := hworth .vipLoan
  have hc := hworth .crossMargin
  have hm := hworth .portfolioMargin
  have hfits : l.worths policy pledge < valueLimit := by
    rw [worths, PerFacility.sum_ofFn]
    omega
  simp only [capacity?, Facility.all, List.foldlM_cons, List.foldlM_nil,
    worth?_eq hroom hp policy _ (hpledge _), Option.bind_eq_bind, Option.bind_some, Nat.zero_add]
  rw [fitting?_of_lt (by omega), Option.bind_some, fitting?_of_lt (by omega), Option.bind_some,
    fitting?_of_lt (by omega), Option.bind_some, capacity_eq, keep_of_lt hfits]
  rfl

end

end Listing

namespace Market

/-- A boundary is a word times the multiplier, which has room for two digits more. -/
theorem roomy_of_scaledBy {s : Schedule} {multiplier : Nat} (h : s.ScaledBy multiplier)
    (hm : multiplier ≤ tenTo 16) : Schedule.Roomy s.brackets := by
  intro b hb
  obtain ⟨bound, hbound, heq⟩ := h.scaled b hb
  calc
    b.upTo * 100 = bound * multiplier * 100 := by rw [heq]
    _ ≤ wordLimit * tenTo 16 * 100 :=
      Nat.mul_le_mul_right 100 (Nat.mul_le_mul hbound.le hm)
    _ < valueLimit := by decide

/-- In a loaded market the capacity of every pledge is computed within the range of values: nothing
on the way to it is refused, under either policy. -/
theorem capacity?_of_ofSheet [Arithmetic] {settings : Settings} {bytes : Sheet.Bytes} {m : Market}
    (hm : ofSheet settings bytes = .ok m) (hs : settings.valueMultiplier ≤ tenTo 16)
    {token : String} {l : Listing} (hl : m.listing token = .ok l) {pledge : Pledge}
    (hpledge : ∀ facility, pledge.on facility < wordLimit) (policy : TopPolicy) :
    l.capacity? policy pledge = some (l.capacity policy pledge) := by
  have hloaded := loaded_of_ofSheet hm l (List.mem_of_find?_eq_some (listing_eq_ok.mp hl))
  have hroom : ∀ facility, Schedule.Roomy (l.schedule facility).brackets :=
    fun facility => roomy_of_scaledBy (hloaded.schedules facility) hs
  exact Listing.capacity?_eq hroom hloaded.price_lt hpledge policy

/-- The greatest price that is a word, and bounds up to the greatest word. -/
def steepSheet : Sheet.Bytes :=
  Sheet.encode ("token,price,vl,margin,pm\n" ++
    "btc,184467440737.09551615,[0-18446744073709551615:100],\"[0-7:35,7-90:100]\",\n")

/-- The greatest words are pledged, and the product above the top saturates. -/
theorem steepSheet_bounded :
    ∃ m l, ofSheet {} steepSheet = .ok m ∧ ({} : Settings).valueMultiplier ≤ tenTo 16 ∧
      m.listing "btc" = .ok l ∧ l.quote.price = wordLimit - 1 ∧
      (∀ facility, (PerFacility.ofFn fun _ => wordLimit - 1).on facility < wordLimit) ∧
      ∀ policy, l.capacity? policy (.ofFn fun _ => wordLimit - 1) =
        some (l.capacity policy (.ofFn fun _ => wordLimit - 1)) := by
  have hs : ({} : Settings).valueMultiplier ≤ tenTo 16 := le_rfl
  have hpledge : ∀ facility, (PerFacility.ofFn fun _ => wordLimit - 1).on facility < wordLimit := by
    intro facility
    rw [PerFacility.on_ofFn]
    decide
  have hk : (ofSheet {} steepSheet >>= (·.listing "btc")).toOption.any
      (·.quote.price == wordLimit - 1) = true := by decide +kernel
  obtain ⟨l, hload, hprice⟩ := any_toOption.mp hk
  obtain ⟨m, hm, hl⟩ := bind_eq_ok.mp hload
  exact ⟨m, l, hm, hs, hl, beq_iff_eq.mp hprice, hpledge,
    capacity?_of_ofSheet hm hs hl hpledge⟩

/-- Brackets of a hundredth of all values each, of which every product has room. -/
def crowdedSchedule : Schedule where
  brackets := (List.range 52).map fun i => ⟨(i + 1) * (valueLimit / 100), Fin.last 100⟩
  increasing := by
    rw [List.pairwise_map]
    refine List.pairwise_lt_range.imp fun h => ?_
    exact Nat.mul_lt_mul_of_pos_right (Nat.succ_lt_succ h) (by decide)

def crowdedListing : Listing :=
  ⟨⟨"btc", wordLimit - 1, .eightPlaces⟩, ⟨crowdedSchedule, crowdedSchedule, .empty⟩⟩

def crowdedMarket : Market := ⟨[crowdedListing], by decide⟩

/-- The greatest word at two facilities: each of them is weighed, but their sum has no room. -/
example : crowdedListing.capacity? .capped ⟨0, wordLimit - 1, 0⟩ =
      some 176946830798888001000954795864519469928 ∧
    crowdedListing.capacity? .capped ⟨wordLimit - 1, wordLimit - 1, 0⟩ = none := by
  decide +kernel

end Market
end Solvency
