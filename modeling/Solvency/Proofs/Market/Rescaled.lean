import Solvency.Proofs.Amount.Plain
import Solvency.Proofs.Market.Loaded

/-! # A market in another scaling

A scaling is regular if its prices and quantities have room for eight and two places and multiply to
values of sixteen places. Designating other tokens then changes the units a listing counts in, and
not what a whole token is worth.
-/
namespace Solvency

namespace Sheet

/-- The test holds of all records behind the header that can be read as texts. -/
def everyRow (p : List String → Bool) (bytes : Bytes) : Bool :=
  ((records bytes).tail.zipIdx firstDataRow).all fun (record, row) =>
    (cells row record).toOption.all p

theorem of_everyRow {p : List String → Bool} {bytes : Bytes} {record : Record} {row : Nat}
    {texts : List String} (h : everyRow p bytes = true)
    (hmem : (record, row) ∈ (records bytes).tail.zipIdx firstDataRow)
    (hcells : cells row record = .ok texts) : p texts = true := by
  have hp := List.all_eq_true.mp h (record, row) hmem
  simp only [hcells] at hp
  exact hp

end Sheet

structure Scaling.Regular (s : Scaling) : Prop where
  multiplier : ∃ zeros, 8 ≤ zeros ∧ zeros + s.precision = 16 ∧ s.priceMultiplier = tenTo zeros
  two_le : 2 ≤ s.precision

theorem Scaling.regular_eightPlaces : eightPlaces.Regular where
  multiplier := ⟨8, by decide, rfl, rfl⟩
  two_le := by decide

theorem Scaling.regular_twoPlaces : twoPlaces.Regular where
  multiplier := ⟨14, by decide, rfl, rfl⟩
  two_le := by decide

structure Settings.Regular (s : Settings) : Prop where
  common : s.commonScaling.Regular
  designated : s.designatedScaling.Regular

theorem Settings.Regular.scalingOf {s : Settings} (h : s.Regular) (token : String) :
    (s.scalingOf token).Regular := by
  unfold Settings.scalingOf
  split
  · exact h.designated
  · exact h.common

/-- Two listings of one token, in which a whole token is worth the same. -/
structure Listing.SameAsset (l k : Listing) : Prop where
  symbol_eq : l.symbol = k.symbol
  schedule_eq : ∀ facility, l.schedule facility = k.schedule facility
  worth_eq : tenTo l.quote.scaling.precision * l.quote.price =
    tenTo k.quote.scaling.precision * k.quote.price

namespace Market

/-- No price has an exponent or more than `places` digits behind its point. -/
def plainPrices (places : Nat) : Sheet.Bytes → Bool :=
  Sheet.everyRow fun cells => cells[1]?.all (Amount.isPlain places)

theorem worth_eq_of_readPrice {s t : Scaling} (hs : s.Regular) (ht : t.Regular) {row p q : Nat}
    {symbol symbol' text : String} (hplain : Amount.isPlain 8 text = true)
    (hp : readPrice s row symbol text = .ok p) (hq : readPrice t row symbol' text = .ok q) :
    tenTo s.precision * p = tenTo t.precision * q := by
  obtain ⟨zeros, hzeros, hsum, hmultiplier⟩ := hs.multiplier
  obtain ⟨zeros', hzeros', hsum', hmultiplier'⟩ := ht.multiplier
  have hp := (readPrice_eq_ok hp).1
  have hq := (readPrice_eq_ok hq).1
  rw [hmultiplier] at hp
  rw [hmultiplier'] at hq
  have hpq := Amount.scaled?_proportional hplain hzeros hzeros' hp hq
  have hone : tenTo s.precision * tenTo zeros = tenTo t.precision * tenTo zeros' := by
    rw [← tenTo_add, ← tenTo_add, Nat.add_comm, hsum, Nat.add_comm, hsum']
  apply Nat.eq_of_mul_eq_mul_right (Nat.mul_pos (tenTo_pos zeros) (tenTo_pos zeros'))
  calc
    tenTo s.precision * p * (tenTo zeros * tenTo zeros')
      = tenTo s.precision * tenTo zeros * (p * tenTo zeros') := by ring
    _ = tenTo t.precision * tenTo zeros' * (q * tenTo zeros) := by rw [hone, hpq]
    _ = tenTo t.precision * q * (tenTo zeros * tenTo zeros') := by ring

variable {s t : Settings} {m n : Market} {bytes : Sheet.Bytes}

theorem sameAsset_of_readListing (hs : s.Regular) (ht : t.Regular)
    (hv : s.valueMultiplier = t.valueMultiplier) {row : Nat} {cells : List String} {l k : Listing}
    (hplain : cells[1]?.all (Amount.isPlain 8) = true) (hl : readListing s row cells = .ok l)
    (hk : readListing t row cells = .ok k) : l.SameAsset k := by
  obtain ⟨name, price, vip, cross, portfolio, rest, rfl, hsymbol, hscaling, hp, hvip, hcross,
    hportfolio⟩ := readListing_eq_ok hl
  obtain ⟨_, _, _, _, _, _, hcells, hsymbol', hscaling', hp', hvip', hcross', hportfolio'⟩ :=
    readListing_eq_ok hk
  cases hcells
  rw [hv] at hvip hcross hportfolio
  constructor
  · exact hsymbol.trans hsymbol'.symm
  · intro facility
    cases facility with
    | vipLoan => exact Except.ok.inj (hvip.symm.trans hvip')
    | crossMargin => exact Except.ok.inj (hcross.symm.trans hcross')
    | portfolioMargin => exact Except.ok.inj (hportfolio.symm.trans hportfolio')
  · have hl : l.quote.scaling.Regular := hscaling ▸ hs.scalingOf l.symbol
    have hk : k.quote.scaling.Regular := hscaling' ▸ ht.scalingOf k.symbol
    exact worth_eq_of_readPrice hl hk hplain hp hp'

theorem two_le_of_ofSheet (hs : s.Regular) (hm : ofSheet s bytes = .ok m) :
    ∀ l ∈ m.listings, 2 ≤ l.quote.scaling.precision := by
  intro l hl
  rw [(loaded_of_ofSheet hm l hl).scaling_eq]
  exact (hs.scalingOf l.symbol).two_le

/-- The same assets in the same order. -/
def SameAssets (m n : Market) : Prop := List.Forall₂ Listing.SameAsset m.listings n.listings

theorem sameAssets_of_ofSheet (hs : s.Regular) (ht : t.Regular)
    (hv : s.valueMultiplier = t.valueMultiplier) (hplain : plainPrices 8 bytes = true)
    (hm : ofSheet s bytes = .ok m) (hn : ofSheet t bytes = .ok n) : m.SameAssets n := by
  refine forall₂_of_common ?_ (ofRecords_eq_ok hm) (ofRecords_eq_ok hn)
  rintro ⟨record, row⟩ hentry l k ⟨cells, hcells, hl⟩ ⟨_, hcells', hk⟩
  cases hcells.symm.trans hcells'
  exact sameAsset_of_readListing hs ht hv (Sheet.of_everyRow hplain hentry hcells) hl hk

theorem sameAsset_of_find? {ls ks : List Listing} (h : List.Forall₂ Listing.SameAsset ls ks)
    {symbol : String} {l k : Listing} (hl : ls.find? (·.symbol == symbol) = some l)
    (hk : ks.find? (·.symbol == symbol) = some k) : l.SameAsset k := by
  induction h with
  | nil => cases hl
  | cons hx _ ih =>
    rw [List.find?_cons, hx.symbol_eq] at hl
    rw [List.find?_cons] at hk
    split at hl
    · rename_i heq
      rw [heq] at hk
      cases hl
      cases hk
      exact hx
    · rename_i heq
      rw [heq] at hk
      exact ih hl hk

theorem sameAsset_of_listing (h : m.SameAssets n) {symbol : String} {l k : Listing}
    (hl : m.listing symbol = .ok l) (hk : n.listing symbol = .ok k) : l.SameAsset k :=
  sameAsset_of_find? h (listing_eq_ok.mp hl) (listing_eq_ok.mp hk)

end Market
end Solvency
