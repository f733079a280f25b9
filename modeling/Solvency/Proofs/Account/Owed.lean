import Solvency.Proofs.Account.Judged
import Solvency.Proofs.Verdict.FaceSolvency

/-! # What a drawn account owes

The positions of an account are drawn one by one, but its debts are judged together. The debts of a
valid account are shares of its whole capacity and stay within it, however they are rounded and
whatever is kept of it. Those of an overdrawn account pass the capacity of each pledge behind them
and so the whole of it, unless it holds tokens without brackets at the VIP loan or its debts
overflow when they are added up.
-/
namespace Solvency.Account
open Arithmetic Market

variable {m : Market} {settings : Settings} {listings : List Listing} {ps : List Position}
  {index : Nat} {d : Draws} {a : Account}

theorem price_pos_of_resolve (hr : m.resolve settings.tokens = .ok listings)
    (hp : ∀ l ∈ m.listings, 0 < l.quote.price) : ∀ l ∈ listings, 0 < l.quote.price := by
  intro l hl
  exact hp l (List.mem_of_find?_eq_some (listing_eq_ok.mp (listing_of_resolve hr l hl).2))

/-- Each debt is the greatest within an equal share of the whole capacity, and the account is
valid. -/
structure Balanced [Arithmetic] (m : Market) (settings : Settings) (a : Account) : Prop where
  symbols : a.holdings.map Holding.symbol = settings.tokens
  owes : ∀ h ∈ a.holdings, ∃ l, m.listing h.symbol = .ok l ∧
    OwesWithin settings
      (keep (a.holdings.map (m.credit settings.topPolicy)).sum / settings.tokens.length) l
        h.position
  debts_le : (a.holdings.map fun h => m.faceValue h.symbol h.position.debt).sum ≤
    keep (a.holdings.map (m.credit settings.topPolicy)).sum
  judged : m.judge settings.topPolicy a.holdings = .ok .valid

theorem balanced_of_owesWithin [Arithmetic] (hr : m.resolve settings.tokens = .ok listings)
    (hd : 0 < settings.shrinkage.denominator)
    (hs : settings.shrinkage.numerator ≤ settings.shrinkage.denominator)
    (ho : List.Forall₂ (OwesWithin settings
      (totalCapacity settings.topPolicy (listings.zip ps) / max listings.length 1)) listings ps)
    (index : Nat) (standing : Standing) :
    Balanced m settings ⟨index, standing, (listings.zip ps).map holdingOf⟩ := by
  have hl : Listed m (listings.zip ps) := listed_zip hr
  have hi : ∀ e ∈ listings.zip ps, Indebted (totalCapacity settings.topPolicy (listings.zip ps) /
      max (listings.zip ps).length 1) e.1 e.2 := by
    intro e he
    rw [length_entries ho.length_eq]
    exact (List.forall₂_zip ho he).indebted hd hs
  have htotal : _ = totalCapacity settings.topPolicy (listings.zip ps) := sum_credit_holdings hl
  refine ⟨map_symbol_holdings hr ho.length_eq, ?_, ?_, judge_of_indebted hl hi⟩
  · intro h hh
    obtain ⟨e, he, rfl⟩ := List.mem_map.mp hh
    -- there is a token, so that the count of tokens is no division by zero
    have hcount : max listings.length 1 = settings.tokens.length := by
      rw [← map_symbol_of_resolve hr, List.length_map]
      exact max_eq_left (List.length_pos_of_mem (List.of_mem_zip he).1)
    refine ⟨e.1, hl e he, ?_⟩
    rw [htotal, ← hcount]
    exact List.forall₂_zip ho he
  · rw [htotal]
    exact sum_debt_holdings_le hl hi

/-- Whatever is drawn for a valid account, its debts come to no more than its capacity. -/
theorem balanced_of_draw [Arithmetic] (hr : m.resolve settings.tokens = .ok listings)
    (hp : ∀ l ∈ m.listings, 0 < l.quote.price) (hd : 0 < settings.shrinkage.denominator)
    (hs : settings.shrinkage.numerator ≤ settings.shrinkage.denominator)
    (h : ((draw settings listings index .valid).run d).1 = .ok a) : Balanced m settings a := by
  have hensures : Ensures (draw settings listings index .valid) (Balanced m settings) := by
    refine Ensures.bind (drawValid_ensures hd (price_pos_of_resolve hr hp)) fun ps ho => ?_
    exact Ensures.pure (balanced_of_owesWithin hr hd hs ho index .valid)
  exact hensures d a h

/-- A token without brackets stands twice around one that has them. -/
def shibAround : Settings := { tokens := ["shib", "btc", "shib"] }

def threeWords : Draws :=
  Draws.ofWords #[9000000000000000000, 15000000000000000000, 12345678901234567890]

def settledAccount : Account := ⟨4, .valid, [⟨"shib", 2, ⟨48789, 20, ⟨24394, 12197, 6098⟩⟩⟩,
  ⟨"btc", 8, ⟨81315162937, 8, ⟨40657581468, 20328790734, 10164395367⟩⟩⟩,
  ⟨"shib", 2, ⟨66926, 20, ⟨33463, 16731, 8365⟩⟩⟩]⟩

theorem settledAccount_balanced :
    ∃ listings, pairMarket.resolve shibAround.tokens = .ok listings ∧
      (∀ l ∈ pairMarket.listings, 0 < l.quote.price) ∧ 0 < shibAround.shrinkage.denominator ∧
      shibAround.shrinkage.numerator ≤ shibAround.shrinkage.denominator ∧
      ((draw shibAround listings 4 .valid).run threeWords).1 = .ok settledAccount ∧
      Balanced pairMarket shibAround settledAccount := by
  have hp : ∀ l ∈ pairMarket.listings, 0 < l.quote.price := by decide
  have hd : 0 < shibAround.shrinkage.denominator := by decide
  have hs : shibAround.shrinkage.numerator ≤ shibAround.shrinkage.denominator := by decide
  refine ⟨_, rfl, hp, hd, hs, ?drawn, balanced_of_draw rfl hp hd hs ?drawn⟩
  decide +kernel

/-- Each debt is the least beyond the capacity of its pledge where the VIP loan has brackets, and
one whole token elsewhere. Without a token of the second kind the account is overdrawn, if nothing
is lost of its debts when they are added up. -/
structure Overstretched [Arithmetic] (m : Market) (settings : Settings) (a : Account) : Prop where
  symbols : a.holdings.map Holding.symbol = settings.tokens
  owes : ∀ h ∈ a.holdings, ∃ l, m.listing h.symbol = .ok l ∧ Stretched settings l h.position ∧
    ((l.schedule .vipLoan).isEmpty = false →
      l.capacity settings.topPolicy h.position.pledge < h.position.debt * l.quote.price)
  judged : ∃ v, m.judge settings.topPolicy a.holdings = .ok v ∧ v.standing ≠ .overpledged
  overdrawn : settings.tokens ≠ [] →
    (∀ token ∈ settings.tokens, ∀ l, m.listing token = .ok l →
      (l.schedule .vipLoan).isEmpty = false) →
    Whole (m.debtAtFace a.holdings) →
    ∃ v, m.judge settings.topPolicy a.holdings = .ok v ∧ v.standing = .overdrawn

theorem overstretched_of_stretched [Arithmetic] (hr : m.resolve settings.tokens = .ok listings)
    (ho : 0 < settings.overshoot) (hd : 0 < settings.inflation.denominator)
    (hi : settings.inflation.denominator ≤ settings.inflation.numerator)
    (hs : List.Forall₂ (Stretched settings) listings ps) (index : Nat) (standing : Standing) :
    Overstretched m settings ⟨index, standing, (listings.zip ps).map holdingOf⟩ := by
  have hl : Listed m (listings.zip ps) := listed_zip hr
  have hstretched : ∀ e ∈ listings.zip ps, Stretched settings e.1 e.2 := fun e he =>
    List.forall₂_zip hs he
  refine ⟨map_symbol_holdings hr hs.length_eq, ?_, ?_, ?_⟩
  · intro h hh
    obtain ⟨e, he, rfl⟩ := List.mem_map.mp hh
    exact ⟨e.1, hl e he, hstretched e he,
      fun htiered => ((hstretched e he).overdrawn ho hd hi htiered).exceeded⟩
  · exact judge_of_covered settings.topPolicy hl fun e he => (hstretched e he).covered
  · intro hne htiered hw
    have hentries : listings.zip ps ≠ [] := by
      refine entries_ne_nil hs.length_eq ?_
      rintro rfl
      exact hne (map_symbol_of_resolve hr).symm
    refine judge_of_overdrawn hentries hl (fun e he => ?_) hw
    obtain ⟨htoken, hlisting⟩ := listing_of_resolve hr e.1 (List.of_mem_zip he).1
    exact (hstretched e he).overdrawn ho hd hi (htiered e.1.symbol htoken e.1 hlisting)

/-- One token with brackets, drawn up to its top one, and one without. -/
def oneOfEach : Settings := { tokens := ["btc", "shib"] }

def strainedAccount : Account := ⟨4, .overdrawn, [⟨"btc", 8, ⟨14, 12, ⟨7, 3, 1⟩⟩⟩,
  ⟨"shib", 2, ⟨81315, 100, ⟨40657, 20328, 10164⟩⟩⟩]⟩

/-- The token with brackets alone. -/
def oneTiered : Settings := { tokens := ["btc"] }

def tieredAccount : Account := ⟨4, .overdrawn, [⟨"btc", 8, ⟨14, 12, ⟨7, 3, 1⟩⟩⟩]⟩

/-- Four tokens of one bracket each, at half of what a word can be. -/
def evenMarket : Market where
  listings := ["btc", "eth", "bnb", "shib"].map fun token =>
    ⟨⟨token, Nat.pow 2 63, .eightPlaces⟩, ⟨⟨[⟨tenTo 16, Fin.last 100⟩], by decide⟩, .empty, .empty⟩⟩
  distinct := by decide

/-- One unit of debt is inflated to half of what a word can be. -/
def inflating : Settings := { inflation := ⟨Nat.pow 2 63, 1⟩ }

/-- The debts of four tokens, each of a quarter of all values. -/
def inflatedAccount : Account := ⟨1, .overdrawn, inflating.tokens.map fun token =>
  ⟨token, 8, ⟨0, Nat.pow 2 63, ⟨0, 0, 0⟩⟩⟩⟩

end Solvency.Account
