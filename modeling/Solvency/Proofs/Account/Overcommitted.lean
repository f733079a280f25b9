import Solvency.Proofs.Account.Judged
import Solvency.Proofs.Verdict.FaceSolvency

/-! # What a drawn overpledged account pledges

Each of its tokens is overcommitted by about a quarter, from a single unit up to the top of a word.
The first of them is therefore the one that the account is judged by, under either policy and whatever
comes after it.
-/
namespace Solvency.Account
open Market

variable {m : Market} {settings : Settings} {listings : List Listing} {ps : List Position}

/-- No token pledges as little as it owns, and the first one is named. -/
structure Exceeding [Arithmetic] (m : Market) (settings : Settings) (a : Account) : Prop where
  symbols : a.holdings.map Holding.symbol = settings.tokens
  commits : ∀ h ∈ a.holdings, ∃ l, m.listing h.symbol = .ok l ∧
    Overcommitted settings l h.position ∧ h.position.equity < h.position.pledge.total
  judged : ∃ token, settings.tokens.head? = some token ∧
    ∀ policy, m.judge policy a.holdings = .ok (.overpledged token)

theorem exceeding_of_overcommitted [Arithmetic] (hr : m.resolve settings.tokens = .ok listings)
    (hne : settings.tokens ≠ []) (ho : List.Forall₂ (Overcommitted settings) listings ps)
    (index : Nat) (standing : Standing) :
    Exceeding m settings ⟨index, standing, (listings.zip ps).map holdingOf⟩ := by
  have hl : Listed m (listings.zip ps) := listed_zip hr
  have hcommits : ∀ e ∈ listings.zip ps, Overcommitted settings e.1 e.2 := fun e he =>
    List.forall₂_zip ho he
  have hsymbols := map_symbol_holdings hr ho.length_eq
  refine ⟨hsymbols, ?_, ?_⟩
  · intro h hh
    obtain ⟨e, he, rfl⟩ := List.mem_map.mp hh
    exact ⟨e.1, hl e he, hcommits e he, (hcommits e he).overpledged.exceeded⟩
  · cases hz : listings.zip ps with
    | nil =>
      rw [hz] at hsymbols
      exact absurd hsymbols.symm hne
    | cons e es =>
      rw [hz] at hsymbols hcommits
      refine ⟨e.1.symbol, ?_, fun policy => ?_⟩
      · rw [← hsymbols]
        rfl
      · exact judge_of_overpledged m policy (hcommits e List.mem_cons_self).overpledged es

/-- Whatever is drawn for an overpledged account, every token in it pledges a quarter more than it
owns. -/
theorem exceeding_of_draw [Arithmetic] {index : Nat} {d : Draws} {a : Account}
    (hr : m.resolve settings.tokens = .ok listings) (hne : settings.tokens ≠ [])
    (h : ((draw settings listings index .overpledged).run d).1 = .ok a) :
    Exceeding m settings a := by
  have hdrawn : ∀ l ∈ listings, Ensures (drawOverpledged settings l) (Overcommitted settings l) :=
    fun l _ => drawOverpledged_ensures settings l
  have hensures : Ensures (draw settings listings index .overpledged) (Exceeding m settings) := by
    refine Ensures.bind (Ensures.mapM hdrawn) fun ps ho => ?_
    exact Ensures.pure (exceeding_of_overcommitted hr hne ho index .overpledged)
  exact hensures d a h

/-- A ceiling of nothing, under which one unit is still drawn. -/
def nothingOwned : Settings := { tokens := ["shib", "btc"], equityCeiling := 0 }

def meagreAccount : Account := ⟨6, .overpledged, [⟨"shib", 2, ⟨1, 0, ⟨1, 1, 1⟩⟩⟩,
  ⟨"btc", 8, ⟨1, 0, ⟨1, 1, 1⟩⟩⟩]⟩

theorem meagreAccount_exceeding :
    ∃ listings, pairMarket.resolve nothingOwned.tokens = .ok listings ∧ nothingOwned.tokens ≠ [] ∧
      ((draw nothingOwned listings 6 .overpledged).run (Draws.ofWords #[5])).1 = .ok meagreAccount ∧
      Exceeding pairMarket nothingOwned meagreAccount := by
  have hne : nothingOwned.tokens ≠ [] := by decide
  refine ⟨_, rfl, hne, ?drawn, exceeding_of_draw rfl hne ?drawn⟩
  decide +kernel

end Solvency.Account
