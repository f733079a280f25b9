import Solvency.Proofs.Amount.Canonical
import Solvency.Proofs.Layout.Columns

/-! # Written amounts are exact

Every amount in a record denotes exactly the units it was written from. The net balance of a token
is therefore the difference of its equity and its debt as they stand in the record, with nothing
rounded on the way, also where the debt is greater.
-/
namespace Solvency.Layout
open Amount

/-- The amounts of a group as they stand in a record, for the holding they were written from. -/
structure ExactCells (h : Holding) (g : TokenCells String) : Prop where
  equity : Exact h.precision h.position.equity g.equity
  debt : Exact h.precision h.position.debt g.debt
  net : Exact h.precision h.position.net g.net
  pledge : ∀ facility, Exact h.precision (h.position.pledge.on facility) (g.pledge.on facility)
  difference : denoted g.equity - denoted g.debt = denoted g.net

theorem exactCells_holdingTexts (h : Holding) : ExactCells h (holdingTexts h) where
  equity := exact_render _ _
  debt := exact_render _ _
  net := exact_render _ _
  pledge facility := by
    have hpledge : (holdingTexts h).pledge.on facility =
        render h.precision (h.position.pledge.on facility) := by
      simp [holdingTexts, TokenCells.map, amounts]
    rw [hpledge]
    exact exact_render _ _
  difference := by
    have hequity := (exact_render h.precision h.position.equity).denoted_eq
    have hdebt := (exact_render h.precision h.position.debt).denoted_eq
    have hnet := (exact_render h.precision h.position.net).denoted_eq
    have hunits : (h.position.net : ℚ) = (h.position.equity : ℤ) - (h.position.debt : ℤ) := by
      simp [Position.net]
    show denoted (render h.precision h.position.equity) -
      denoted (render h.precision h.position.debt) = denoted (render h.precision h.position.net)
    rw [hequity, hdebt, hnet, hunits, sub_div]

theorem groups_cells (a : Account) :
    groups ((cells a).drop leadingColumns) = a.holdings.map holdingTexts := groups_holdings a.holdings

/-- Units are written as the one shortest numeral that denotes them, at every precision and with
either sign, and the groups of a record hold such numerals of its holdings, in which equity less debt
is the net balance. -/
theorem rendered_exactly :
    (∀ precision units, Exact precision units (render precision units)) ∧
    (∀ precision, Function.Injective (render precision)) ∧
    ∀ a : Account, List.Forall₂ ExactCells a.holdings (groups ((cells a).drop leadingColumns)) := by
  refine ⟨exact_render, render_injective, fun a => ?_⟩
  rw [groups_cells, List.forall₂_map_right_iff, List.forall₂_same]
  exact fun h _ => exactCells_holdingTexts h

end Solvency.Layout
