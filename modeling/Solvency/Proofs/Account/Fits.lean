import Solvency.Proofs.Verdict.Rules

/-! # Accounts that a sheet can hold

A sheet keeps an account when every quantity is a word at the precision the market has for its
token, and when its tokens are the listed ones that the sheet is headed by.
-/
namespace Solvency

structure Position.Fits (p : Position) : Prop where
  equity_lt : p.equity < wordLimit
  debt_lt : p.debt < wordLimit
  pledge_lt : ∀ facility, p.pledge.on facility < wordLimit

structure Holding.Fits (m : Market) (h : Holding) : Prop where
  quantities : h.position.Fits
  precision_eq : ∀ l, m.listing h.symbol = .ok l → h.precision = l.quote.scaling.precision

/-- The holdings are in these tokens, in order. -/
structure Account.Fits (m : Market) (tokens : List String) (a : Account) : Prop where
  index_lt : a.index < wordLimit
  symbols : a.holdings.map Holding.symbol = tokens
  holdings : ∀ h ∈ a.holdings, h.Fits m

theorem Account.Fits.length_holdings {m : Market} {tokens : List String} {a : Account}
    (h : a.Fits m tokens) : a.holdings.length = tokens.length := by
  rw [← h.symbols, List.length_map]

namespace Market

/-- With at most eighteen places no quantity loses a digit in a sheet. -/
def Renders (m : Market) : Prop := ∀ l ∈ m.listings, l.quote.scaling.precision ≤ 18

/-- Each of the tokens is listed under the symbol that its heading is taken for. -/
def Names (m : Market) (tokens : List String) : Prop :=
  ∀ token ∈ tokens, symbolOf token = token ∧ ∃ l, m.listing token = .ok l

variable {m : Market} {tokens : List String} {listings : List Listing}

theorem exists_resolve (h : m.Names tokens) : ∃ listings, m.resolve tokens = .ok listings := by
  unfold resolve
  induction tokens with
  | nil => exact ⟨[], rfl⟩
  | cons token tokens ih =>
    obtain ⟨_, l, hl⟩ := h token List.mem_cons_self
    obtain ⟨ls, hls⟩ := ih fun t ht => h t (List.mem_cons_of_mem token ht)
    exact ⟨l :: ls, mapM_eq_ok.mpr (.cons hl (mapM_eq_ok.mp hls))⟩

/-- The first token that is not listed is the one that is reported. -/
theorem resolve_eq_error {token : String}
    (h : tokens.find? (fun t => (m.find? t).isNone) = some token) :
    m.resolve tokens = .error (.unlistedToken token) := by
  unfold resolve
  induction tokens with
  | nil => cases h
  | cons t ts ih =>
    rw [List.mapM_cons, listing]
    cases hf : m.find? t with
    | none =>
      rw [List.find?_cons_of_pos (by rw [hf]; rfl)] at h
      cases h
      rfl
    | some l =>
      rw [List.find?_cons_of_neg (by rw [hf]; exact Bool.false_ne_true)] at h
      rw [ih h]
      rfl

theorem map_symbol_of_resolve (h : m.resolve tokens = .ok listings) :
    listings.map Listing.symbol = tokens := by
  rw [resolve, mapM_eq_ok] at h
  induction h with
  | nil => rfl
  | cons hl _ ih => rw [List.map_cons, ih, symbol_of_find? (listing_eq_ok.mp hl)]

theorem listing_of_resolve (h : m.resolve tokens = .ok listings) :
    ∀ l ∈ listings, l.symbol ∈ tokens ∧ m.listing l.symbol = .ok l := by
  intro l hl
  obtain ⟨token, ht, hf⟩ := exists_of_forall₂ (mapM_eq_ok.mp h) hl
  obtain rfl := symbol_of_find? (listing_eq_ok.mp hf)
  exact ⟨ht, hf⟩

end Market
end Solvency
