import Solvency.Audit
import Solvency.Proofs.Account.Fits
import Solvency.Proofs.Amount.RoundTrip
import Solvency.Proofs.Layout.Columns

/-! # Auditing what was written

A sheet of accounts is audited to the accounts it was written from: the tokens come back from the
header, the number, the id and every quantity from the rows, and each row is judged as the account
itself is.
-/
namespace Solvency

/-- A finding that gives back the account it was read from, with the verdict on it. -/
structure Finding.Reports [Arithmetic] (m : Market) (policy : TopPolicy) (a : Account)
    (f : Finding) : Prop where
  number_eq : f.number = a.index
  id_eq : f.id = a.id
  judged : m.judge policy a.holdings = .ok f.verdict

namespace Audit
open Layout Market Text

variable {m : Market} {policy : TopPolicy} {tokens : List String} {listings : List Listing}

/-- A written header names the tokens, each as far as its heading is taken for it. -/
theorem headerListings_header (m : Market) (tokens : List String) :
    headerListings m (header tokens) = m.resolve (tokens.map symbolOf) := by
  have hcolumns : ¬((header tokens).length < leadingColumns + 1 ∨
      ((header tokens).length - (leadingColumns + 1)) % groupColumns ≠ 0) := by
    rw [length_header]
    unfold leadingColumns groupColumns
    omega
  have hnames : (tokens.map headings).map (fun g => symbolOf g.net) = tokens.map symbolOf :=
    List.map_map
  unfold headerListings
  simp only [if_neg hcolumns, getLast?_header, groups_header, hnames]
  exact if_neg (fun h => h rfl)

theorem headerListings_of_names (h : m.Names tokens) :
    headerListings m (header tokens) = m.resolve tokens := by
  have hfixed : tokens.map symbolOf = tokens :=
    (List.map_congr_left fun token ht => (h token ht).1).trans (List.map_id tokens)
  rw [headerListings_header, hfixed]

theorem readNumber_toString {n : Nat} (hn : n < wordLimit) (row : Nat) :
    readNumber row (toString n) = .ok n := by
  rw [readNumber, toList_toString, (trimmed_digits n).trim_eq, natural?_digits hn]
  rfl

theorem readId_idText {index : Nat} (hi : index < wordLimit) (row : Nat) :
    readId row (idText index) = .ok (idText index) := by
  have hhex : (idText index).toList.all isHexDigit = true :=
    List.all_eq_true.mpr fun _ => isHexDigit_of_mem_idText
  unfold readId
  simp only [(trimmed_idText index).trim_eq, length_idText hi, hhex, and_self, if_true,
    String.ofList_toList]

theorem readHolding_holdingTexts {h : Holding} {l : Listing} (hl : m.listing h.symbol = .ok l)
    (hp : l.quote.scaling.precision ≤ 18) (hf : h.Fits m) (row : Nat) :
    readHolding row l (holdingTexts h) = .ok h := by
  obtain ⟨symbol, precision, ⟨equity, debt, vipLoan, crossMargin, portfolioMargin⟩⟩ := h
  obtain rfl : precision = l.quote.scaling.precision := hf.precision_eq l hl
  obtain rfl : l.symbol = symbol := symbol_of_find? (listing_eq_ok.mp hl)
  have hunits {n : Nat} (hn : n < wordLimit) := Amount.units?_render_natCast hp hn
  have hv : vipLoan < wordLimit := hf.quantities.pledge_lt .vipLoan
  have hc : crossMargin < wordLimit := hf.quantities.pledge_lt .crossMargin
  have hq : portfolioMargin < wordLimit := hf.quantities.pledge_lt .portfolioMargin
  unfold readHolding
  simp only [holdingTexts, amounts, TokenCells.map, PerFacility.map, PerFacility.ofFn, PerFacility.on,
    Int.ofNat_eq_natCast, hunits hv, hunits hc, hunits hq, hunits hf.quantities.equity_lt,
    hunits hf.quantities.debt_lt]
  rfl

theorem readHoldings_holdingTexts {holdings : List Holding}
    (hr : List.Forall₂ (fun h l => m.listing h.symbol = .ok l) holdings listings) (hp : m.Renders)
    (hf : ∀ h ∈ holdings, h.Fits m) (row : Nat) :
    ((listings.zip (holdings.map holdingTexts)).mapM fun (l, g) => readHolding row l g) =
      .ok holdings := by
  induction hr with
  | nil => rfl
  | @cons h l hs ls hl _ ih =>
    have hm : l ∈ m.listings := List.mem_of_find?_eq_some (listing_eq_ok.mp hl)
    have hread := readHolding_holdingTexts hl (hp l hm) (hf h List.mem_cons_self) row
    rw [List.map_cons, List.zip_cons_cons, List.mapM_cons,
      ih fun x hx => hf x (List.mem_cons_of_mem h hx)]
    simp only [hread, ok_bind]
    rfl

variable {a : Account}

theorem listed_of_resolve (ha : a.Fits m tokens) (hr : m.resolve tokens = .ok listings) :
    List.Forall₂ (fun h l => m.listing h.symbol = .ok l) a.holdings listings := by
  rw [← ha.symbols, resolve, mapM_eq_ok, List.forall₂_map_left_iff] at hr
  exact hr

/-- Reading a written row leaves only the holdings open. -/
theorem readFinding_written [Arithmetic] (hi : a.index < wordLimit) (row : Nat) :
    readFinding m policy listings row (cells a) = do
      let holdings ← (listings.zip (a.holdings.map holdingTexts)).mapM fun (l, g) =>
        readHolding row l g
      let verdict ← m.judge policy holdings
      return ⟨a.index, a.id, verdict⟩ := by
  simp only [cells_eq, List.cons_append, readFinding, readNumber_toString hi, Account.id,
    readId_idText hi, groups_holdings, ok_bind]

theorem readFinding_cells [Arithmetic] (hp : m.Renders) (hr : m.resolve tokens = .ok listings)
    (ha : a.Fits m tokens) {v : Verdict} (hv : m.judge policy a.holdings = .ok v) (row : Nat) :
    readFinding m policy listings row (cells a) = .ok ⟨a.index, a.id, v⟩ := by
  simp only [readFinding_written ha.index_lt,
    readHoldings_holdingTexts (listed_of_resolve ha hr) hp ha.holdings, ok_bind, hv]
  rfl

theorem cellsOfWidth_cells (h : a.holdings.length = tokens.length) (row : Nat) :
    Sheet.cellsOfWidth (header tokens).length row ((cells a).map Sheet.encode) = .ok (cells a) := by
  have hl : ((cells a).map Sheet.encode).length = (header tokens).length := by
    rw [List.length_map, length_cells, length_header, h]
  rw [Sheet.cellsOfWidth, if_pos hl, Sheet.cells_map_encode]

theorem exists_judge [Arithmetic] (policy : TopPolicy) (hr : m.resolve tokens = .ok listings)
    (ha : a.Fits m tokens) : ∃ v, m.judge policy a.holdings = .ok v := by
  refine exists_judge_of_listed policy ?_
  intro h hh
  obtain ⟨l, _, hl⟩ := exists_of_forall₂ (listed_of_resolve ha hr).flip hh
  exact ⟨l, hl⟩

/-- Rows are found to be what they were written from, whatever number the first of them has. -/
theorem findings_of_cells [Arithmetic] (hp : m.Renders) (hr : m.resolve tokens = .ok listings)
    {accounts : List Account} (ha : ∀ a ∈ accounts, a.Fits m tokens) (first : Nat) :
    ∃ findings, ((((accounts.map cells).map (List.map Sheet.encode)).zipIdx first).mapM
        fun (record, row) => do
          let cells ← Sheet.cellsOfWidth (header tokens).length row record
          readFinding m policy listings row cells) = .ok findings ∧
      List.Forall₂ (Finding.Reports m policy) accounts findings := by
  induction accounts generalizing first with
  | nil => exact ⟨[], rfl, .nil⟩
  | cons a as ih =>
    have hf := ha a List.mem_cons_self
    obtain ⟨v, hv⟩ := exists_judge policy hr hf
    obtain ⟨findings, hrest, hreports⟩ := ih (fun b hb => ha b (List.mem_cons_of_mem a hb)) (first + 1)
    refine ⟨⟨a.index, a.id, v⟩ :: findings, ?_, .cons ⟨rfl, rfl, hv⟩ hreports⟩
    rw [List.map_cons, List.map_cons, List.zipIdx_cons, List.mapM_cons, hrest]
    simp only [cellsOfWidth_cells hf.length_holdings, readFinding_cells hp hr hf hv, ok_bind]
    rfl

/-- The report on a sheet whose records are known. -/
theorem ofSheet_of_records [Arithmetic] (hn : m.Names tokens) (hp : m.Renders)
    {accounts : List Account} (ha : ∀ a ∈ accounts, a.Fits m tokens) {bytes : Sheet.Bytes}
    (hb : Sheet.records bytes = (header tokens :: accounts.map cells).map (List.map Sheet.encode)) :
    ∃ report, ofSheet m policy bytes = .ok report ∧ report.tokens = tokens ∧
      List.Forall₂ (Finding.Reports m policy) accounts report.findings := by
  obtain ⟨listings, hr⟩ := exists_resolve hn
  obtain ⟨findings, hf, hreports⟩ := findings_of_cells hp hr ha Sheet.firstDataRow
  refine ⟨⟨tokens, findings⟩, ?_, rfl, hreports⟩
  simp only [ofSheet, hb, List.map_cons, List.headD_cons, List.tail_cons, Sheet.cells_map_encode,
    ok_bind, ofRecords, headerListings_of_names hn, hr, hf, map_symbol_of_resolve hr]
  rfl

/-- Whatever accounts are written, the audit of the sheet gives them back in order, each with the
verdict on the account itself. -/
theorem ofSheet_write [Arithmetic] (hn : m.Names tokens) (hp : m.Renders) {accounts : List Account}
    (ha : ∀ a ∈ accounts, a.Fits m tokens) :
    ∃ text report, write tokens accounts = .ok text ∧
      ofSheet m policy (Sheet.encode text) = .ok report ∧ report.tokens = tokens ∧
      List.Forall₂ (Finding.Reports m policy) accounts report.findings := by
  obtain ⟨text, hw, hrecords⟩ := records_write fun a h => (ha a h).length_holdings
  obtain ⟨report, hreport, htokens, hreports⟩ := ofSheet_of_records hn hp ha hrecords
  exact ⟨text, report, hw, hreport, htokens, hreports⟩

/-- A symbol with every character that a cell is quoted for, at the largest precision. -/
def quotedMarket : Market where
  listings := [
    ⟨⟨"a,\"b\r\nc", 3, ⟨18, 1⟩⟩, ⟨⟨[⟨100, 80, by decide⟩], by decide⟩, .empty, .empty⟩⟩,
    ⟨⟨"shib", 5, .twoPlaces⟩, ⟨.empty, .empty, .empty⟩⟩]
  distinct := by decide

def quotedTokens : List String := ["shib", "a,\"b\r\nc"]

/-- Quantities from nothing to the largest word, and more owed than owned. -/
def quotedAccounts : List Account := [
  ⟨wordLimit - 1, .valid, [⟨"shib", 2, ⟨wordLimit - 1, 0, ⟨0, 10, 9⟩⟩⟩,
    ⟨"a,\"b\r\nc", 18, ⟨7, wordLimit - 1, ⟨1, 0, 1⟩⟩⟩]⟩,
  ⟨0, .overpledged, [⟨"shib", 2, ⟨0, 0, ⟨wordLimit - 1, 0, 0⟩⟩⟩,
    ⟨"a,\"b\r\nc", 18, ⟨1, 0, ⟨1, 1, 0⟩⟩⟩]⟩]

theorem quotedAccounts_reported :
    quotedMarket.Names quotedTokens ∧ quotedMarket.Renders ∧
    (∀ a ∈ quotedAccounts, a.Fits quotedMarket quotedTokens) ∧
    ∃ text report, write quotedTokens quotedAccounts = .ok text ∧
      ofSheet quotedMarket .extended (Sheet.encode text) = .ok report ∧
      report.tokens = quotedTokens ∧
      List.Forall₂ (Finding.Reports quotedMarket .extended) quotedAccounts report.findings := by
  have hn : quotedMarket.Names quotedTokens := by
    intro token ht
    rcases List.mem_pair.mp ht with rfl | rfl
    · exact ⟨by decide +kernel, _, rfl⟩
    · exact ⟨by decide +kernel, _, rfl⟩
  have hp : quotedMarket.Renders := by
    unfold Renders
    decide
  have ha : ∀ a ∈ quotedAccounts, a.Fits quotedMarket quotedTokens := by
    intro a ha
    rcases List.mem_pair.mp ha with rfl | rfl
    all_goals
      refine ⟨by decide, rfl, ?_⟩
      intro h hh
      rcases List.mem_pair.mp hh with rfl | rfl
      all_goals
        refine ⟨⟨by decide, by decide, ?_⟩, ?_⟩
        · intro facility
          cases facility <;> decide
        · intro l hl
          cases hl
          rfl
  exact ⟨hn, hp, ha, ofSheet_write hn hp ha⟩

end Audit
end Solvency
