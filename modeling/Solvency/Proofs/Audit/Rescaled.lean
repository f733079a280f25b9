import Solvency.Audit
import Solvency.Proofs.Account.Fits
import Solvency.Proofs.Sheet.Rows
import Solvency.Proofs.Verdict.Rescaled

/-! # Reports in another scaling

Which tokens are designated decides the units that quantities and prices are counted in. As long as
no digit falls below a unit under either choice, an account is audited to the same verdict, with the
same totals, under both.
-/
namespace Solvency.Audit
open Layout Market

/-- What is read of a token's columns is plain; the net balance may be anything. -/
def plainCells (places : Nat) (g : TokenCells String) : Bool :=
  Amount.isPlain places g.equity && Amount.isPlain places g.debt &&
    g.pledge.toList.all (Amount.isPlain places)

/-- No amount has an exponent or more than `places` digits behind its point. -/
def plainAmounts (places : Nat) : Sheet.Bytes → Bool :=
  Sheet.everyRow fun cells => (groups (cells.drop leadingColumns)).all (plainCells places)

variable {m n : Market} {l k : Listing} {row : Nat}

theorem readHolding_eq_ok {g : TokenCells String} {h : Holding} (hr : readHolding row l g = .ok h) :
    h.symbol = l.symbol ∧
      Amount.units? g.equity l.quote.scaling.precision = some h.position.equity ∧
      Amount.units? g.debt l.quote.scaling.precision = some h.position.debt ∧
      ∀ facility, Amount.units? (g.pledge.on facility) l.quote.scaling.precision =
        some (h.position.pledge.on facility) := by
  obtain ⟨v, hv, hr⟩ := bind_eq_ok.mp hr
  obtain ⟨c, hc, hr⟩ := bind_eq_ok.mp hr
  obtain ⟨p, hp, hr⟩ := bind_eq_ok.mp hr
  obtain ⟨e, he, hr⟩ := bind_eq_ok.mp hr
  obtain ⟨d, hd, hr⟩ := bind_eq_ok.mp hr
  obtain rfl := pure_eq_ok.mp hr
  refine ⟨rfl, elim_eq_ok.mp he, elim_eq_ok.mp hd, ?_⟩
  intro facility
  cases facility with
  | vipLoan => exact elim_eq_ok.mp hv
  | crossMargin => exact elim_eq_ok.mp hc
  | portfolioMargin => exact elim_eq_ok.mp hp

/-- One asset listed in both markets, each time with room for the places of an amount. -/
structure Twins (m n : Market) (l k : Listing) : Prop where
  listed : m.listing l.symbol = .ok l
  listed' : n.listing k.symbol = .ok k
  same : l.SameAsset k
  two_le : 2 ≤ l.quote.scaling.precision
  two_le' : 2 ≤ k.quote.scaling.precision

theorem sameHolding_of_readHolding (hlk : Twins m n l k) {g : TokenCells String}
    (hplain : plainCells 2 g = true) {x y : Holding} (hx : readHolding row l g = .ok x)
    (hy : readHolding row k g = .ok y) : SameHolding m n x y := by
  simp only [plainCells, Bool.and_eq_true, List.all_eq_true] at hplain
  obtain ⟨⟨he, hd⟩, hp⟩ := hplain
  obtain ⟨hxs, hxe, hxd, hxp⟩ := readHolding_eq_ok hx
  obtain ⟨hys, hye, hyd, hyp⟩ := readHolding_eq_ok hy
  have hunits {text : String} {u v : Nat} (ht : Amount.isPlain 2 text = true)
      (hu : Amount.units? text l.quote.scaling.precision = some u)
      (hv : Amount.units? text k.quote.scaling.precision = some v) :
      u * tenTo k.quote.scaling.precision = v * tenTo l.quote.scaling.precision :=
    Amount.units?_proportional ht hlk.two_le hlk.two_le' hu hv
  refine ⟨?_, l, k, hxs ▸ hlk.listed, hys ▸ hlk.listed', hlk.same, ?_⟩
  · rw [hxs, hys, hlk.same.symbol_eq]
  · constructor
    · exact hunits he hxe hye
    · exact hunits hd hxd hyd
    · intro facility
      have hmem : g.pledge.on facility ∈ g.pledge.toList := by
        cases facility <;> simp [PerFacility.toList, Facility.all]
      exact hunits (hp _ hmem) (hxp facility) (hyp facility)

variable {policy : TopPolicy} {ls ks : List Listing}

theorem sameHoldings_of_mapM (hlk : List.Forall₂ (Twins m n) ls ks) {gs : List (TokenCells String)}
    (hplain : gs.all (plainCells 2) = true) {xs ys : List Holding}
    (hx : ((ls.zip gs).mapM fun (l, g) => readHolding row l g) = .ok xs)
    (hy : ((ks.zip gs).mapM fun (l, g) => readHolding row l g) = .ok ys) :
    List.Forall₂ (SameHolding m n) xs ys := by
  rw [mapM_eq_ok] at hx hy
  induction hlk generalizing gs xs ys with
  | nil =>
    cases hx
    cases hy
    exact .nil
  | cons htwins _ ih =>
    cases gs with
    | nil =>
      cases hx
      cases hy
      exact .nil
    | cons g gs =>
      obtain ⟨hg, hgs⟩ := (Bool.and_eq_true _ _).mp hplain
      cases hx with
      | cons hx hxs =>
        cases hy with
        | cons hy hys => exact .cons (sameHolding_of_readHolding htwins hg hx hy) (ih hgs hxs hys)

theorem finding_eq_of_readFinding [Arithmetic] (hlk : List.Forall₂ (Twins m n) ls ks)
    {cells : List String}
    (hplain : (groups (cells.drop leadingColumns)).all (plainCells 2) = true) {f f' : Finding}
    (hf : readFinding m policy ls row cells = .ok f)
    (hf' : readFinding n policy ks row cells = .ok f') : f = f' := by
  unfold readFinding at hf hf'
  split at hf
  · rename_i number id rest
    obtain ⟨i, hi, hf⟩ := bind_eq_ok.mp hf
    obtain ⟨t, ht, hf⟩ := bind_eq_ok.mp hf
    obtain ⟨xs, hxs, hf⟩ := bind_eq_ok.mp hf
    obtain ⟨v, hv, hf⟩ := bind_eq_ok.mp hf
    obtain ⟨i', hi', hf'⟩ := bind_eq_ok.mp hf'
    obtain ⟨t', ht', hf'⟩ := bind_eq_ok.mp hf'
    obtain ⟨ys, hys, hf'⟩ := bind_eq_ok.mp hf'
    obtain ⟨v', hv', hf'⟩ := bind_eq_ok.mp hf'
    rw [judge_eq_judge (sameHoldings_of_mapM hlk hplain hxs hys)] at hv
    cases hi.symm.trans hi'
    cases ht.symm.trans ht'
    cases hv.symm.trans hv'
    exact (pure_eq_ok.mp hf).symm.trans (pure_eq_ok.mp hf')
  · cases hf

/-- The symbols that a header names, as they are looked up. -/
def headerSymbols (header : List String) : List String :=
  (groups (header.drop leadingColumns)).map fun g => symbolOf g.net

theorem headerListings_eq_ok {header : List String} (h : headerListings m header = .ok ls) :
    m.resolve (headerSymbols header) = .ok ls := by
  unfold headerListings at h
  dsimp only at h
  split at h
  · cases h
  · split at h
    · cases h
    · exact h

theorem twins_of_resolve (hmn : m.SameAssets n)
    (hm : ∀ l ∈ m.listings, 2 ≤ l.quote.scaling.precision)
    (hn : ∀ l ∈ n.listings, 2 ≤ l.quote.scaling.precision) {symbols : List String}
    (hls : m.resolve symbols = .ok ls) (hks : n.resolve symbols = .ok ks) :
    List.Forall₂ (Twins m n) ls ks := by
  refine forall₂_of_common ?_ (mapM_eq_ok.mp hls) (mapM_eq_ok.mp hks)
  intro symbol _ l k hl hk
  have hfl := listing_eq_ok.mp hl
  have hfk := listing_eq_ok.mp hk
  constructor
  · rwa [symbol_of_find? hfl]
  · rwa [symbol_of_find? hfk]
  · exact sameAsset_of_listing hmn hl hk
  · exact hm l (List.mem_of_find?_eq_some hfl)
  · exact hn k (List.mem_of_find?_eq_some hfk)

theorem report_eq_of_ofSheet [Arithmetic] (hmn : m.SameAssets n)
    (hm : ∀ l ∈ m.listings, 2 ≤ l.quote.scaling.precision)
    (hn : ∀ l ∈ n.listings, 2 ≤ l.quote.scaling.precision) {bytes : Sheet.Bytes}
    (hplain : plainAmounts 2 bytes = true) {r r' : Report} (hr : ofSheet m policy bytes = .ok r)
    (hr' : ofSheet n policy bytes = .ok r') : r = r' := by
  obtain ⟨header, hheader, hr⟩ := bind_eq_ok.mp hr
  obtain ⟨header', hheader', hr'⟩ := bind_eq_ok.mp hr'
  cases hheader.symm.trans hheader'
  obtain ⟨ls, hls, hr⟩ := bind_eq_ok.mp hr
  obtain ⟨ks, hks, hr'⟩ := bind_eq_ok.mp hr'
  obtain ⟨fs, hfs, hr⟩ := bind_eq_ok.mp hr
  obtain ⟨fs', hfs', hr'⟩ := bind_eq_ok.mp hr'
  obtain rfl := pure_eq_ok.mp hr
  obtain rfl := pure_eq_ok.mp hr'
  have hls := headerListings_eq_ok hls
  have hks := headerListings_eq_ok hks
  have hlk := twins_of_resolve hmn hm hn hls hks
  have hfindings : List.Forall₂ Eq fs fs' := by
    refine forall₂_of_common ?_ (mapM_eq_ok.mp hfs) (mapM_eq_ok.mp hfs')
    rintro ⟨record, row⟩ hentry f f' hf hf'
    obtain ⟨cells, hcells, hf⟩ := bind_eq_ok.mp hf
    obtain ⟨cells', hcells', hf'⟩ := bind_eq_ok.mp hf'
    cases hcells.symm.trans hcells'
    have hamounts := Sheet.of_everyRow hplain hentry (Sheet.cellsOfWidth_eq_ok.mp hcells).2
    exact finding_eq_of_readFinding hlk hamounts hf hf'
  obtain rfl : fs = fs' := by simpa only [List.forall₂_eq_eq_eq] using hfindings
  rw [map_symbol_of_resolve hls, map_symbol_of_resolve hks]

/-- With prices of at most eight places and amounts of at most two, the same accounts are reported
on in the same way whichever tokens are designated, down to the totals of every verdict. -/
theorem report_eq_of_designated [Arithmetic] {settings : Settings} {designated : List String}
    (hcommon : settings.commonScaling = .eightPlaces)
    (hdesignated : settings.designatedScaling = .twoPlaces) {assets accounts : Sheet.Bytes}
    (hprices : plainPrices 8 assets = true) (hamounts : plainAmounts 2 accounts = true)
    (hm : Market.ofSheet settings assets = .ok m)
    (hn : Market.ofSheet { settings with designated := designated } assets = .ok n)
    {r r' : Report} (hr : ofSheet m settings.topPolicy accounts = .ok r)
    (hr' : ofSheet n settings.topPolicy accounts = .ok r') : r = r' := by
  have hs : settings.Regular :=
    ⟨hcommon ▸ Scaling.regular_eightPlaces, hdesignated ▸ Scaling.regular_twoPlaces⟩
  have ht : Settings.Regular { settings with designated := designated } :=
    ⟨hs.common, hs.designated⟩
  exact report_eq_of_ofSheet (sameAssets_of_ofSheet hs ht rfl hprices hm hn)
    (two_le_of_ofSheet hs hm) (two_le_of_ofSheet ht hn) hamounts hr hr'

def rescaledAssets : Sheet.Bytes := Sheet.encode
  "token,price,vl,margin,pm\nBTC,27000.5,[0-9000:95],[0-3:70],\nshib,0.00000845,[0-4:80],,[]\n"

/-- An overdrawn account with an idle position, and an overpledged one. -/
def rescaledAccounts : Sheet.Bytes := Sheet.encode (
  "rn,id,,,btc,,,,,,shib,,,,total_net_balance_usdt\n" ++
  "1,0000000000000000000000000000000000000000000000000000000000000001," ++
  "1_2.5,0.50,?,0.75,.25,0,0.00,0,?,5,5.5,1,\n" ++
  "2,0000000000000000000000000000000000000000000000000000000000000002," ++
  "9,+0,,3.5,3.5, 2.01 ,80,12.5,,4.25,0,1.,\n")

/-- Each of the two tokens is designated in one of the settings. -/
theorem rescaledAccounts_reported :
    ∃ m n r r', plainPrices 8 rescaledAssets = true ∧ plainAmounts 2 rescaledAccounts = true ∧
      Market.ofSheet {} rescaledAssets = .ok m ∧
      Market.ofSheet { designated := ["btc"] } rescaledAssets = .ok n ∧
      ofSheet m .capped rescaledAccounts = .ok r ∧ ofSheet n .capped rescaledAccounts = .ok r' ∧
      r = r' := by
  have hk : plainPrices 8 rescaledAssets = true ∧ plainAmounts 2 rescaledAccounts = true ∧
      ((Market.ofSheet {} rescaledAssets).toOption.any fun m =>
        (Market.ofSheet { designated := ["btc"] } rescaledAssets).toOption.any fun n =>
          (ofSheet m .capped rescaledAccounts).toOption.any fun _ =>
            (ofSheet n .capped rescaledAccounts).toOption.any fun _ => true) = true := by
    decide +kernel
  obtain ⟨hprices, hamounts, hk⟩ := hk
  obtain ⟨m, hm, hk⟩ := any_toOption.mp hk
  obtain ⟨n, hn, hk⟩ := any_toOption.mp hk
  obtain ⟨r, hr, hk⟩ := any_toOption.mp hk
  obtain ⟨r', hr', _⟩ := any_toOption.mp hk
  exact ⟨m, n, r, r', hprices, hamounts, hm, hn, hr, hr',
    report_eq_of_designated rfl rfl hprices hamounts hm hn hr hr'⟩

end Solvency.Audit
