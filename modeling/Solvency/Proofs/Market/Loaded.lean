import Solvency.Market.Reader
import Solvency.Proofs.Ratio
import Solvency.Proofs.Schedule.Reader
import Solvency.Proofs.Text.Lowercase
import Solvency.Proofs.Verdict.Rules

/-! # Loaded markets

A market that has been read from a sheet lists one token for each record, in order. Every listing
can be trusted by what is computed from it: its symbol is in the form the market looks up, its price
is a word other than zero, its scaling is the one the settings give, and its schedules are scaled to
values.
-/
namespace Solvency

theorem symbolOf_symbolOf (text : String) : symbolOf (symbolOf text) = symbolOf text := by
  have ht := (Text.trimmed_trim text.toList).lowercase
  rw [symbolOf, symbolOf, String.toList_ofList, ht.trim_eq, Text.lowercase_lowercase]

structure Listing.Loaded (settings : Settings) (l : Listing) : Prop where
  symbol_fixed : symbolOf l.symbol = l.symbol
  price_pos : 0 < l.quote.price
  price_lt : l.quote.price < wordLimit
  scaling_eq : l.quote.scaling = settings.scalingOf l.symbol
  schedules : ∀ facility, (l.schedule facility).ScaledBy settings.valueMultiplier

namespace Market

theorem readPrice_eq_ok {scaling : Scaling} {row price : Nat} {symbol text : String}
    (h : readPrice scaling row symbol text = .ok price) :
    Amount.scaled? text scaling.priceMultiplier = some price ∧ 0 < price ∧ price < wordLimit := by
  unfold readPrice at h
  split at h
  · cases h
  · rename_i p hp
    by_cases hz : p = 0
    · rw [if_pos hz] at h
      cases h
    · rw [if_neg hz] at h
      obtain ⟨hlt, rfl⟩ := narrow_eq_ok.mp h
      exact ⟨hp, Nat.pos_of_ne_zero hz, hlt⟩

/-- An accepted record has a symbol, a price and three bracket lists. -/
theorem readListing_eq_ok {settings : Settings} {row : Nat} {cells : List String} {l : Listing}
    (h : readListing settings row cells = .ok l) :
    ∃ name price vipLoan crossMargin portfolioMargin rest,
      cells = name :: price :: vipLoan :: crossMargin :: portfolioMargin :: rest ∧
      l.symbol = symbolOf name ∧ l.quote.scaling = settings.scalingOf l.symbol ∧
      readPrice l.quote.scaling row l.symbol price = .ok l.quote.price ∧
      Schedule.read vipLoan settings.valueMultiplier row = .ok l.schedules.vipLoan ∧
      Schedule.read crossMargin settings.valueMultiplier row = .ok l.schedules.crossMargin ∧
      Schedule.read portfolioMargin settings.valueMultiplier row = .ok l.schedules.portfolioMargin := by
  unfold readListing at h
  split at h
  · rename_i name price vipLoan crossMargin portfolioMargin rest
    obtain ⟨p, hp, h⟩ := bind_eq_ok.mp h
    obtain ⟨v, hv, h⟩ := bind_eq_ok.mp h
    obtain ⟨c, hc, h⟩ := bind_eq_ok.mp h
    obtain ⟨q, hq, h⟩ := bind_eq_ok.mp h
    obtain rfl := pure_eq_ok.mp h
    exact ⟨name, price, vipLoan, crossMargin, portfolioMargin, rest, rfl, rfl, rfl, hp, hv, hc, hq⟩
  · cases h

theorem loaded_of_readListing {settings : Settings} {row : Nat} {cells : List String} {l : Listing}
    (h : readListing settings row cells = .ok l) : l.Loaded settings := by
  obtain ⟨name, _, _, _, _, _, _, hsymbol, hscaling, hp, hv, hc, hq⟩ := readListing_eq_ok h
  obtain ⟨_, hpos, hlt⟩ := readPrice_eq_ok hp
  refine ⟨?_, hpos, hlt, hscaling, ?_⟩
  · rw [hsymbol, symbolOf_symbolOf]
  · intro facility
    cases facility with
    | vipLoan => exact Schedule.scaledBy_of_read hv
    | crossMargin => exact Schedule.scaledBy_of_read hc
    | portfolioMargin => exact Schedule.scaledBy_of_read hq

theorem insert_eq_ok {m k : Market} {l : Listing} (h : m.insert l = .ok k) :
    k.listings = m.listings ++ [l] := by
  unfold insert at h
  split at h
  · cases h
  · cases h
    rfl

/-- The listing that a numbered record is read as. -/
def Reads (settings : Settings) (entry : Sheet.Record × Nat) (l : Listing) : Prop :=
  ∃ cells, Sheet.cells entry.2 entry.1 = .ok cells ∧ readListing settings entry.2 cells = .ok l

theorem readNext_eq_ok {settings : Settings} {m k : Market} {entry : Sheet.Record × Nat}
    (h : readNext settings m entry = .ok k) :
    ∃ l, Reads settings entry l ∧ k.listings = m.listings ++ [l] := by
  obtain ⟨cells, hc, h⟩ := bind_eq_ok.mp h
  obtain ⟨l, hl, h⟩ := bind_eq_ok.mp h
  exact ⟨l, ⟨cells, hc, hl⟩, insert_eq_ok h⟩

theorem ofRecords_eq_ok {settings : Settings} {records : List Sheet.Record} {m : Market}
    (h : ofRecords settings records = .ok m) :
    List.Forall₂ (Reads settings) (records.zipIdx Sheet.firstDataRow) m.listings := by
  obtain ⟨ls, hls, he⟩ := foldlM_appends Market.listings (Reads settings)
    (fun _ _ _ => readNext_eq_ok) h
  rw [he]
  exact hls

theorem loaded_of_ofSheet {settings : Settings} {bytes : Sheet.Bytes} {m : Market}
    (h : ofSheet settings bytes = .ok m) : ∀ l ∈ m.listings, l.Loaded settings := by
  intro l hl
  obtain ⟨_, _, _, _, hr⟩ := exists_of_forall₂ (ofRecords_eq_ok h) hl
  exact loaded_of_readListing hr

/-- Symbols are not repeated, so that a lookup finds the very listing it was asked for. -/
theorem find?_of_nodup {ls : List Listing} (hd : (ls.map Listing.symbol).Nodup) {l : Listing}
    (hl : l ∈ ls) : ls.find? (·.symbol == l.symbol) = some l := by
  induction ls with
  | nil => cases hl
  | cons k ks ih =>
    obtain ⟨hk, hd⟩ := List.nodup_cons.mp hd
    rcases List.mem_cons.mp hl with rfl | hl
    · exact List.find?_cons_of_pos (by simp)
    · have hne : ¬(k.symbol == l.symbol) = true := by
        intro he
        exact hk (beq_iff_eq.mp he ▸ List.mem_map_of_mem hl)
      rw [List.find?_cons_of_neg (p := fun x : Listing => x.symbol == l.symbol) hne]
      exact ih hd hl

theorem size_of_ofSheet {settings : Settings} {bytes : Sheet.Bytes} {m : Market}
    (h : ofSheet settings bytes = .ok m) : m.size = (Sheet.records bytes).tail.length := by
  rw [size, ← (ofRecords_eq_ok h).length_eq, List.length_zipIdx]

theorem value_lt_valueLimit {q : Quote} {units : Nat} (hp : q.price < wordLimit)
    (hu : units < wordLimit) : units * q.price < valueLimit := by
  have hv : valueLimit = wordLimit * wordLimit := by decide
  rw [hv]
  exact Nat.mul_lt_mul_of_lt_of_le hu hp.le (by decide)

/-- Two records, one of them with capitals, blanks and a quoted list. -/
def assetSheet : Sheet.Bytes :=
  Sheet.encode "token,price,vl,margin,pm\n BTC ,2.5,\"[0-5:90, 5-9:50]\",[0-3:70],\nshib,8.45e-6,,,[]\n"

end Market
end Solvency
