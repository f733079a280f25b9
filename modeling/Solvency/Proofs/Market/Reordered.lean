import Solvency.Proofs.Market.Record

/-! # The order of an asset sheet

Every record lists the same token wherever it stands, and two records are in each other's way no
matter which comes first. Sheets that hold the same records in different orders are thus accepted
together, and the markets they list cannot be told apart by looking up a symbol.
-/
namespace Solvency.Market

theorem find?_eq_some_iff {m : Market} {symbol : String} {l : Listing} :
    m.find? symbol = some l ↔ l ∈ m.listings ∧ l.symbol = symbol := by
  constructor
  · intro h
    exact ⟨List.mem_of_find?_eq_some h, symbol_of_find? h⟩
  · rintro ⟨hl, rfl⟩
    exact find?_of_nodup m.distinct hl

/-- Symbols are distinct, so that the order of the listings does not matter to a lookup. -/
theorem find?_of_perm {m k : Market} (h : m.listings.Perm k.listings) (symbol : String) :
    m.find? symbol = k.find? symbol := by
  apply Option.ext
  intro l
  rw [find?_eq_some_iff, find?_eq_some_iff, h.mem_iff]

variable {settings : Settings} {records others : List Sheet.Record} {m : Market}

/-- Whatever records list, they list in any order. -/
theorem exists_ofRecords_of_perm (hp : records.Perm others) (h : ofRecords settings records = .ok m) :
    ∃ k, ofRecords settings others = .ok k ∧ k.listings.Perm m.listings := by
  obtain ⟨ls, hls, hperm⟩ := List.perm_comp_forall₂ hp.symm (ofRecords_eq_ok_iff.mp h)
  have hdistinct : (ls.map Listing.symbol).Nodup :=
    (hperm.map Listing.symbol).nodup_iff.mpr m.distinct
  exact ⟨⟨ls, hdistinct⟩, ofRecords_eq_ok_iff.mpr hls, hperm⟩

/-- Two sheets with the same records are accepted together, and then list the same tokens. -/
theorem ofSheet_reordered {a b : Sheet.Bytes}
    (h : (Sheet.records a).tail.Perm (Sheet.records b).tail) (settings : Settings) :
    ((∃ m, ofSheet settings a = .ok m) ↔ ∃ k, ofSheet settings b = .ok k) ∧
    ∀ m k, ofSheet settings a = .ok m → ofSheet settings b = .ok k →
      m.size = k.size ∧ ∀ symbol, m.listing symbol = k.listing symbol := by
  refine ⟨⟨?_, ?_⟩, ?_⟩
  · rintro ⟨m, hm⟩
    obtain ⟨k, hk, _⟩ := exists_ofRecords_of_perm h hm
    exact ⟨k, hk⟩
  · rintro ⟨k, hk⟩
    obtain ⟨m, hm, _⟩ := exists_ofRecords_of_perm h.symm hk
    exact ⟨m, hm⟩
  · intro m k hm hk
    obtain ⟨k', hk', hperm⟩ := exists_ofRecords_of_perm h hm
    obtain rfl : k' = k := Except.ok.inj (hk'.symm.trans hk)
    refine ⟨hperm.length_eq.symm, fun symbol => ?_⟩
    rw [listing, listing, find?_of_perm hperm.symm]

/-- The records of `assetSheet` the other way round, under another header. -/
def turnedSheet : Sheet.Bytes :=
  Sheet.encode "?\nshib,8.45e-6,,,[]\n BTC ,2.5,\"[0-5:90, 5-9:50]\",[0-3:70],\n"

theorem turnedSheet_reordered :
    (Sheet.records assetSheet).tail.Perm (Sheet.records turnedSheet).tail ∧
    ∃ m k, ofSheet {} assetSheet = .ok m ∧ ofSheet {} turnedSheet = .ok k ∧
      m.listings.map Listing.symbol = ["btc", "shib"] ∧
      k.listings.map Listing.symbol = ["shib", "btc"] ∧
      m.size = k.size ∧ ∀ symbol, m.listing symbol = k.listing symbol := by
  have hperm : (Sheet.records assetSheet).tail.Perm (Sheet.records turnedSheet).tail := by
    decide +kernel
  obtain ⟨_, hsame⟩ := ofSheet_reordered hperm {}
  have hk : (ofSheet {} assetSheet).toOption.any
      (fun m => decide (m.listings.map Listing.symbol = ["btc", "shib"])) = true := by decide +kernel
  have hk' : (ofSheet {} turnedSheet).toOption.any
      (fun k => decide (k.listings.map Listing.symbol = ["shib", "btc"])) = true := by decide +kernel
  obtain ⟨m, hm, hsymbols⟩ := any_toOption.mp hk
  obtain ⟨k, hk, hsymbols'⟩ := any_toOption.mp hk'
  exact ⟨hperm, m, k, hm, hk, of_decide_eq_true hsymbols, of_decide_eq_true hsymbols',
    hsame m k hm hk⟩

end Solvency.Market
