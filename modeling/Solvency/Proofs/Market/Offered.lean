import Solvency.Proofs.Market.Reordered
import Solvency.Proofs.Verdict.FaceSolvency

/-! # Listings offered one after another

A market takes in a listing exactly if it has none under that symbol, and is otherwise left as it
is. However many listings are offered, what counts for a symbol is the listing that was there, or
else the first one offered, and every lookup tells the same about it.
-/
namespace Solvency.Market

/-- Offers listings one after another, and keeps what each offer came to. -/
def offerAll (m : Market) : List Listing → List (Except Fault Unit) × Market
  | [] => ([], m)
  | l :: ls =>
    let rest := (m.offer l).2.offerAll ls
    ((m.offer l).1 :: rest.1, rest.2)

/-- The listing that counts for a symbol: the one that was there, or else the first one offered. -/
def first? (m : Market) (offered : List Listing) (symbol : String) : Option Listing :=
  (m.find? symbol).or (offered.find? (·.symbol == symbol))

def symbols (m : Market) : Finset String := (m.listings.map Listing.symbol).toFinset

/-- What an offer comes to, and the market behind it. -/
structure Settles (m : Market) (l : Listing) (outcome : Except Fault Unit) (k : Market) : Prop where
  taken_iff : outcome = .ok () ↔ m.find? l.symbol = none
  refused_iff : ∀ fault, outcome = .error fault ↔
    (m.find? l.symbol).isSome ∧ fault = .repeatedToken l.symbol
  unchanged : outcome ≠ .ok () → k = m

/-- A market that answers every lookup by a map from symbols to listings. -/
structure Shows (m : Market) (view : String → Option Listing) : Prop where
  listing_eq : ∀ symbol, m.listing symbol = (view symbol).elim (.error (.unlistedToken symbol)) .ok
  quote_eq : ∀ symbol, m.quote symbol =
    ((view symbol).map Listing.quote).elim (.error (.unlistedToken symbol)) .ok
  schedule_eq : ∀ symbol facility, m.schedule symbol facility =
    ((view symbol).map fun l => l.schedule facility).elim (.error (.unlistedToken symbol)) .ok
  resolve_ok : ∀ tokens, (∃ ls, m.resolve tokens = .ok ls) ↔ ∀ token ∈ tokens, (view token).isSome
  resolve_error : ∀ tokens fault, m.resolve tokens = .error fault ↔
    ∃ before token after, tokens = before ++ token :: after ∧ (∀ t ∈ before, (view t).isSome) ∧
      view token = none ∧ fault = .unlistedToken token

variable {m : Market} {l : Listing} {symbol : String}

theorem mem_symbols : symbol ∈ m.symbols ↔ (m.find? symbol).isSome := by
  simp [symbols, find?]

theorem card_symbols (m : Market) : m.symbols.card = m.size := by
  rw [symbols, List.toFinset_card_of_nodup m.distinct, List.length_map, size]

/-! ## One offer -/

theorem find?_of_listings {k : Market} {ls : List Listing} (h : k.listings = m.listings ++ ls)
    (symbol : String) : k.find? symbol = m.first? ls symbol := by
  rw [find?, h, List.find?_append, first?, find?]

/-- A listing is taken in at the end, or refused for a symbol that is there. -/
theorem offer_cases (m : Market) (l : Listing) :
    (m.find? l.symbol = none ∧ (m.offer l).1 = .ok () ∧
        (m.offer l).2.listings = m.listings ++ [l]) ∨
      ((m.find? l.symbol).isSome ∧ m.offer l = (.error (.repeatedToken l.symbol), m)) := by
  unfold offer insert
  by_cases hl : l.symbol ∈ m.listings.map Listing.symbol
  · right
    rw [dif_pos hl]
    exact ⟨mem_symbols.mp (List.mem_toFinset.mpr hl), rfl⟩
  · left
    have hnone : m.find? l.symbol = none := by
      rw [← Option.not_isSome_iff_eq_none, ← mem_symbols, symbols, List.mem_toFinset]
      exact hl
    rw [dif_neg hl]
    exact ⟨hnone, rfl, rfl⟩

theorem settles_offer (m : Market) (l : Listing) : Settles m l (m.offer l).1 (m.offer l).2 := by
  rcases offer_cases m l with ⟨hnone, hok, _⟩ | ⟨hsome, hrefused⟩
  · constructor
    · simp [hok, hnone]
    · simp [hok, hnone]
    · exact fun h => absurd hok h
  · have hlisted : m.find? l.symbol ≠ none := Option.isSome_iff_ne_none.mp hsome
    rw [hrefused]
    constructor
    · simp [hlisted]
    · simp [hsome, eq_comm]
    · exact fun _ => rfl

theorem find?_offer (m : Market) (l : Listing) (symbol : String) :
    (m.offer l).2.find? symbol = m.first? [l] symbol := by
  rcases offer_cases m l with ⟨_, _, hlistings⟩ | ⟨hsome, hrefused⟩
  · exact find?_of_listings hlistings symbol
  · rw [hrefused, first?]
    by_cases hs : l.symbol = symbol
    · -- the listing that was there still counts
      subst hs
      rw [Option.or_of_isSome hsome]
    · simp [hs]

/-! ## All offers -/

theorem first?_cons (m : Market) (l : Listing) (ls : List Listing) (symbol : String) :
    (m.offer l).2.first? ls symbol = m.first? (l :: ls) symbol := by
  rw [first?, find?_offer, first?, first?, Option.or_assoc, ← List.find?_append]
  rfl

theorem find?_offerAll (m : Market) (offered : List Listing) (symbol : String) :
    (m.offerAll offered).2.find? symbol = m.first? offered symbol := by
  induction offered generalizing m with
  | nil => simp [offerAll, first?]
  | cons l ls ih =>
    rw [offerAll, ih]
    exact first?_cons m l ls symbol

/-- Each offer is made to the market that those before it have left. -/
theorem settles_offerAll (m : Market) {offered : List Listing} {i : Nat} {l : Listing}
    (h : offered[i]? = some l) :
    ∃ outcome, (m.offerAll offered).1[i]? = some outcome ∧
      Settles (m.offerAll (offered.take i)).2 l outcome (m.offerAll (offered.take (i + 1))).2 := by
  induction offered generalizing m i with
  | nil => simp at h
  | cons x xs ih =>
    cases i with
    | zero =>
      cases h
      exact ⟨_, rfl, settles_offer m l⟩
    | succ i => exact ih (m.offer x).2 h

theorem first?_of_not_mem {offered : List Listing} (h : symbol ∉ offered.map Listing.symbol) :
    m.first? offered symbol = m.find? symbol := by
  have hnone : offered.find? (·.symbol == symbol) = none := by
    simpa using h
  rw [first?, hnone, Option.or_none]

theorem symbols_offerAll (m : Market) (offered : List Listing) :
    (m.offerAll offered).2.symbols = m.symbols ∪ (offered.map Listing.symbol).toFinset := by
  ext symbol
  rw [mem_symbols, find?_offerAll, first?, Option.isSome_or, Bool.or_eq_true, ← mem_symbols,
    Finset.mem_union]
  simp

/-- The market grows by one listing for each symbol that it did not have. -/
theorem size_offerAll (m : Market) (offered : List Listing) :
    (m.offerAll offered).2.size =
      m.size + ((offered.map Listing.symbol).toFinset \ m.symbols).card := by
  rw [← card_symbols, symbols_offerAll, ← Finset.union_sdiff_self_eq_union,
    Finset.card_union_of_disjoint Finset.disjoint_sdiff, card_symbols]

/-! ## Lookups -/

theorem refusal?_listing (m : Market) (symbol : String) :
    refusal? (m.listing symbol) =
      (m.find? symbol).elim (some (.unlistedToken symbol)) fun _ => none := by
  rw [listing]
  cases m.find? symbol <;> rfl

theorem refusal?_listing_eq_none :
    refusal? (m.listing symbol) = none ↔ (m.find? symbol).isSome := by
  rw [refusal?_listing]
  cases m.find? symbol <;> simp

theorem refusal?_listing_eq_some {fault : Fault} :
    refusal? (m.listing symbol) = some fault ↔
      m.find? symbol = none ∧ fault = .unlistedToken symbol := by
  rw [refusal?_listing]
  cases m.find? symbol <;> simp [eq_comm]

/-- All lookups come down to one. -/
theorem shows_find? (m : Market) : m.Shows m.find? where
  listing_eq _ := rfl
  quote_eq symbol := by
    rw [quote, listing]
    cases m.find? symbol <;> rfl
  schedule_eq symbol facility := by
    rw [schedule, listing]
    cases m.find? symbol <;> rfl
  resolve_ok tokens := by
    simp only [← refusal?_eq_none, resolve, refusal?_mapM, List.findSome?_eq_none_iff,
      refusal?_listing_eq_none]
  resolve_error tokens fault := by
    simp only [← refusal?_eq_some, resolve, refusal?_mapM, List.findSome?_eq_some_iff,
      refusal?_listing_eq_some, refusal?_listing_eq_none]
    constructor
    · rintro ⟨before, token, after, rfl, ⟨hnone, rfl⟩, hbefore⟩
      exact ⟨before, token, after, rfl, hbefore, hnone, rfl⟩
    · rintro ⟨before, token, after, rfl, hbefore, hnone, rfl⟩
      exact ⟨before, token, after, rfl, ⟨hnone, rfl⟩, hbefore⟩

/-- Every offer is taken exactly if its symbol is not listed by then, and otherwise changes nothing.
What the market tells afterwards is told by the listings that count: those that were there and the
first ones offered for the symbols that it did not have. -/
theorem offerAll_firstCounts (m : Market) (offered : List Listing) :
    (∀ i l, offered[i]? = some l → ∃ outcome, (m.offerAll offered).1[i]? = some outcome ∧
      Settles (m.offerAll (offered.take i)).2 l outcome (m.offerAll (offered.take (i + 1))).2) ∧
    (m.offerAll offered).2.Shows (m.first? offered) ∧
    (∀ symbol ∉ offered.map Listing.symbol,
      (m.offerAll offered).2.find? symbol = m.find? symbol) ∧
    (m.offerAll offered).2.size =
      m.size + ((offered.map Listing.symbol).toFinset \ m.symbols).card := by
  refine ⟨fun i l h => settles_offerAll m h, ?_, ?_, size_offerAll m offered⟩
  · have hview : (m.offerAll offered).2.find? = m.first? offered :=
      funext (find?_offerAll m offered)
    exact hview ▸ shows_find? _
  · intro symbol h
    rw [find?_offerAll, first?_of_not_mem h]

/-- A second listing for a symbol of `pairMarket`, and two for one that it does not have. -/
def repeatedOffers : List Listing := [
  ⟨⟨"btc", 1, .eightPlaces⟩, ⟨.empty, .empty, .empty⟩⟩,
  ⟨⟨"eth", 5, .eightPlaces⟩, ⟨.empty, ⟨[⟨30, Fin.last 100⟩], by decide⟩, .empty⟩⟩,
  ⟨⟨"eth", 9, .twoPlaces⟩, ⟨.empty, .empty, .empty⟩⟩]

theorem repeatedOffers_firstCount :
    (∃ second ∈ repeatedOffers, repeatedOffers[2]? = some second ∧ second.symbol = "eth" ∧
      ∃ outcome, (pairMarket.offerAll repeatedOffers).1[2]? = some outcome ∧
        Settles (pairMarket.offerAll (repeatedOffers.take 2)).2 second outcome
          (pairMarket.offerAll repeatedOffers).2 ∧
        outcome = .error (.repeatedToken "eth")) ∧
    (pairMarket.offerAll repeatedOffers).2.quote "btc" = .ok ⟨"btc", 7, .eightPlaces⟩ ∧
    (pairMarket.offerAll repeatedOffers).2.quote "eth" = .ok ⟨"eth", 5, .eightPlaces⟩ ∧
    (pairMarket.offerAll repeatedOffers).2.schedule "eth" .crossMargin =
      .ok ⟨[⟨30, Fin.last 100⟩], by decide⟩ ∧
    ("shib" ∉ repeatedOffers.map Listing.symbol ∧
      (pairMarket.offerAll repeatedOffers).2.find? "shib" = pairMarket.find? "shib") ∧
    (pairMarket.offerAll repeatedOffers).2.resolve ["eth", "doge", "shib", "xrp"] =
      .error (.unlistedToken "doge") ∧
    (pairMarket.offerAll repeatedOffers).2.size = pairMarket.size + 1 := by
  obtain ⟨hsteps, hshows, hothers, hsize⟩ := offerAll_firstCounts pairMarket repeatedOffers
  have hsecond : repeatedOffers[2]? = some repeatedOffers[2] := rfl
  obtain ⟨outcome, houtcome, hsettles⟩ := hsteps 2 _ hsecond
  have hrefused : outcome = .error (.repeatedToken "eth") :=
    (hsettles.refused_iff _).mpr ⟨rfl, rfl⟩
  have hshib : "shib" ∉ repeatedOffers.map Listing.symbol := by decide
  have hmissing := (hshows.resolve_error ["eth", "doge", "shib", "xrp"] (.unlistedToken "doge")).mpr
    ⟨["eth"], "doge", ["shib", "xrp"], rfl, by decide, rfl, rfl⟩
  exact ⟨⟨_, List.getElem_mem _, hsecond, rfl, outcome, houtcome, hsettles, hrefused⟩,
    hshows.quote_eq "btc", hshows.quote_eq "eth", hshows.schedule_eq "eth" .crossMargin,
    ⟨hshib, hothers "shib" hshib⟩, hmissing, hsize⟩

end Solvency.Market
