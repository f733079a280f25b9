import Solvency.Proofs.Account.Indebted
import Solvency.Proofs.Verdict.Standing

/-! # Drawn accounts are judged as they were meant

The positions of an account and the listings they were drawn for make its holdings. What the
positions of each standing have in common decides the verdict on those holdings, and the account
fits a sheet that is headed by its tokens.
-/
namespace Solvency.Account
open Arithmetic Market

variable {m : Market} {policy : TopPolicy} {entries : List (Listing × Position)}

/-- The listings of the entries are the market's own. -/
def Listed (m : Market) (entries : List (Listing × Position)) : Prop :=
  ∀ e ∈ entries, m.listing e.1.symbol = .ok e.1

theorem admits_holdings (hl : Listed m entries)
    (hc : ∀ e ∈ entries, e.2.pledge.total ≤ e.2.equity) : ∀ h ∈ entries.map holdingOf, m.Admits h := by
  intro h hh
  obtain ⟨e, he, rfl⟩ := List.mem_map.mp hh
  exact ⟨⟨e.1, hl e he⟩, hc e he⟩

theorem debt_holdingOf {e : Listing × Position} (hl : m.listing e.1.symbol = .ok e.1) :
    m.faceValue (holdingOf e).symbol (holdingOf e).position.debt = e.2.debt * e.1.quote.price :=
  faceValue_eq hl e.2.debt

theorem totalCapacity_eq_sum [Arithmetic] (policy : TopPolicy)
    (entries : List (Listing × Position)) :
    totalCapacity policy entries =
      keep (entries.map fun e => e.1.capacity policy e.2.pledge).sum := by
  induction entries with
  | nil => exact keep_zero.symm
  | cons e es ih =>
    have hstep : totalCapacity policy (e :: es) =
      keep (e.1.capacity policy e.2.pledge + totalCapacity policy es) := rfl
    rw [hstep, ih, keep_add_keep, List.map_cons, List.sum_cons]

theorem sum_credit_holdings [Arithmetic] (hl : Listed m entries) :
    keep ((entries.map holdingOf).map (m.credit policy)).sum = totalCapacity policy entries := by
  rw [totalCapacity_eq_sum, List.map_map]
  refine congrArg keep (congrArg List.sum (List.map_congr_left fun e he => ?_))
  exact credit_eq (hl e he)

/-- Equal shares of a whole, one for each entry, do not pass the whole. -/
theorem sum_debt_holdings_le (hl : Listed m entries) {whole : Nat}
    (hi : ∀ e ∈ entries, Indebted (whole / max entries.length 1) e.1 e.2) :
    ((entries.map holdingOf).map fun h => m.faceValue h.symbol h.position.debt).sum ≤ whole := by
  rw [List.map_map]
  have hle := List.sum_le_card_nsmul
    (entries.map fun e => m.faceValue (holdingOf e).symbol (holdingOf e).position.debt)
    (whole / max entries.length 1) (by
      intro n hn
      obtain ⟨e, he, rfl⟩ := List.mem_map.mp hn
      rw [debt_holdingOf (hl e he)]
      exact (hi e he).debt_le)
  rw [List.length_map, smul_eq_mul] at hle
  calc
    _ ≤ entries.length * (whole / max entries.length 1) := hle
    _ ≤ max entries.length 1 * (whole / max entries.length 1) :=
      Nat.mul_le_mul_right _ (Nat.le_max_left _ _)
    _ ≤ whole := Nat.mul_div_le whole _

section
variable [Arithmetic]

/-- The first of the positions is enough. -/
theorem judge_of_overpledged (m : Market) (policy : TopPolicy) {e : Listing × Position}
    (he : Overpledged e.2) (es : List (Listing × Position)) :
    m.judge policy ((e :: es).map holdingOf) = .ok (.overpledged e.1.symbol) := by
  have hi : e.2.isIdle = false := by
    rw [← Bool.not_eq_true, Position.isIdle_iff]
    exact fun h => he.equity_pos.ne' h.1
  exact judge_overpledged (h := holdingOf e) hi he.exceeded _

theorem judge_of_covered (policy : TopPolicy) (hl : Listed m entries)
    (hc : ∀ e ∈ entries, e.2.pledge.total ≤ e.2.equity) :
    ∃ v, m.judge policy (entries.map holdingOf) = .ok v ∧ v.standing ≠ .overpledged := by
  have ha := admits_holdings hl hc
  exact ⟨_, judge_of_admits fun h hh => ha h (List.mem_of_mem_filter hh),
    Verdict.standing_ofTotals_ne _ _⟩

theorem judge_of_overdrawn (hne : entries ≠ []) (hl : Listed m entries)
    (ho : ∀ e ∈ entries, Overdrawn policy e.1 e.2)
    (hw : Whole (m.debtAtFace (entries.map holdingOf))) :
    ∃ v, m.judge policy (entries.map holdingOf) = .ok v ∧ v.standing = .overdrawn := by
  have ha := admits_holdings hl fun e he => (ho e he).covered
  refine ⟨_, judge_overdrawn (by simpa using hne) ha ?_ hw, rfl⟩
  intro h hh
  obtain ⟨e, he, rfl⟩ := List.mem_map.mp hh
  rw [credit_eq (hl e he), debt_holdingOf (hl e he)]
  exact (ho e he).exceeded

theorem judge_of_indebted (hl : Listed m entries)
    (hi : ∀ e ∈ entries,
      Indebted (totalCapacity policy entries / max entries.length 1) e.1 e.2) :
    m.judge policy (entries.map holdingOf) = .ok .valid := by
  have ha := admits_holdings hl fun e he => (hi e he).covered
  refine judge_valid ha ?_
  rw [sum_credit_holdings hl]
  exact (keep_le _).trans (sum_debt_holdings_le hl hi)

end

/-- What an account is that was drawn to have a standing. To be overdrawn it takes debts of which
nothing is lost when they are added up. -/
structure Drawn [Arithmetic] (m : Market) (policy : TopPolicy) (tokens : List String) (index : Nat)
    (standing : Standing) (a : Account) : Prop where
  index_eq : a.index = index
  standing_eq : a.standing = standing
  fits : a.Fits m tokens
  judged : (standing = .overdrawn → Whole (m.debtAtFace a.holdings)) →
    ∃ v, m.judge policy a.holdings = .ok v ∧ v.standing = standing

variable {tokens : List String} {listings : List Listing} {ps : List Position} {index : Nat}

theorem length_entries (hlen : listings.length = ps.length) :
    (listings.zip ps).length = listings.length := by
  rw [List.length_zip, hlen, min_self]

theorem entries_ne_nil (hlen : listings.length = ps.length) (hne : listings ≠ []) :
    listings.zip ps ≠ [] := by
  intro hz
  have hl := length_entries hlen
  rw [hz] at hl
  exact hne (List.length_eq_zero_iff.mp hl.symm)

theorem listed_zip (hr : m.resolve tokens = .ok listings) : Listed m (listings.zip ps) := by
  intro e he
  have hmem := (List.of_mem_zip he).1
  exact (listing_of_resolve hr e.1 hmem).2

/-- The holdings made of listings and positions are in the tokens of the listings. -/
theorem map_symbol_holdings (hr : m.resolve tokens = .ok listings)
    (hlen : listings.length = ps.length) :
    ((listings.zip ps).map holdingOf).map Holding.symbol = tokens := by
  rw [← map_symbol_of_resolve hr, List.map_map]
  show (listings.zip ps).map (Listing.symbol ∘ Prod.fst) = _
  rw [← List.map_map, List.map_fst_zip hlen.le]

theorem fits_entries (hr : m.resolve tokens = .ok listings) (hi : index < wordLimit)
    (hlen : listings.length = ps.length) (hf : ∀ e ∈ listings.zip ps, e.2.Fits)
    (standing : Standing) :
    Account.Fits m tokens ⟨index, standing, (listings.zip ps).map holdingOf⟩ where
  index_lt := hi
  symbols := map_symbol_holdings hr hlen
  holdings h hh := by
    obtain ⟨e, he, rfl⟩ := List.mem_map.mp hh
    refine ⟨hf e he, ?_⟩
    intro l hl
    have hlisted := listed_zip hr e he
    cases hlisted.symm.trans hl
    rfl

section
variable [Arithmetic]

/-- It is enough that each position fits and that the holdings are judged as they should be. -/
theorem drawn_of_forall₂ (hr : m.resolve tokens = .ok listings) (hi : index < wordLimit)
    {standing : Standing} {r : Listing → Position → Prop} (h : List.Forall₂ r listings ps)
    (hf : ∀ l p, r l p → p.Fits)
    (hj : (standing = .overdrawn → Whole (m.debtAtFace ((listings.zip ps).map holdingOf))) →
      ∃ v, m.judge policy ((listings.zip ps).map holdingOf) = .ok v ∧ v.standing = standing) :
    Drawn m policy tokens index standing
      ⟨index, standing, (listings.zip ps).map holdingOf⟩ where
  index_eq := rfl
  standing_eq := rfl
  fits := fits_entries hr hi h.length_eq (fun e he => hf e.1 e.2 (List.forall₂_zip h he)) standing
  judged := hj

/-- Whatever words are drawn, an account that is returned has the standing it was drawn for. -/
theorem draw_ensures {settings : Settings} (hs : settings.Sound)
    (hr : m.resolve settings.tokens = .ok listings)
    (hl : ∀ l ∈ listings, 0 < l.quote.price ∧ (l.schedule .vipLoan).isEmpty = false)
    (hi : index < wordLimit) (standing : Standing) :
    Ensures (draw settings listings index standing)
      (Drawn m settings.topPolicy settings.tokens index standing) := by
  have hne : listings ≠ [] := by
    rintro rfl
    exact hs.tokens_ne_nil (map_symbol_of_resolve hr).symm
  cases standing with
  | overpledged =>
    refine Ensures.bind (Ensures.mapM fun l _ => drawOverpledged_ensures settings l) ?_
    intro ps hps
    obtain ⟨e, es, hz⟩ := List.exists_cons_of_ne_nil (entries_ne_nil hps.length_eq hne)
    have he : e ∈ listings.zip ps := hz ▸ List.mem_cons_self
    have hj := judge_of_overpledged m settings.topPolicy (List.forall₂_zip hps he).overpledged es
    rw [← hz] at hj
    exact Ensures.pure (drawn_of_forall₂ hr hi hps (fun _ _ h => h.fits) fun _ => ⟨_, hj, rfl⟩)
  | overdrawn =>
    have hdrawn : ∀ l ∈ listings,
        Ensures (drawOverdrawn settings l) (Overdrawn settings.topPolicy l) := by
      intro l h
      obtain ⟨hp, htiered⟩ := hl l h
      exact (drawOverdrawn_ensures hp hs.inflation_pos).mono fun _ ho =>
        ho.overdrawn hs.overshoot_pos hs.inflation_pos hs.inflates htiered
    refine Ensures.bind (Ensures.mapM hdrawn) ?_
    intro ps hps
    have hz := entries_ne_nil hps.length_eq hne
    refine Ensures.pure (drawn_of_forall₂ hr hi hps (fun _ _ h => h.fits) fun hw => ?_)
    exact judge_of_overdrawn hz (listed_zip hr) (fun e he => List.forall₂_zip hps he) (hw rfl)
  | valid =>
    refine Ensures.bind (drawValid_ensures hs.shrinkage_pos fun l h => (hl l h).1) ?_
    intro ps howes
    have hps := howes.imp fun _ _ ho => ho.indebted hs.shrinkage_pos hs.shrinks
    have hlen := length_entries hps.length_eq
    have hj := judge_of_indebted (listed_zip hr)
      fun e he => hlen ▸ List.forall₂_zip hps he
    exact Ensures.pure (drawn_of_forall₂ hr hi hps (fun _ _ h => h.fits) fun _ => ⟨_, hj, rfl⟩)

end

end Solvency.Account
