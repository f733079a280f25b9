import Solvency.Proofs.Account.Drawn
import Solvency.Proofs.Market.Units

/-! # What every drawn position owes

A position that was to be overdrawn owes the least debt that its inflation leaves beyond the capacity
of its pledges, and a valid one the greatest that its shrinkage leaves within its share of the whole
capacity. A token without brackets at the VIP loan cannot be overdrawn on its own and owes one whole
token instead.
-/
namespace Solvency

theorem Schedule.top?_eq_none {s : Schedule} : s.top? = none ↔ s.isEmpty = true := by
  rw [top?, Option.map_eq_none_iff, List.getLast?_eq_none_iff, isEmpty, List.isEmpty_iff]

namespace Account
variable {settings : Settings} {l : Listing} {p : Position}

/-- No more is pledged than owned, and more is owed than the pledges support. -/
structure Overdrawn [Arithmetic] (policy : TopPolicy) (l : Listing) (p : Position) : Prop where
  fits : p.Fits
  covered : p.pledge.total ≤ p.equity
  exceeded : l.capacity policy p.pledge < p.debt * l.quote.price

/-- An equity worth no more than `top`, and the least debt that is left, inflated, of the fewest
units beyond the capacity. -/
structure OwesBeyond [Arithmetic] (settings : Settings) (l : Listing) (top : Nat) (p : Position) :
    Prop where
  fits : p.Fits
  equity_le : p.equity * l.quote.price ≤ top
  covered : p.pledge.total ≤ p.equity
  debt_least : ∃ units,
    IsLeast {u | l.capacity settings.topPolicy p.pledge + settings.overshoot ≤ u * l.quote.price}
      units ∧
    IsLeast {debt | units * settings.inflation.numerator ≤ debt * settings.inflation.denominator}
      p.debt

/-- Neither an overshoot of nothing nor a deflation, which would undo it. -/
theorem OwesBeyond.overdrawn [Arithmetic] (ho : 0 < settings.overshoot)
    (hd : 0 < settings.inflation.denominator)
    (hi : settings.inflation.denominator ≤ settings.inflation.numerator) {top : Nat}
    (h : OwesBeyond settings l top p) : Overdrawn settings.topPolicy l p where
  fits := h.fits
  covered := h.covered
  exceeded := by
    obtain ⟨units, hunits, hdebt⟩ := h.debt_least
    calc
      l.capacity settings.topPolicy p.pledge
        < l.capacity settings.topPolicy p.pledge + settings.overshoot := Nat.lt_add_of_pos_right ho
      _ ≤ units * l.quote.price := hunits.1
      _ ≤ p.debt * l.quote.price := Nat.mul_le_mul_right _ (Ratio.le_of_isLeast hd hi hdebt)

/-- One whole token is owed. -/
structure OwesToken (settings : Settings) (l : Listing) (p : Position) : Prop where
  equity_le : p.equity ≤ settings.equityCeiling * l.quote.scaling.unitScale
  covered : p.pledge.total ≤ p.equity
  debt_eq : p.debt = l.quote.scaling.unitScale

theorem drawOverdrawn_of_top [Arithmetic] (hp : 0 < l.quote.price)
    (hd : 0 < settings.inflation.denominator)
    {top : Nat} (htop : (l.schedule .vipLoan).top? = some top) :
    Ensures (drawOverdrawn settings l) (OwesBeyond settings l top) := by
  unfold drawOverdrawn
  rw [htop]
  refine Ensures.bind (Ensures.lift _) ?_
  intro most hm
  refine Ensures.bind (drawEquity_le (lt_of_narrow hm)) ?_
  intro equity he
  refine Ensures.bind (Ensures.lift _) ?_
  intro debt hdebt
  refine Ensures.bind (Ensures.lift _) ?_
  intro inflated hi
  have hequity : equity < wordLimit := he.trans_lt (lt_of_narrow hm)
  obtain ⟨_, rfl⟩ := narrow_eq_ok.mp hm
  exact Ensures.pure ⟨fits_share hequity (lt_of_narrow hi), (Nat.le_div_iff_mul_le hp).mp he,
    total_share_le equity, debt, l.isLeast_of_debtBeyond hp hdebt, Ratio.isLeast_of_ceil hd hi⟩

theorem drawOverdrawn_of_empty [Arithmetic] (hs : (l.schedule .vipLoan).isEmpty = true) :
    Ensures (drawOverdrawn settings l) (OwesToken settings l) := by
  unfold drawOverdrawn
  rw [Schedule.top?_eq_none.mpr hs]
  refine Ensures.bind (Ensures.lift _) ?_
  intro ceiling hc
  obtain ⟨hlt, rfl⟩ := narrow_eq_ok.mp hc
  refine Ensures.bind (drawEquity_le hlt) ?_
  intro equity he
  exact Ensures.pure ⟨he, total_share_le equity, rfl⟩

/-- What a position is that was drawn to be overdrawn. -/
structure Stretched [Arithmetic] (settings : Settings) (l : Listing) (p : Position) : Prop where
  tiered : (l.schedule .vipLoan).isEmpty = false →
    ∃ top, (l.schedule .vipLoan).top? = some top ∧ OwesBeyond settings l top p
  bare : (l.schedule .vipLoan).isEmpty = true → OwesToken settings l p

theorem Stretched.covered [Arithmetic] (h : Stretched settings l p) :
    p.pledge.total ≤ p.equity := by
  cases hs : (l.schedule .vipLoan).isEmpty with
  | true => exact (h.bare hs).covered
  | false =>
    obtain ⟨_, _, ho⟩ := h.tiered hs
    exact ho.covered

theorem Stretched.overdrawn [Arithmetic] (ho : 0 < settings.overshoot)
    (hd : 0 < settings.inflation.denominator)
    (hi : settings.inflation.denominator ≤ settings.inflation.numerator)
    (hs : (l.schedule .vipLoan).isEmpty = false) (h : Stretched settings l p) :
    Overdrawn settings.topPolicy l p := by
  obtain ⟨_, _, howes⟩ := h.tiered hs
  exact howes.overdrawn ho hd hi

theorem drawOverdrawn_ensures [Arithmetic] (hp : 0 < l.quote.price)
    (hd : 0 < settings.inflation.denominator) :
    Ensures (drawOverdrawn settings l) (Stretched settings l) := by
  intro d p h
  constructor
  · intro hs
    obtain ⟨top, htop⟩ := Schedule.exists_top hs
    exact ⟨top, htop, drawOverdrawn_of_top hp hd htop d p h⟩
  · intro hs
    exact drawOverdrawn_of_empty hs d p h

/-- Equity and pledges of a position that was drawn to be valid. -/
structure Owns (settings : Settings) (l : Listing) (p : Position) : Prop where
  fits : p.Fits
  equity_le : p.equity ≤ settings.equityCeiling * l.quote.scaling.unitScale
  covered : p.pledge.total ≤ p.equity

/-- The greatest debt is owed that is left, shrunk, of the most units worth at most `value`. -/
structure OwesWithin (settings : Settings) (value : Nat) (l : Listing) (p : Position) : Prop extends
    Owns settings l p where
  debt_greatest : ∃ units,
    IsGreatest {u | u * l.quote.price ≤ value} units ∧
    IsGreatest {debt | debt * settings.shrinkage.denominator ≤ units * settings.shrinkage.numerator}
      p.debt

/-- No more is pledged than owned, and what is owed is worth at most `value`. -/
structure Indebted (value : Nat) (l : Listing) (p : Position) : Prop where
  fits : p.Fits
  covered : p.pledge.total ≤ p.equity
  debt_le : p.debt * l.quote.price ≤ value

theorem OwesWithin.indebted (hd : 0 < settings.shrinkage.denominator)
    (hs : settings.shrinkage.numerator ≤ settings.shrinkage.denominator) {value : Nat}
    (h : OwesWithin settings value l p) : Indebted value l p where
  fits := h.fits
  covered := h.covered
  debt_le := by
    obtain ⟨units, hunits, hdebt⟩ := h.debt_greatest
    calc
      p.debt * l.quote.price ≤ units * l.quote.price :=
        Nat.mul_le_mul_right _ (Ratio.le_of_isGreatest hd hs hdebt)
      _ ≤ value := hunits.1

theorem drawSolvent_ensures (settings : Settings) (l : Listing) :
    Ensures (drawSolvent settings l) (Owns settings l) := by
  refine Ensures.bind (Ensures.lift _) ?_
  intro ceiling hc
  obtain ⟨hlt, rfl⟩ := narrow_eq_ok.mp hc
  refine Ensures.bind (drawEquity_le hlt) ?_
  intro equity he
  exact Ensures.pure ⟨fits_share (he.trans_lt hlt) (by decide), he, total_share_le equity⟩

theorem owesWithin_of_indebt (hp : 0 < l.quote.price) (hd : 0 < settings.shrinkage.denominator)
    {value : Nat} {q : Position} (ho : Owns settings l p)
    (h : indebt settings value (l, p) = .ok q) :
    OwesWithin settings value l q ∧ q.pledge = p.pledge := by
  obtain ⟨units, hu, h⟩ := bind_eq_ok.mp h
  obtain ⟨debt, hdebt, h⟩ := bind_eq_ok.mp h
  obtain rfl := pure_eq_ok.mp h
  have hfits : Position.Fits { p with debt := debt } :=
    ⟨ho.fits.equity_lt, lt_of_narrow hdebt, ho.fits.pledge_lt⟩
  exact ⟨⟨⟨hfits, ho.equity_le, ho.covered⟩, units, Quote.isGreatest_of_unitsWithin hp hu,
    Ratio.isGreatest_of_floor hd hdebt⟩, rfl⟩

/-- Taking on debts changes no pledge, and so no capacity. -/
theorem owesWithin_of_mapM [Arithmetic] (hd : 0 < settings.shrinkage.denominator)
    (policy : TopPolicy) {value : Nat} {listings : List Listing} {ps qs : List Position}
    (ho : List.Forall₂ (fun l p => 0 < l.quote.price ∧ Owns settings l p) listings ps)
    (hq : (listings.zip ps).mapM (indebt settings value) = .ok qs) :
    List.Forall₂ (OwesWithin settings value) listings qs ∧
      totalCapacity policy (listings.zip qs) = totalCapacity policy (listings.zip ps) := by
  rw [mapM_eq_ok] at hq
  induction ho generalizing qs with
  | nil =>
    cases hq
    exact ⟨.nil, rfl⟩
  | cons hlp _ ih =>
    obtain ⟨q, rs, hlq, hrs, rfl⟩ := List.forall₂_cons_left_iff.mp hq
    obtain ⟨howes, hpledge⟩ := owesWithin_of_indebt hlp.1 hd hlp.2 hlq
    obtain ⟨hrest, htotal⟩ := ih hrs
    refine ⟨.cons howes hrest, ?_⟩
    simp only [totalCapacity, List.zip_cons_cons, List.foldr_cons, hpledge] at htotal ⊢
    rw [htotal]

theorem drawValid_ensures [Arithmetic] (hd : 0 < settings.shrinkage.denominator)
    {listings : List Listing} (hp : ∀ l ∈ listings, 0 < l.quote.price) :
    Ensures (drawValid settings listings) fun ps =>
      List.Forall₂ (OwesWithin settings (totalCapacity settings.topPolicy (listings.zip ps) /
        max listings.length 1)) listings ps := by
  refine Ensures.bind (Ensures.mapM fun l hl =>
    (drawSolvent_ensures settings l).mono fun _ ho => And.intro (hp l hl) ho) ?_
  intro ps ho
  refine (Ensures.lift _).mono ?_
  intro qs hq
  obtain ⟨howes, htotal⟩ := owesWithin_of_mapM hd settings.topPolicy ho hq
  rw [List.length_zip, ho.length_eq, min_self] at howes
  rw [htotal, ho.length_eq]
  exact howes

end Account
end Solvency
