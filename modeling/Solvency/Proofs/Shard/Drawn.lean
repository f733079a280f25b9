import Solvency.Proofs.Account.Judged
import Solvency.Shard

/-! # What a drawn shard contains

One account is drawn for each place of a shard, in order, and with the standing that the place asks
for. How many places ask for each standing depends on nothing but the number of invalid accounts.
-/
namespace Solvency.Shard

theorem number_lt (s : Shard) {place : Nat} (h : place < s.total) : s.number place < wordLimit := by
  have hn := s.numbers_fit
  unfold number
  omega

theorem drawFrom_ensures [Arithmetic] {settings : Settings} {listings : List Listing} {s : Shard}
    {r : Nat → Account → Prop}
    (h : ∀ place < s.total, Ensures (drawAt settings listings s place) (r place))
    {place count : Nat} (hc : place + count ≤ s.total) :
    Ensures (drawFrom settings listings s place count)
      (List.Forall₂ r (List.range' place count)) := by
  induction count generalizing place with
  | zero => exact Ensures.pure .nil
  | succ count ih =>
    refine Ensures.bind (h place (by omega)) ?_
    intro account ha
    have hrest : place + 1 + count ≤ s.total := by omega
    refine Ensures.bind (ih hrest) ?_
    intro accounts has
    exact Ensures.pure (.cons ha has)

/-- Nothing is drawn unless every token is listed. -/
theorem draw_resolves [Arithmetic] (settings : Settings) (m : Market) (s : Shard) :
    Ensures (draw settings m s) fun _ => ∃ listings, m.resolve settings.tokens = .ok listings :=
  Ensures.bind (Ensures.lift _) fun listings hr _ _ _ => ⟨listings, hr⟩

/-- Every place of the shard has an account of the standing asked for there. -/
theorem draw_ensures [Arithmetic] {settings : Settings} (hs : settings.Sound) {m : Market}
    (hl : ∀ token ∈ settings.tokens, ∀ l, m.listing token = .ok l →
      0 < l.quote.price ∧ (l.schedule .vipLoan).isEmpty = false) (s : Shard) :
    Ensures (draw settings m s) (List.Forall₂ (fun place =>
      Account.Drawn m settings.topPolicy settings.tokens (s.number place)
        (standingAt s.invalid place)) (List.range s.total)) := by
  refine Ensures.bind (Ensures.lift _) ?_
  intro listings hr
  rw [List.range_eq_range']
  refine drawFrom_ensures (fun place hp => ?_) (Nat.zero_add _).le
  refine Account.draw_ensures hs hr (fun l hmem => ?_) (s.number_lt hp) _
  obtain ⟨ht, hlisted⟩ := Market.listing_of_resolve hr l hmem
  exact hl l.symbol ht l hlisted

/-- The standings asked for at the first places. -/
def standings (invalid total : Nat) : List Standing := (List.range total).map (standingAt invalid)

theorem standings_succ (invalid total : Nat) :
    standings invalid (total + 1) = standings invalid total ++ [standingAt invalid total] := by
  rw [standings, List.range_succ, List.map_append]
  rfl

/-- How many of the first places ask for a standing. -/
def quota (invalid total : Nat) : Standing → Nat
  | .valid => total - invalid
  | .overpledged => (min total invalid + 1) / 2
  | .overdrawn => min total invalid / 2

theorem quota_succ (invalid total : Nat) (standing : Standing) :
    quota invalid (total + 1) standing =
      quota invalid total standing + if standingAt invalid total = standing then 1 else 0 := by
  unfold standingAt
  by_cases hv : invalid ≤ total
  · rw [if_pos hv]
    cases standing <;> simp only [quota, reduceCtorEq, if_true, if_false] <;> omega
  · rw [if_neg hv]
    by_cases he : total % 2 = 0
    · rw [if_pos he]
      cases standing <;> simp only [quota, reduceCtorEq, if_true, if_false] <;> omega
    · rw [if_neg he]
      cases standing <;> simp only [quota, reduceCtorEq, if_true, if_false] <;> omega

theorem count_standings (invalid total : Nat) (standing : Standing) :
    (standings invalid total).count standing = quota invalid total standing := by
  induction total with
  | zero => cases standing <;> simp [standings, quota]
  | succ total ih =>
    rw [standings_succ, List.count_append, ih, quota_succ, List.count_singleton]
    simp only [beq_iff_eq]

end Solvency.Shard
