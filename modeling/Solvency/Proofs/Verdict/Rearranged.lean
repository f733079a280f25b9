import Solvency.Proofs.Verdict.FaceSolvency

/-! # Verdicts on rearranged accounts

The scan of an account stops at its first overpledged token, so that another order may name another
token. Nothing else depends on the order, and nothing at all on idle positions: whether a token is
overpledged, and the two totals, are read off the active holdings in any order.
-/
namespace Solvency

/-- The same account in another order, with idle positions put in or left out anywhere. -/
inductive Rearranged : List Holding → List Holding → Prop
  | perm {hs gs : List Holding} : hs.Perm gs → Rearranged hs gs
  | insert {h : Holding} (idle : h.position.isIdle = true) (before after : List Holding) :
      Rearranged (before ++ after) (before ++ h :: after)
  | remove {h : Holding} (idle : h.position.isIdle = true) (before after : List Holding) :
      Rearranged (before ++ h :: after) (before ++ after)
  | trans {hs gs ks : List Holding} : Rearranged hs gs → Rearranged gs ks → Rearranged hs ks

theorem active_insert {h : Holding} (idle : h.position.isIdle = true)
    (before after : List Holding) :
    active (before ++ h :: after) = active (before ++ after) := by
  simp [active, idle]

theorem Rearranged.active_perm {hs gs : List Holding} (h : Rearranged hs gs) :
    (active hs).Perm (active gs) := by
  induction h with
  | perm hp => exact hp.filter _
  | insert idle before after => rw [active_insert idle]
  | remove idle before after => rw [active_insert idle]
  | trans _ _ ih jh => exact ih.trans jh

namespace Market
open Arithmetic
variable {m : Market} {policy : TopPolicy} {hs gs : List Holding}

theorem debtAtFace_perm (h : (active hs).Perm (active gs)) : m.debtAtFace hs = m.debtAtFace gs :=
  (h.map _).sum_eq

section
variable [Arithmetic]

theorem totalCredit_perm (h : (active hs).Perm (active gs)) :
    m.totalCredit policy hs = m.totalCredit policy gs :=
  (h.map _).sum_eq

/-- The token that is named has more pledged than there is equity. -/
theorem exists_of_judge_overpledged {token : String}
    (h : m.judge policy hs = .ok (.overpledged token)) :
    ∃ x ∈ active hs, x.symbol = token ∧ x.position.equity < x.position.pledge.total := by
  rw [judge_eq] at h
  cases hb : (active hs).findSome? m.bar? with
  | none =>
    rw [hb, Option.getD_none, Verdict.ofTotals] at h
    split at h <;> cases h
  | some r =>
    rw [hb, Option.getD_some] at h
    obtain ⟨x, hx, hbx⟩ := List.exists_of_findSome?_eq_some hb
    rcases bar?_eq_some hbx with ⟨hc, rfl⟩ | ⟨_, rfl⟩
    · cases h
      exact ⟨x, hx, rfl, hc⟩
    · cases h

/-- Both scans meet an overpledged token, though perhaps not the same one, or neither does. -/
theorem judge_perm (policy : TopPolicy) (hl : ∀ h ∈ active hs, ∃ l, m.listing h.symbol = .ok l)
    (hp : (active hs).Perm (active gs)) :
    ∃ v w, m.judge policy hs = .ok v ∧ m.judge policy gs = .ok w ∧ v.standing = w.standing ∧
      ∀ debt capacity, v = .overdrawn debt capacity ↔ w = .overdrawn debt capacity := by
  have hlg : ∀ h ∈ active gs, ∃ l, m.listing h.symbol = .ok l :=
    fun h hh => hl h (hp.mem_iff.mpr hh)
  rcases judge_of_listed policy hl with ⟨x, hx, hc, hv⟩ | ⟨ha, hv⟩
  · rcases judge_of_listed policy hlg with ⟨y, _, _, hw⟩ | ⟨hb, _⟩
    · exact ⟨_, _, hv, hw, rfl, by simp⟩
    · exact absurd (hb x (hp.mem_iff.mp hx)).covered (Nat.not_le.mpr hc)
  · have hw : m.judge policy gs =
        .ok (.ofTotals (keep (m.debtAtFace gs)) (keep (m.totalCredit policy gs))) :=
      judge_of_admits fun h hh => ha h (hp.mem_iff.mpr hh)
    rw [← debtAtFace_perm hp, ← totalCredit_perm hp] at hw
    exact ⟨_, _, hv, hw, rfl, fun _ _ => Iff.rfl⟩

/-- An account keeps its standing, and its totals if it is overdrawn, in whatever order its holdings
come and whatever idle positions stand between them. An overpledged token that is named, before or
after, is one whose pledges exceed its equity. -/
theorem judge_rearranged (policy : TopPolicy) (hl : ∀ h ∈ hs, ∃ l, m.listing h.symbol = .ok l)
    (hr : Rearranged hs gs) :
    ∃ v w, m.judge policy hs = .ok v ∧ m.judge policy gs = .ok w ∧ v.standing = w.standing ∧
      (∀ debt capacity, v = .overdrawn debt capacity ↔ w = .overdrawn debt capacity) ∧
      ∀ token, v = .overpledged token ∨ w = .overpledged token →
        ∃ h, h ∈ hs ∧ h ∈ gs ∧ h.position.isIdle = false ∧ h.symbol = token ∧
          h.position.equity < h.position.pledge.total := by
  have hp := hr.active_perm
  obtain ⟨v, w, hv, hw, hs, ht⟩ :=
    judge_perm policy (fun h hh => hl h (mem_active.mp hh).1) hp
  refine ⟨v, w, hv, hw, hs, ht, ?_⟩
  rintro token (rfl | rfl)
  · obtain ⟨h, hh, hsymbol, hc⟩ := exists_of_judge_overpledged hv
    obtain ⟨hmem, hi⟩ := mem_active.mp hh
    exact ⟨h, hmem, (mem_active.mp (hp.mem_iff.mp hh)).1, hi, hsymbol, hc⟩
  · obtain ⟨h, hh, hsymbol, hc⟩ := exists_of_judge_overpledged hw
    obtain ⟨hmem, hi⟩ := mem_active.mp hh
    exact ⟨h, (mem_active.mp (hp.mem_iff.mpr hh)).1, hmem, hi, hsymbol, hc⟩

end

/-- Two overpledged tokens behind an idle position. -/
def stretchedHoldings : List Holding := [
  ⟨"shib", 2, ⟨0, 0, ⟨3, 0, 0⟩⟩⟩, ⟨"btc", 8, ⟨5, 1, ⟨3, 2, 1⟩⟩⟩, ⟨"shib", 2, ⟨4, 0, ⟨0, 0, 9⟩⟩⟩]

/-- The same two the other way round, behind an idle position in a token that is not listed. -/
def swappedHoldings : List Holding := [
  ⟨"doge", 0, ⟨0, 0, ⟨7, 7, 7⟩⟩⟩, ⟨"shib", 2, ⟨4, 0, ⟨0, 0, 9⟩⟩⟩, ⟨"btc", 8, ⟨5, 1, ⟨3, 2, 1⟩⟩⟩]

theorem swappedHoldings_rearranged :
    (∀ h ∈ stretchedHoldings, ∃ l, pairMarket.listing h.symbol = .ok l) ∧
    Rearranged stretchedHoldings swappedHoldings ∧
    pairMarket.judge .capped stretchedHoldings = .ok (.overpledged "btc") ∧
    pairMarket.judge .capped swappedHoldings = .ok (.overpledged "shib") ∧
    ∃ v w, pairMarket.judge .capped stretchedHoldings = .ok v ∧
      pairMarket.judge .capped swappedHoldings = .ok w ∧ v.standing = w.standing ∧
      (∀ debt capacity, v = .overdrawn debt capacity ↔ w = .overdrawn debt capacity) ∧
      ∀ token, v = .overpledged token ∨ w = .overpledged token →
        ∃ h, h ∈ stretchedHoldings ∧ h ∈ swappedHoldings ∧ h.position.isIdle = false ∧
          h.symbol = token ∧ h.position.equity < h.position.pledge.total := by
  have hl : ∀ h ∈ stretchedHoldings, ∃ l, pairMarket.listing h.symbol = .ok l := by
    intro h hh
    simp only [stretchedHoldings, List.mem_cons, List.not_mem_nil, or_false] at hh
    rcases hh with rfl | rfl | rfl
    all_goals exact ⟨_, rfl⟩
  have hr : Rearranged stretchedHoldings swappedHoldings :=
    (Rearranged.remove rfl [] _).trans
      ((Rearranged.perm (List.Perm.swap _ _ [])).trans (Rearranged.insert rfl [] _))
  exact ⟨hl, hr, rfl, rfl, judge_rearranged .capped hl hr⟩

end Market
end Solvency
