import Solvency.Proofs.Checked
import Solvency.Proofs.Whole
import Solvency.Verdict

/-! # What a verdict says

A holding that is not idle is admitted when its token is listed and its pledges stay within its
equity. The first one that is not admitted settles the matter; an account of admitted holdings is
judged by what is kept of two totals, and any verdict by totals comes from such an account.
-/
namespace Solvency
open Arithmetic

/-- The holdings that are not passed over. -/
def active (holdings : List Holding) : List Holding := holdings.filter fun h => !h.position.isIdle

theorem mem_active {holdings : List Holding} {h : Holding} :
    h ∈ active holdings ↔ h ∈ holdings ∧ h.position.isIdle = false := by
  simp [active]

theorem active_cons_idle {h : Holding} (hi : h.position.isIdle = true) (hs : List Holding) :
    active (h :: hs) = active hs := List.filter_cons_of_neg (by simp [hi])

theorem active_cons {h : Holding} (hi : h.position.isIdle = false) (hs : List Holding) :
    active (h :: hs) = h :: active hs := List.filter_cons_of_pos (by simp [hi])

namespace Verdict

theorem ofTotals_eq_valid {debt capacity : Nat} :
    ofTotals debt capacity = .valid ↔ debt ≤ capacity := by
  unfold ofTotals
  split <;> simp <;> omega

theorem ofTotals_eq_overdrawn {debt capacity d c : Nat} :
    ofTotals debt capacity = .overdrawn d c ↔ capacity < debt ∧ debt = d ∧ capacity = c := by
  unfold ofTotals
  split <;> simp [*]

theorem standing_ofTotals_ne (debt capacity : Nat) :
    (ofTotals debt capacity).standing ≠ .overpledged := by
  unfold ofTotals
  split <;> simp [standing]

end Verdict

namespace Market

theorem listing_eq_ok {m : Market} {symbol : String} {l : Listing} :
    m.listing symbol = .ok l ↔ m.find? symbol = some l := elim_eq_ok

theorem listing_eq_error {m : Market} {symbol : String} {fault : Fault}
    (h : m.listing symbol = .error fault) :
    m.find? symbol = none ∧ .unlistedToken symbol = fault := elim_eq_error h

theorem symbol_of_find? {m : Market} {symbol : String} {l : Listing}
    (h : m.find? symbol = some l) : l.symbol = symbol := by
  simpa using List.find?_some h

/-- What units of a token cost, nothing if it is not listed. -/
def faceValue (m : Market) (symbol : String) (units : Nat) : Nat :=
  (m.find? symbol).elim 0 fun l => units * l.quote.price

/-- The capacity of what a holding pledges, nothing if its token is not listed. -/
def credit [Arithmetic] (m : Market) (policy : TopPolicy) (h : Holding) : Nat :=
  (m.find? h.symbol).elim 0 fun l => l.capacity policy h.position.pledge

theorem faceValue_eq {m : Market} {symbol : String} {l : Listing}
    (h : m.listing symbol = .ok l) (units : Nat) :
    m.faceValue symbol units = units * l.quote.price := by
  rw [faceValue, listing_eq_ok.mp h, Option.elim_some]

theorem credit_eq [Arithmetic] {m : Market} {policy : TopPolicy} {h : Holding} {l : Listing}
    (hl : m.listing h.symbol = .ok l) :
    m.credit policy h = l.capacity policy h.position.pledge := by
  rw [credit, listing_eq_ok.mp hl, Option.elim_some]

def debtAtFace (m : Market) (holdings : List Holding) : Nat :=
  ((active holdings).map fun h => m.faceValue h.symbol h.position.debt).sum

def equityAtFace (m : Market) (holdings : List Holding) : Nat :=
  ((active holdings).map fun h => m.faceValue h.symbol h.position.equity).sum

def totalCredit [Arithmetic] (m : Market) (policy : TopPolicy) (holdings : List Holding) : Nat :=
  ((active holdings).map (m.credit policy)).sum

structure Admits (m : Market) (h : Holding) : Prop where
  listed : ∃ l, m.listing h.symbol = .ok l
  covered : h.position.pledge.total ≤ h.position.equity

/-- What a holding that is not admitted ends the scan with. -/
def bar? (m : Market) (h : Holding) : Option (Except Fault Verdict) :=
  if h.position.equity < h.position.pledge.total then some (.ok (.overpledged h.symbol))
  else (m.find? h.symbol).elim (some (.error (.unlistedToken h.symbol))) fun _ => none

variable {m : Market} {policy : TopPolicy} {holdings : List Holding} {h : Holding} {v : Verdict}

theorem bar?_eq_none : m.bar? h = none ↔ m.Admits h := by
  unfold bar?
  constructor
  · intro hb
    split at hb
    · cases hb
    · rename_i hc
      cases hf : m.find? h.symbol with
      | none =>
        rw [hf] at hb
        cases hb
      | some l => exact ⟨⟨l, listing_eq_ok.mpr hf⟩, Nat.not_lt.mp hc⟩
  · rintro ⟨⟨l, hl⟩, hc⟩
    rw [if_neg (Nat.not_lt.mpr hc), listing_eq_ok.mp hl, Option.elim_some]

theorem bar?_eq_some {r : Except Fault Verdict} (hb : m.bar? h = some r) :
    (h.position.equity < h.position.pledge.total ∧ r = .ok (.overpledged h.symbol)) ∨
      (m.find? h.symbol = none ∧ r = .error (.unlistedToken h.symbol)) := by
  unfold bar? at hb
  split at hb
  · rename_i hc
    exact Or.inl ⟨hc, (Option.some.inj hb).symm⟩
  · cases hf : m.find? h.symbol with
    | none =>
      rw [hf] at hb
      exact Or.inr ⟨rfl, (Option.some.inj hb).symm⟩
    | some l =>
      rw [hf] at hb
      cases hb

theorem findSome?_bar?_eq_none :
    holdings.findSome? m.bar? = none ↔ ∀ x ∈ holdings, m.Admits x := by
  simp only [List.findSome?_eq_none_iff, bar?_eq_none]

variable [Arithmetic]

/-- The first active holding that is not admitted decides, whatever the policy; without one, the
totals do. It does not matter that they are kept at every step. -/
theorem judgeFrom_eq (m : Market) (policy : TopPolicy) (holdings : List Holding)
    (debt capacity : Nat) :
    m.judgeFrom policy (keep debt) (keep capacity) holdings =
      ((active holdings).findSome? m.bar?).getD
        (.ok (.ofTotals (keep (debt + m.debtAtFace holdings))
          (keep (capacity + m.totalCredit policy holdings)))) := by
  induction holdings generalizing debt capacity with
  | nil => rfl
  | cons x xs ih =>
    by_cases hi : x.position.isIdle = true
    · simp only [judgeFrom, hi, if_true, ih, debtAtFace, totalCredit, active_cons_idle hi]
    · rw [Bool.not_eq_true] at hi
      simp only [judgeFrom, hi, Bool.false_eq_true, if_false, active_cons hi, List.findSome?_cons,
        bar?]
      by_cases hc : x.position.equity < x.position.pledge.total
      · rw [if_pos hc, if_pos hc]
        rfl
      · rw [if_neg hc, if_neg hc, listing]
        cases hf : m.find? x.symbol with
        | none => rfl
        | some l =>
          simp only [Option.elim_some, ok_bind, Quote.value, keep_add_keep, keep_keep_add, ih,
            debtAtFace, totalCredit, active_cons hi, List.map_cons, List.sum_cons, faceValue,
            credit, hf, Nat.add_assoc]

theorem judge_eq (m : Market) (policy : TopPolicy) (holdings : List Holding) :
    m.judge policy holdings = ((active holdings).findSome? m.bar?).getD
      (.ok (.ofTotals (keep (m.debtAtFace holdings)) (keep (m.totalCredit policy holdings)))) := by
  have hfrom := judgeFrom_eq m policy holdings 0 0
  rw [keep_zero, Nat.zero_add, Nat.zero_add] at hfrom
  exact hfrom

theorem judge_of_admits (h : ∀ x ∈ active holdings, m.Admits x) :
    m.judge policy holdings =
      .ok (.ofTotals (keep (m.debtAtFace holdings)) (keep (m.totalCredit policy holdings))) := by
  rw [judge_eq, findSome?_bar?_eq_none.mpr h, Option.getD_none]

/-- The verdict on an account whose active tokens are listed: an overpledged one is named, or all
holdings are admitted. -/
theorem judge_of_listed (policy : TopPolicy)
    (hl : ∀ x ∈ active holdings, ∃ l, m.listing x.symbol = .ok l) :
    (∃ x ∈ active holdings, x.position.equity < x.position.pledge.total ∧
      m.judge policy holdings = .ok (.overpledged x.symbol)) ∨
    (∀ x ∈ active holdings, m.Admits x) ∧ m.judge policy holdings =
      .ok (.ofTotals (keep (m.debtAtFace holdings)) (keep (m.totalCredit policy holdings))) := by
  cases hb : (active holdings).findSome? m.bar? with
  | none =>
    have ha := findSome?_bar?_eq_none.mp hb
    exact Or.inr ⟨ha, judge_of_admits ha⟩
  | some r =>
    obtain ⟨x, hx, hbx⟩ := List.exists_of_findSome?_eq_some hb
    obtain ⟨l, hlx⟩ := hl x hx
    rcases bar?_eq_some hbx with ⟨hc, rfl⟩ | ⟨hn, _⟩
    · left
      refine ⟨x, hx, hc, ?_⟩
      rw [judge_eq, hb, Option.getD_some]
    · rw [listing_eq_ok.mp hlx] at hn
      cases hn

/-- An account that is not judged has a token that is not listed. -/
theorem judge_eq_error {fault : Fault} (h : m.judge policy holdings = .error fault) :
    ∃ x ∈ active holdings, m.find? x.symbol = none ∧ fault = .unlistedToken x.symbol := by
  rw [judge_eq] at h
  cases hb : (active holdings).findSome? m.bar? with
  | none =>
    rw [hb] at h
    cases h
  | some r =>
    obtain ⟨x, hx, hbx⟩ := List.exists_of_findSome?_eq_some hb
    rw [hb, Option.getD_some] at h
    rcases bar?_eq_some hbx with ⟨_, rfl⟩ | ⟨hn, rfl⟩
    · cases h
    · cases h
      exact ⟨x, hx, hn, rfl⟩

/-- Nothing but an unlisted token keeps an account from being judged. -/
theorem exists_judge_of_listed (policy : TopPolicy)
    (h : ∀ x ∈ holdings, ∃ l, m.listing x.symbol = .ok l) :
    ∃ v, m.judge policy holdings = .ok v := by
  rcases judge_of_listed policy fun x hx => h x (mem_active.mp hx).1 with ⟨_, _, _, hv⟩ | ⟨_, hv⟩
  · exact ⟨_, hv⟩
  · exact ⟨_, hv⟩

/-- Only an overpledged token ends the scan before the last holding is admitted. -/
theorem admits_of_judge (h : m.judge policy holdings = .ok v) (hv : v.standing ≠ .overpledged) :
    ∀ x ∈ active holdings, m.Admits x := by
  rw [judge_eq] at h
  apply findSome?_bar?_eq_none.mp
  cases hs : (active holdings).findSome? m.bar? with
  | none => rfl
  | some r =>
    rw [hs, Option.getD_some] at h
    obtain ⟨x, _, hb⟩ := List.exists_of_findSome?_eq_some hs
    rcases bar?_eq_some hb with ⟨_, rfl⟩ | ⟨_, rfl⟩
    · cases h
      exact absurd rfl hv
    · cases h

/-- A verdict that names no token is the one by the totals. -/
theorem judge_eq_ok (hv : v.standing ≠ .overpledged) :
    m.judge policy holdings = .ok v ↔ (∀ x ∈ active holdings, m.Admits x) ∧
      .ofTotals (keep (m.debtAtFace holdings)) (keep (m.totalCredit policy holdings)) = v := by
  constructor
  · intro h
    have ha := admits_of_judge h hv
    rw [judge_of_admits ha] at h
    exact ⟨ha, Except.ok.inj h⟩
  · rintro ⟨ha, rfl⟩
    exact judge_of_admits ha

theorem judge_eq_valid :
    m.judge policy holdings = .ok .valid ↔ (∀ x ∈ active holdings, m.Admits x) ∧
      keep (m.debtAtFace holdings) ≤ keep (m.totalCredit policy holdings) := by
  rw [judge_eq_ok (by decide), Verdict.ofTotals_eq_valid]

theorem judge_eq_overdrawn {d c : Nat} :
    m.judge policy holdings = .ok (.overdrawn d c) ↔ (∀ x ∈ active holdings, m.Admits x) ∧
      keep (m.totalCredit policy holdings) < keep (m.debtAtFace holdings) ∧
      keep (m.debtAtFace holdings) = d ∧ keep (m.totalCredit policy holdings) = c := by
  rw [judge_eq_ok (by simp [Verdict.standing]), Verdict.ofTotals_eq_overdrawn]

end Market
end Solvency
