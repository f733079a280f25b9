import Solvency.Proofs.Verdict.Rearranged
import Solvency.Proofs.Verdict.Standing

/-! # The rules of a verdict

An account is ruled on by the first of its active holdings that is overpledged and the first whose
token is not listed: whichever comes first decides, the overpledged one if they are the same. Only
when there is neither do the two totals count: the debts at the prices of their tokens, and the
capacities of the pledges. The scan that judges an account stops where these rules say and nowhere
else, and idle holdings have no part in it.
-/
namespace Solvency

/-- More is pledged than owned. -/
def Holding.exceeds (h : Holding) : Bool := decide (h.position.equity < h.position.pledge.total)

namespace Market
variable {m : Market} {h : Holding}

def lacks (m : Market) (h : Holding) : Bool := (m.find? h.symbol).isNone

/-- What is ruled without the totals. -/
def preliminary? (m : Market) (rows : List Holding) : Option (Except Fault Verdict) :=
  match rows.find? Holding.exceeds, rows.find? m.lacks with
  | none, none => none
  | some h, none => some (.ok (.overpledged h.symbol))
  | none, some k => some (.error (.unlistedToken k.symbol))
  | some h, some k =>
    if rows.findIdx Holding.exceeds ≤ rows.findIdx m.lacks then some (.ok (.overpledged h.symbol))
    else some (.error (.unlistedToken k.symbol))

/-- The rules, for holdings of which none is idle. The totals have all the room they take. -/
def ruling [Arithmetic] (m : Market) (policy : TopPolicy) (rows : List Holding) :
    Except Fault Verdict :=
  let debt := (rows.map fun h =>
    (m.find? h.symbol).elim 0 fun l => h.position.debt * l.quote.price).sum
  let capacity := (rows.map fun h =>
    (m.find? h.symbol).elim 0 fun l => l.capacity policy h.position.pledge).sum
  (m.preliminary? rows).getD (.ok (if capacity < debt then .overdrawn debt capacity else .valid))

theorem bar?_of_exceeds (he : h.exceeds = true) :
    m.bar? h = some (.ok (.overpledged h.symbol)) := if_pos (of_decide_eq_true he)

theorem bar?_of_lacks (he : h.exceeds = false) (hl : m.lacks h = true) :
    m.bar? h = some (.error (.unlistedToken h.symbol)) := by
  rw [bar?, if_neg (of_decide_eq_false he), Option.isNone_iff_eq_none.mp hl, Option.elim_none]

theorem bar?_of_admitted (he : h.exceeds = false) (hl : m.lacks h = false) : m.bar? h = none := by
  obtain ⟨l, hf⟩ := Option.isSome_iff_exists.mp (Option.isNone_eq_false_iff.mp hl)
  rw [bar?, if_neg (of_decide_eq_false he), hf, Option.elim_some]

/-- To stop at the first holding that is not admitted is to compare the places of two. -/
theorem findSome?_bar? (m : Market) (rows : List Holding) :
    rows.findSome? m.bar? = m.preliminary? rows := by
  induction rows with
  | nil => rfl
  | cons h rows ih =>
    rw [preliminary?, List.findSome?_cons, List.find?_cons, List.find?_cons, List.findIdx_cons,
      List.findIdx_cons]
    cases he : h.exceeds with
    | true =>
      -- nothing comes before the first holding, listed or not
      rw [bar?_of_exceeds he]
      cases m.lacks h with
      | true => simp
      | false => cases rows.find? m.lacks <;> simp
    | false =>
      cases hl : m.lacks h with
      | true =>
        rw [bar?_of_lacks he hl]
        cases rows.find? Holding.exceeds <;> simp
      | false =>
        rw [bar?_of_admitted he hl, ih, preliminary?]
        simp only [cond_false, Nat.add_le_add_iff_right]

section
variable [Arithmetic]

theorem judge_insert_idle (m : Market) (policy : TopPolicy) (idle : h.position.isIdle = true)
    (before after : List Holding) :
    m.judge policy (before ++ h :: after) = m.judge policy (before ++ after) := by
  simp only [judge_eq, debtAtFace, totalCredit, active_insert idle]

/-- An account is judged by the rules on its active holdings, and by nothing else: a holding without
equity and debt may stand anywhere, whatever is pledged in it and whether or not it is listed. Where
it comes to the totals nothing may be lost of them. -/
theorem judge_eq_ruling (m : Market) (policy : TopPolicy) (holdings : List Holding) :
    ((m.preliminary? (active holdings) = none →
        Whole (m.debtAtFace holdings) ∧ Whole (m.totalCredit policy holdings)) →
      m.judge policy holdings = m.ruling policy (active holdings)) ∧
    ∀ before h after, holdings = before ++ after → h.position.equity = 0 → h.position.debt = 0 →
      m.judge policy (before ++ h :: after) = m.judge policy holdings := by
  constructor
  · intro hw
    rw [judge_eq, findSome?_bar?, ruling]
    cases hp : m.preliminary? (active holdings) with
    | some r => rfl
    | none =>
      obtain ⟨hdebt, hcredit⟩ := hw hp
      rw [hdebt, hcredit]
      rfl
  · rintro before h after rfl he hd
    exact judge_insert_idle m policy (Position.isIdle_iff.mpr ⟨he, hd⟩) before after

end

/-- Two tokens that are not listed, the second one overpledged as well, before one that is both
listed and overpledged. -/
def strayHoldings : List Holding := [
  ⟨"btc", 8, ⟨60, 30, ⟨40, 10, 5⟩⟩⟩, ⟨"doge", 8, ⟨0, 2, ⟨0, 0, 0⟩⟩⟩, ⟨"pepe", 8, ⟨1, 0, ⟨1, 1, 0⟩⟩⟩,
  ⟨"shib", 2, ⟨4, 0, ⟨0, 0, 9⟩⟩⟩]

/-- An idle holding that is both. -/
def idleHolding : Holding := ⟨"luna", 8, ⟨0, 0, ⟨7, 7, 7⟩⟩⟩

/-- All four ways in which an account is ruled on: by a token that is not listed, by one that is
overpledged, and by totals of 30 and 2 units at 7 and 3 under either policy. -/
theorem strayHoldings_ruled :
    pairMarket.judge .capped strayHoldings = .error (.unlistedToken "doge") ∧
    pairMarket.judge .capped (idleHolding :: strayHoldings) = .error (.unlistedToken "doge") ∧
    pairMarket.judge .capped (strayHoldings.drop 2) = .ok (.overpledged "pepe") ∧
    pairMarket.judge .capped pairHoldings = .ok (.overdrawn (30 * 7 + 2 * 3) 190) ∧
    pairMarket.judge .extended pairHoldings = .ok .valid := by
  obtain ⟨hstray, hidle⟩ := judge_eq_ruling pairMarket .capped strayHoldings
  have hj : pairMarket.judge .capped strayHoldings = .error (.unlistedToken "doge") :=
    hstray fun h => nomatch h
  refine ⟨hj, (hidle [] idleHolding strayHoldings rfl rfl rfl).trans hj, ?_, ?_, ?_⟩
  · exact (judge_eq_ruling pairMarket .capped (strayHoldings.drop 2)).1 fun h => nomatch h
  · exact (judge_eq_ruling pairMarket .capped pairHoldings).1 fun _ => ⟨rfl, rfl⟩
  · exact (judge_eq_ruling pairMarket .extended pairHoldings).1 fun _ => ⟨rfl, rfl⟩

end Market
end Solvency
