import Solvency.Proofs.Shard.Complete
import Solvency.Proofs.Verdict.FaceSolvency

/-! # Shards under other numbers

The number of an account is written on it and has no part in what is drawn. Two shards with equally
many invalid accounts that are drawn from the same words therefore hold the same accounts under
other numbers, as far as the smaller one goes.
-/
namespace Solvency

/-- Accounts that differ at most in their number. -/
structure Account.SameContent (a b : Account) : Prop where
  standing_eq : a.standing = b.standing
  holdings_eq : a.holdings = b.holdings

namespace Shard
open Account

variable {m : Market} {s s' : Shard} (settings : Settings) (listings : List Listing)

theorem drawAt_parallel [Arithmetic] (hi : s.invalid = s'.invalid) (place : Nat) :
    Parallel SameContent (drawAt settings listings s place) (drawAt settings listings s' place) := by
  unfold drawAt
  rw [hi]
  refine (Parallel.refl _).bind fun ps qs hps => ?_
  exact Parallel.pure ⟨rfl, by rw [hps]⟩

theorem drawFrom_parallel [Arithmetic] (hi : s.invalid = s'.invalid) (place count : Nat) :
    Parallel (List.Forall₂ SameContent) (drawFrom settings listings s place count)
      (drawFrom settings listings s' place count) := by
  induction count generalizing place with
  | zero => exact Parallel.pure .nil
  | succ count ih =>
    refine (drawAt_parallel settings listings hi place).bind fun a b hab => ?_
    exact (ih (place + 1)).bind fun as bs h => Parallel.pure (.cons hab h)

/-- The accounts at the first places are drawn before those behind them. -/
theorem drawFrom_add [Arithmetic] (s : Shard) (place count more : Nat) :
    drawFrom settings listings s place (count + more) = do
      let accounts ← drawFrom settings listings s place count
      let others ← drawFrom settings listings s (place + count) more
      return accounts ++ others := by
  induction count generalizing place with
  | zero => simp [drawFrom]
  | succ count ih =>
    rw [Nat.succ_add, drawFrom, drawFrom, ih]
    simp [Nat.add_assoc, Nat.add_comm 1]

variable {settings listings} {d : Draws} {place count : Nat}

theorem drawFrom_eq_error [Arithmetic] (hi : s.invalid = s'.invalid) (more : Nat) {fault : Fault}
    (h : ((drawFrom settings listings s place count).run d).1 = .error fault) :
    ((drawFrom settings listings s' place (count + more)).run d).1 = .error fault := by
  have hm := (drawFrom_parallel settings listings hi place count d).1
  rw [h] at hm
  rw [drawFrom_add, run_bind_of_error hm.of_error]

theorem drawFrom_eq_ok [Arithmetic] (hi : s.invalid = s'.invalid) (more : Nat)
    {accounts accounts' : List Account}
    (h : ((drawFrom settings listings s place count).run d).1 = .ok accounts)
    (h' : ((drawFrom settings listings s' place (count + more)).run d).1 = .ok accounts') :
    ∃ same others, accounts' = same ++ others ∧ List.Forall₂ SameContent accounts same := by
  have hm := (drawFrom_parallel settings listings hi place count d).1
  rw [h] at hm
  obtain ⟨same, hsame, hcontent⟩ := hm.of_ok
  rw [drawFrom_add, run_bind_of_ok hsame] at h'
  -- what is drawn beyond these accounts is added behind them, whatever it is
  have hjoined : Ensures (drawFrom settings listings s' (place + count) more >>= fun others =>
      pure (same ++ others)) fun joined => ∃ others, joined = same ++ others :=
    Ensures.bind (p := fun _ => True) (fun _ _ _ => trivial) fun others _ =>
      Ensures.pure ⟨others, rfl⟩
  obtain ⟨others, hothers⟩ := hjoined _ _ h'
  exact ⟨same, others, hothers, hcontent⟩

/-- Every account of the first shard stands in the second one, at the same place and under the
number that the place has there. -/
structure Renumbers (s s' : Shard) (accounts accounts' : List Account) : Prop where
  length_eq : accounts.length = s.total
  length_eq' : accounts'.length = s'.total
  same : ∀ place a, accounts[place]? = some a → ∃ a', accounts'[place]? = some a' ∧
    a.SameContent a' ∧ a.index = s.id * s.total + place ∧ a'.index = s'.id * s'.total + place

theorem renumbers_of_sameContent {tokens : List String} {accounts same others : List Account}
    (ha : s.Holds m tokens accounts) (ha' : s'.Holds m tokens (same ++ others))
    (h : List.Forall₂ SameContent accounts same) : Renumbers s s' accounts (same ++ others) where
  length_eq := ha.length_eq
  length_eq' := ha'.length_eq
  same place a hp := by
    obtain ⟨hlt, rfl⟩ := List.getElem?_eq_some_iff.mp hp
    have hlt' : place < same.length := h.length_eq ▸ hlt
    have hp' : (same ++ others)[place]? = some same[place] := by
      rw [List.getElem?_append_left hlt', List.getElem?_eq_getElem hlt']
    exact ⟨same[place], hp', h.get hlt hlt', (ha.placed place _ hp).index_eq,
      (ha'.placed place _ hp').index_eq⟩

/-- Whatever is drawn for a shard can be drawn for a smaller one with as many invalid accounts, and
its accounts are then the first of the larger one but for their numbers. A fault of the smaller one
is one of the larger. -/
theorem draw_renumbered [Arithmetic] (settings : Settings) (m : Market)
    (hi : s.invalid = s'.invalid) (ht : s.total ≤ s'.total) (d : Draws) :
    (∀ accounts', ((draw settings m s').run d).1 = .ok accounts' →
      ∃ accounts, ((draw settings m s).run d).1 = .ok accounts ∧ Renumbers s s' accounts accounts') ∧
    ∀ fault, ((draw settings m s).run d).1 = .error fault →
      ((draw settings m s').run d).1 = .error fault := by
  cases hr : m.resolve settings.tokens with
  | error fault =>
    rw [run_draw_of_error hr, run_draw_of_error hr]
    refine ⟨fun _ h => ?_, fun _ h => h⟩
    cases h
  | ok listings =>
    rw [run_draw_of_resolve hr, run_draw_of_resolve hr]
    obtain ⟨more, htotal⟩ := Nat.exists_eq_add_of_le ht
    have hfault {fault : Fault}
        (h : ((drawFrom settings listings s 0 s.total).run d).1 = .error fault) :
        ((drawFrom settings listings s' 0 s'.total).run d).1 = .error fault :=
      htotal ▸ drawFrom_eq_error hi more h
    refine ⟨fun accounts' h' => ?_, fun _ h => hfault h⟩
    cases h : ((drawFrom settings listings s 0 s.total).run d).1 with
    | error fault =>
      rw [hfault h] at h'
      cases h'
    | ok accounts =>
      have ha := holds_of_placed (drawFrom_placed hr s d accounts h)
      have ha' := holds_of_placed (drawFrom_placed hr s' d accounts' h')
      rw [htotal] at h'
      obtain ⟨same, others, rfl, hsame⟩ := drawFrom_eq_ok hi more h h'
      exact ⟨accounts, rfl, renumbers_of_sameContent ha ha' hsame⟩

def repeatedTokens : Settings := { tokens := ["shib", "btc", "shib"] }

/-- An overpledged account, an overdrawn one and a valid one. -/
def smallShard : Shard := ⟨7, 3, 2, by decide, by decide⟩

def largeShard : Shard := ⟨2, 5, 2, by decide, by decide⟩

def fewWords : Draws := Draws.ofWords #[18446744073709551615, 0, 12345678901234567890, 77]

theorem smallShard_renumbered :
    smallShard.invalid = largeShard.invalid ∧ smallShard.total ≤ largeShard.total ∧
      ∃ accounts accounts',
        ((draw repeatedTokens Market.pairMarket smallShard).run fewWords).1 = .ok accounts ∧
        ((draw repeatedTokens Market.pairMarket largeShard).run fewWords).1 = .ok accounts' ∧
        Renumbers smallShard largeShard accounts accounts' := by
  have hok : ((draw repeatedTokens Market.pairMarket largeShard).run fewWords).1.isOk = true := by
    decide +kernel
  cases h' : ((draw repeatedTokens Market.pairMarket largeShard).run fewWords).1 with
  | error fault =>
    rw [h'] at hok
    cases hok
  | ok accounts' =>
    have hi : smallShard.invalid = largeShard.invalid := rfl
    have ht : smallShard.total ≤ largeShard.total := by decide
    obtain ⟨accounts, h, hrenumbers⟩ :=
      (draw_renumbered repeatedTokens Market.pairMarket hi ht fewWords).1 accounts' h'
    exact ⟨hi, ht, accounts, accounts', h, rfl, hrenumbers⟩

end Shard
end Solvency
