import Solvency.Proofs.Account.Outcome
import Solvency.Proofs.Shard.Drawn

/-! # Shards are drawn whole

A shard is refused for the first token that is not listed, before any word is used. Once all tokens
are listed it can only fail with an overflow, and what is returned leaves out no account and no
token.
-/
namespace Solvency.Shard

theorem drawFrom_failsOnly [Arithmetic] (settings : Settings) (listings : List Listing) (s : Shard)
    (place count : Nat) :
    FailsOnly Fault.IsOverflow (drawFrom settings listings s place count) := by
  induction count generalizing place with
  | zero => exact FailsOnly.pure []
  | succ count ih =>
    refine FailsOnly.bind (Account.draw_failsOnly settings listings _ _) fun account => ?_
    exact (ih (place + 1)).bind fun accounts => FailsOnly.pure (account :: accounts)

theorem drawFrom_placed [Arithmetic] {settings : Settings} {m : Market} {listings : List Listing}
    (hr : m.resolve settings.tokens = .ok listings) (s : Shard) :
    Ensures (drawFrom settings listings s 0 s.total) (List.Forall₂ (fun place =>
      Account.Placed m settings.tokens (s.number place) (standingAt s.invalid place))
      (List.range s.total)) := by
  rw [List.range_eq_range']
  exact drawFrom_ensures (fun _ _ => Account.draw_placed hr _ _) (Nat.zero_add _).le

/-- All accounts of a shard, each at its place. -/
structure Holds (m : Market) (tokens : List String) (s : Shard) (accounts : List Account) :
    Prop where
  length_eq : accounts.length = s.total
  placed : ∀ place a, accounts[place]? = some a →
    Account.Placed m tokens (s.id * s.total + place) (standingAt s.invalid place) a
  invalid_eq : accounts.countP (·.standing != .valid) = s.invalid
  overpledged_eq : accounts.countP (·.standing == .overpledged) = (s.invalid + 1) / 2

theorem holds_of_placed {m : Market} {tokens : List String} {s : Shard} {accounts : List Account}
    (h : List.Forall₂ (fun place =>
      Account.Placed m tokens (s.number place) (standingAt s.invalid place))
      (List.range s.total) accounts) : s.Holds m tokens accounts := by
  have hlength : accounts.length = s.total := by rw [← h.length_eq, List.length_range]
  have hstandings : standings s.invalid s.total = accounts.map Account.standing :=
    map_eq_of_forall₂ (fun _ _ ha => ha.standing_eq.symm) h
  have hcount (standing : Standing) :
      accounts.countP (·.standing == standing) = quota s.invalid s.total standing := by
    rw [← count_standings, hstandings, List.count, List.countP_map]
    rfl
  have hle := s.invalid_le
  refine ⟨hlength, fun _ _ => of_forall₂_range h, ?_, ?_⟩
  · have hsplit := List.length_eq_countP_add_countP (fun a : Account => a.standing == .valid)
      (l := accounts)
    rw [hlength, hcount, quota] at hsplit
    rw [List.countP_congr fun a _ => show (a.standing != .valid) = true ↔
      decide ¬(a.standing == .valid) = true by simp]
    omega
  · rw [hcount, quota, min_eq_right hle]

theorem run_draw_of_resolve [Arithmetic] {settings : Settings} {m : Market}
    {listings : List Listing}
    (hr : m.resolve settings.tokens = .ok listings) (s : Shard) (d : Draws) :
    (draw settings m s).run d = (drawFrom settings listings s 0 s.total).run d := by
  unfold draw
  rw [hr]
  rfl

theorem run_draw_of_error [Arithmetic] {settings : Settings} {m : Market} {fault : Fault}
    (hr : m.resolve settings.tokens = .error fault) (s : Shard) (d : Draws) :
    (draw settings m s).run d = (.error fault, d) := by
  unfold draw
  rw [hr]
  rfl

/-- The first token that is not listed is reported before a word is used; when all are, drawing a
shard overflows or returns it whole. -/
theorem draw_outcome [Arithmetic] (settings : Settings) (m : Market) (s : Shard) (d : Draws) :
    match settings.tokens.find? fun token => (m.find? token).isNone with
    | some token => (draw settings m s).run d = (.error (.unlistedToken token), d)
    | none => match ((draw settings m s).run d).1 with
      | .error fault => fault.IsOverflow
      | .ok accounts => s.Holds m settings.tokens accounts := by
  cases hf : settings.tokens.find? fun token => (m.find? token).isNone with
  | some token => exact run_draw_of_error (Market.resolve_eq_error hf) s d
  | none =>
    cases hr : m.resolve settings.tokens with
    | error fault =>
      obtain ⟨token, ht, hl⟩ := exists_of_mapM_eq_error hr
      have hlisted := List.find?_eq_none.mp hf token ht
      rw [Market.listing] at hl
      cases hfind : m.find? token with
      | none => exact absurd (by rw [hfind]; rfl) hlisted
      | some l =>
        rw [hfind] at hl
        cases hl
    | ok listings =>
      dsimp only
      rw [run_draw_of_resolve hr]
      cases ho : ((drawFrom settings listings s 0 s.total).run d).1 with
      | error fault => exact drawFrom_failsOnly settings listings s 0 s.total d fault ho
      | ok accounts => exact holds_of_placed (drawFrom_placed hr s d accounts ho)

end Solvency.Shard
