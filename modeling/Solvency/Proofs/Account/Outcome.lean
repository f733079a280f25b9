import Solvency.Proofs.Account.Judged

/-! # What drawing an account comes to

Every quantity is checked to fit a word, and nothing else can fail. What is returned has one holding
for each listing, in order, whatever standing was asked for.
-/
namespace Solvency

def Fault.IsOverflow (fault : Fault) : Prop := ∃ computation, fault = .overflow computation

theorem isOverflow_of_narrow {computation : Computation} {n : Nat} (fault : Fault)
    (h : narrow computation n = .error fault) : fault.IsOverflow :=
  ⟨computation, (narrow_eq_error.mp h).2⟩

namespace Account

theorem drawEquity_failsOnly (low high : Nat) : FailsOnly Fault.IsOverflow (drawEquity low high) :=
  FailsOnly.draw _

theorem drawOverpledged_failsOnly (settings : Settings) (l : Listing) :
    FailsOnly Fault.IsOverflow (drawOverpledged settings l) := by
  refine (FailsOnly.lift isOverflow_of_narrow).bind fun ceiling => ?_
  exact (drawEquity_failsOnly 1 ceiling).bind fun _ => FailsOnly.pure _

theorem isOverflow_of_debtBeyond [Arithmetic] {l : Listing} {policy : TopPolicy} {pledge : Pledge}
    {overshoot : Nat} (fault : Fault) (h : l.debtBeyond policy pledge overshoot = .error fault) :
    fault.IsOverflow := by
  unfold Listing.debtBeyond at h
  dsimp only at h
  split at h
  · exact isOverflow_of_narrow fault h
  · cases h
    exact ⟨.overshoot, rfl⟩

theorem drawOverdrawn_failsOnly [Arithmetic] (settings : Settings) (l : Listing) :
    FailsOnly Fault.IsOverflow (drawOverdrawn settings l) := by
  unfold drawOverdrawn
  cases (l.schedule .vipLoan).top? with
  | none =>
    refine (FailsOnly.lift isOverflow_of_narrow).bind fun ceiling => ?_
    exact (drawEquity_failsOnly 0 ceiling).bind fun _ => FailsOnly.pure _
  | some top =>
    refine (FailsOnly.lift isOverflow_of_narrow).bind fun most => ?_
    refine (drawEquity_failsOnly 0 most).bind fun equity => ?_
    refine (FailsOnly.lift isOverflow_of_debtBeyond).bind fun debt => ?_
    exact (FailsOnly.lift isOverflow_of_narrow).bind fun _ => FailsOnly.pure _

theorem drawSolvent_failsOnly (settings : Settings) (l : Listing) :
    FailsOnly Fault.IsOverflow (drawSolvent settings l) := by
  refine (FailsOnly.lift isOverflow_of_narrow).bind fun ceiling => ?_
  exact (drawEquity_failsOnly 0 ceiling).bind fun _ => FailsOnly.pure _

theorem isOverflow_of_indebt {settings : Settings} {value : Nat} {entry : Listing × Position}
    (fault : Fault) (h : indebt settings value entry = .error fault) : fault.IsOverflow := by
  rcases bind_eq_error.mp h with h | ⟨debt, _, h⟩
  · exact isOverflow_of_narrow fault h
  · rcases bind_eq_error.mp h with h | ⟨shrunk, _, h⟩
    · exact isOverflow_of_narrow fault h
    · cases h

section
variable [Arithmetic]

theorem isOverflow_of_indebtAll {settings : Settings} {entries : List (Listing × Position)}
    (fault : Fault) (h : indebtAll settings entries = .error fault) : fault.IsOverflow := by
  obtain ⟨entry, _, h⟩ := exists_of_mapM_eq_error h
  exact isOverflow_of_indebt fault h

theorem drawPositions_failsOnly (settings : Settings) (listings : List Listing)
    (standing : Standing) :
    FailsOnly Fault.IsOverflow (drawPositions settings listings standing) := by
  cases standing with
  | overpledged => exact FailsOnly.mapM (drawOverpledged_failsOnly settings) listings
  | overdrawn => exact FailsOnly.mapM (drawOverdrawn_failsOnly settings) listings
  | valid =>
    refine (FailsOnly.mapM (drawSolvent_failsOnly settings) listings).bind fun positions => ?_
    exact FailsOnly.lift isOverflow_of_indebtAll

theorem draw_failsOnly (settings : Settings) (listings : List Listing) (index : Nat)
    (standing : Standing) : FailsOnly Fault.IsOverflow (draw settings listings index standing) :=
  (drawPositions_failsOnly settings listings standing).bind fun _ => FailsOnly.pure _

theorem length_of_indebtAll {settings : Settings} {entries : List (Listing × Position)}
    {ps : List Position} (h : indebtAll settings entries = .ok ps) : ps.length = entries.length :=
  (mapM_eq_ok.mp h).length_eq.symm

/-- No listing is left without a position. -/
theorem drawPositions_length (settings : Settings) (listings : List Listing)
    (standing : Standing) :
    Ensures (drawPositions settings listings standing) fun ps => listings.length = ps.length := by
  have hlength {f : Listing → Drawing Position} :
      Ensures (listings.mapM f) fun ps => listings.length = ps.length :=
    (Ensures.mapM (r := fun _ _ => True) fun _ _ _ _ _ => trivial).mono fun _ h => h.length_eq
  cases standing with
  | overpledged => exact hlength
  | overdrawn => exact hlength
  | valid =>
    refine Ensures.bind hlength fun solvent hsolvent => ?_
    refine (Ensures.lift _).mono fun ps hps => ?_
    rw [length_of_indebtAll hps, length_entries hsolvent]

end

/-- The account numbered and meant as asked, with a holding for each token at the precision that the
market has for it. -/
structure Placed (m : Market) (tokens : List String) (index : Nat) (standing : Standing)
    (a : Account) : Prop where
  index_eq : a.index = index
  standing_eq : a.standing = standing
  symbols : a.holdings.map Holding.symbol = tokens
  precisions : ∀ h ∈ a.holdings, ∃ l, m.listing h.symbol = .ok l ∧
    h.precision = l.quote.scaling.precision

theorem draw_placed [Arithmetic] {settings : Settings} {m : Market} {tokens : List String}
    {listings : List Listing} (hr : m.resolve tokens = .ok listings) (index : Nat)
    (standing : Standing) :
    Ensures (draw settings listings index standing) (Placed m tokens index standing) := by
  refine Ensures.bind (drawPositions_length settings listings standing) fun ps hps => ?_
  refine Ensures.pure ⟨rfl, rfl, map_symbol_holdings hr hps, ?_⟩
  intro h hh
  obtain ⟨e, he, rfl⟩ := List.mem_map.mp hh
  exact ⟨e.1, listed_zip hr e he, rfl⟩

end Account
end Solvency
