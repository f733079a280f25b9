import Solvency.Proofs.Audit.RoundTrip
import Solvency.Proofs.Market.Loaded
import Solvency.Proofs.Shard.Drawn

/-! # Auditing a drawn shard

A shard is drawn from a loaded market, written and audited. The audit finds as many accounts as the
shard has places, each with the number and the standing of its place, so that the invalid accounts
are counted as they were asked for. Of what the overdrawn accounts owe nothing may be lost.
-/
namespace Solvency

theorem Report.count_eq (r : Report) (standing : Standing) :
    r.count standing = (r.findings.map (·.verdict.standing)).count standing := by
  rw [List.count, List.countP_map]
  rfl

namespace Market

variable {loading : Settings} {bytes : Sheet.Bytes} {m : Market}

theorem renders_of_ofSheet (h : ofSheet loading bytes = .ok m)
    (hc : loading.commonScaling.precision ≤ 18) (hd : loading.designatedScaling.precision ≤ 18) :
    m.Renders := by
  intro l hl
  rw [(loaded_of_ofSheet h l hl).scaling_eq, Settings.scalingOf]
  split
  · exact hd
  · exact hc

theorem names_of_resolve (h : ofSheet loading bytes = .ok m) {tokens : List String}
    {listings : List Listing} (hr : m.resolve tokens = .ok listings) : m.Names tokens := by
  intro token ht
  rw [← map_symbol_of_resolve hr] at ht
  obtain ⟨l, hl, rfl⟩ := List.mem_map.mp ht
  have hlisted := (listing_of_resolve hr l hl).2
  have hm := List.mem_of_find?_eq_some (listing_eq_ok.mp hlisted)
  exact ⟨(loaded_of_ofSheet h l hm).symbol_fixed, l, hlisted⟩

end Market

namespace Shard

/-- What is found in a row when the account at a place is audited. -/
structure Expects (s : Shard) (place : Nat) (f : Finding) : Prop where
  number_eq : f.number = s.number place
  id_eq : f.id = idText (s.number place)
  standing_eq : f.verdict.standing = standingAt s.invalid place

theorem expects_of_drawn [Arithmetic] {s : Shard} {m : Market} {policy : TopPolicy}
    {tokens : List String} {place : Nat} {a : Account} {f : Finding}
    (ha : a.Drawn m policy tokens (s.number place) (standingAt s.invalid place))
    (hw : a.standing = .overdrawn → Whole (m.debtAtFace a.holdings))
    (hf : f.Reports m policy a) : s.Expects place f := by
  obtain ⟨v, hv, hstanding⟩ := ha.judged fun h => hw (ha.standing_eq.trans h)
  have he : v = f.verdict := by
    have h := hv.symm.trans hf.judged
    cases h
    rfl
  subst he
  refine ⟨hf.number_eq.trans ha.index_eq, ?_, hstanding⟩
  rw [hf.id_eq, Account.id, ha.index_eq]

theorem standings_of_expects {s : Shard} {findings : List Finding}
    (h : List.Forall₂ s.Expects (List.range s.total) findings) :
    findings.map (·.verdict.standing) = standings s.invalid s.total :=
  (map_eq_of_forall₂ (fun _ _ hf => hf.standing_eq.symm) h).symm

theorem expects_getElem? {s : Shard} {findings : List Finding}
    (h : List.Forall₂ s.Expects (List.range s.total) findings) {place : Nat} {f : Finding}
    (hf : findings[place]? = some f) : s.Expects place f := of_forall₂_range h hf

def drawnSettings : Settings := { tokens := ["shib", "btc"] }

def drawnSheet : Sheet.Bytes := Sheet.encode
  "token,price,vl,margin,pm\nBTC,2.5,\"[0-5:90, 5-9:50]\",[0-3:70],\nshib,8.45e-6,[0-4:80],,[]\n"

/-- Two overpledged accounts with an overdrawn one between them, then a valid one. -/
def drawnShard : Shard := ⟨7, 4, 3, by decide, by decide⟩

/-- The smallest and the largest word, two others, and nothing but zero after them. -/
def drawnWords : Draws := Draws.ofWords #[0, 18446744073709551615, 12345678901234567890, 77]

end Shard
end Solvency
