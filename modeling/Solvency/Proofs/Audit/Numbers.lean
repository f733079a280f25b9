import Solvency.Proofs.Audit.Appended
import Solvency.Proofs.Shard.Numbers
import Solvency.Proofs.Shard.Renumbered

/-! # Auditing numbers and ids

The number and the id of an account are read without regard to its tokens. A written sheet can only
be refused for a token, because it is not listed or an amount of it is not understood; no number and
no id is refused, and a report gives them all as they were written.
-/
namespace Solvency

/-- The token is not listed, or an amount of it is not understood. -/
inductive Fault.OfToken (m : Market) : Fault → Prop
  | unlisted {token : String} (hn : m.find? token = none) : OfToken m (.unlistedToken token)
  | amount {l : Listing} (hl : l ∈ m.listings) (row : Nat) (text : String) :
    OfToken m (.amount row l.symbol text)

namespace Market
variable {m : Market} {tokens : List String} {fault : Fault}

theorem ofToken_of_resolve (h : m.resolve tokens = .error fault) : fault.OfToken m := by
  obtain ⟨token, _, h⟩ := exists_of_mapM_eq_error h
  obtain ⟨hn, rfl⟩ := listing_eq_error h
  exact .unlisted hn

theorem ofToken_of_judge [Arithmetic] {policy : TopPolicy} {holdings : List Holding}
    (h : m.judge policy holdings = .error fault) : fault.OfToken m := by
  obtain ⟨x, _, hn, rfl⟩ := judge_eq_error h
  exact .unlisted hn

end Market

namespace Audit
open Layout Market

variable {m : Market} {policy : TopPolicy} {listings : List Listing} {tokens : List String}
  {a : Account} {accounts : List Account} {fault : Fault} {row : Nat}

theorem ofToken_of_readHolding {l : Listing} (hl : l ∈ m.listings) {g : TokenCells String}
    (h : readHolding row l g = .error fault) : fault.OfToken m := by
  have hunits {text : String}
      (h : (Amount.units? text l.quote.scaling.precision).elim
        (.error (.amount row l.symbol text)) .ok = (.error fault : Except Fault Nat)) :
      fault.OfToken m := (elim_eq_error h).2 ▸ .amount hl row text
  unfold readHolding at h
  rcases bind_eq_error.mp h with h | ⟨_, _, h⟩
  · exact hunits h
  rcases bind_eq_error.mp h with h | ⟨_, _, h⟩
  · exact hunits h
  rcases bind_eq_error.mp h with h | ⟨_, _, h⟩
  · exact hunits h
  rcases bind_eq_error.mp h with h | ⟨_, _, h⟩
  · exact hunits h
  rcases bind_eq_error.mp h with h | ⟨_, _, h⟩
  · exact hunits h
  · cases h

theorem readRecord_cells [Arithmetic] (h : a.holdings.length = tokens.length) :
    readRecord m policy (header tokens).length listings ((cells a).map Sheet.encode) row =
      readFinding m policy listings row (cells a) := by
  rw [readRecord, cellsOfWidth_cells h, ok_bind]

theorem ofToken_of_readRecord [Arithmetic] (hl : ∀ l ∈ listings, l ∈ m.listings)
    (hi : a.index < wordLimit) (h : a.holdings.length = tokens.length)
    (hr : readRecord m policy (header tokens).length listings ((cells a).map Sheet.encode) row =
      .error fault) : fault.OfToken m := by
  rw [readRecord_cells h, readFinding_written hi] at hr
  rcases bind_eq_error.mp hr with hr | ⟨holdings, _, hr⟩
  · obtain ⟨⟨l, g⟩, he, hr⟩ := exists_of_mapM_eq_error hr
    exact ofToken_of_readHolding (hl l (List.of_mem_zip he).1) hr
  · rcases bind_eq_error.mp hr with hr | ⟨verdict, _, hr⟩
    · exact ofToken_of_judge hr
    · cases hr

theorem numbered_of_readRecord [Arithmetic] (hi : a.index < wordLimit)
    (h : a.holdings.length = tokens.length) {f : Finding}
    (hr : readRecord m policy (header tokens).length listings ((cells a).map Sheet.encode) row =
      .ok f) : a.index = f.number ∧ a.id = f.id := by
  rw [readRecord_cells h, readFinding_written hi] at hr
  obtain ⟨_, _, hr⟩ := bind_eq_ok.mp hr
  obtain ⟨_, _, hr⟩ := bind_eq_ok.mp hr
  obtain rfl := pure_eq_ok.mp hr
  exact ⟨rfl, rfl⟩

/-- The audit of written accounts either gives back their numbers and ids or is refused for a
token. -/
theorem numbered_of_ofSheet [Arithmetic] (m : Market) (policy : TopPolicy) {bytes : Sheet.Bytes}
    (hi : ∀ a ∈ accounts, a.index < wordLimit)
    (hlen : ∀ a ∈ accounts, a.holdings.length = tokens.length)
    (hb : Sheet.records bytes = (header tokens :: accounts.map cells).map (List.map Sheet.encode)) :
    (∀ report, ofSheet m policy bytes = .ok report →
      report.findings.map Finding.number = accounts.map Account.index ∧
      report.findings.map Finding.id = accounts.map Account.id) ∧
    ∀ fault, ofSheet m policy bytes = .error fault → fault.OfToken m := by
  rw [ofSheet_eq hb, Sheet.cells_map_encode, ok_bind, ofRecords_eq, headerListings_header]
  constructor
  · intro report hr
    obtain ⟨listings, _, hr⟩ := bind_eq_ok.mp hr
    obtain ⟨findings, hf, hr⟩ := bind_eq_ok.mp hr
    obtain rfl := pure_eq_ok.mp hr
    have halone := alone_of_readRecords 0 hf
    rw [List.map_map, List.forall₂_map_left_iff] at halone
    have hnumbered : List.Forall₂ (fun a f => a.index = f.number ∧ a.id = f.id) accounts findings :=
      ((List.forall₂_and_left _ _).mpr ⟨fun a ha => And.intro (hi a ha) (hlen a ha), halone⟩).imp
        fun _ _ h => numbered_of_readRecord h.1.1 h.1.2 h.2
    exact ⟨(map_eq_of_forall₂ (fun _ _ h => h.1) hnumbered).symm,
      (map_eq_of_forall₂ (fun _ _ h => h.2) hnumbered).symm⟩
  · intro fault hr
    rcases bind_eq_error.mp hr with hr | ⟨listings, hl, hr⟩
    · exact ofToken_of_resolve hr
    rcases bind_eq_error.mp hr with hr | ⟨findings, _, hr⟩
    · obtain ⟨⟨record, row⟩, hmem, hr⟩ := exists_of_mapM_eq_error hr
      have hrecord : record ∈ (accounts.map cells).map (List.map Sheet.encode) :=
        List.fst_mem_of_mem_zipIdx hmem
      obtain ⟨_, hc, rfl⟩ := List.mem_map.mp hrecord
      obtain ⟨a, ha, rfl⟩ := List.mem_map.mp hc
      refine ofToken_of_readRecord (fun l hmem => ?_) (hi a ha) (hlen a ha) hr
      exact List.mem_of_find?_eq_some (listing_eq_ok.mp (listing_of_resolve hl l hmem).2)
    · cases hr

/-- An id by which an account is found again: a text of sixty-four digits that are worth the number,
which the auditor takes as it stands. -/
structure Identifies (n : Nat) (id : String) : Prop where
  length_eq : id.toList.length = 64
  lower : ∀ c ∈ id.toList, Text.isLowerHexDigit c = true
  value_eq : Text.ofHexDigits id.toList = n
  read : ∀ row, readId row id = .ok id

theorem identifies_idText {n : Nat} (h : n < wordLimit) : Identifies n (idText n) where
  length_eq := length_idText h
  lower _ := isLowerHexDigit_of_mem_idText
  value_eq := ofHexDigits_idText n
  read := readId_idText h

end Audit

namespace Shard
open Audit

/-- The accounts of a drawn shard, as those who write and audit them rely on them. -/
theorem writable_of_draw [Arithmetic] {settings : Settings} {m : Market} {s : Shard} {d : Draws}
    {accounts : List Account} (hd : ((draw settings m s).run d).1 = .ok accounts) :
    ∀ a ∈ accounts, a.index < wordLimit ∧ a.holdings.length = settings.tokens.length := by
  obtain ⟨listings, hr⟩ := draw_resolves settings m s d accounts hd
  rw [run_draw_of_resolve hr] at hd
  intro a ha
  obtain ⟨place, hp, hplaced⟩ := exists_of_forall₂ (drawFrom_placed hr s d accounts hd) ha
  constructor
  · rw [hplaced.index_eq]
    exact s.number_lt (List.mem_range.mp hp)
  · rw [← hplaced.symbols, List.length_map]

/-- The sheet of a drawn shard can be written, and whoever audits it finds the numbers and ids of
the shard's places or refuses it for a token. -/
def Recorded [Arithmetic] (settings : Settings) (s : Shard) (accounts : List Account) : Prop :=
  ∃ text, Layout.write settings.tokens accounts = .ok text ∧ ∀ m policy,
    (∀ report, ofSheet m policy (Sheet.encode text) = .ok report →
      report.findings.map Finding.number = s.numbers ∧
      report.findings.map Finding.id = s.numbers.map idText) ∧
    ∀ fault, ofSheet m policy (Sheet.encode text) = .error fault → fault.OfToken m

theorem recorded_of_draw [Arithmetic] {settings : Settings} {m : Market} {s : Shard} {d : Draws}
    {accounts : List Account} (hd : ((draw settings m s).run d).1 = .ok accounts) :
    Recorded settings s accounts := by
  have hw := writable_of_draw hd
  obtain ⟨text, htext, hrecords⟩ := Layout.records_write fun a ha => (hw a ha).2
  refine ⟨text, htext, fun m policy => ?_⟩
  obtain ⟨hok, herror⟩ := numbered_of_ofSheet m policy (fun a ha => (hw a ha).1)
    (fun a ha => (hw a ha).2) hrecords
  have hindex : accounts.map Account.index = s.numbers := index_of_drawnFor ⟨settings, _, d, hd⟩
  have hid : accounts.map Account.id = s.numbers.map idText := by
    rw [← hindex, List.map_map]
    rfl
  rw [hindex, hid] at hok
  exact ⟨hok, herror⟩

/-- Shards of one size never overlap, and no id is given twice: each has the block of words behind
those of the shards before it, each id is worth the number it is made from, and both are found again
in whatever sheet they stand. -/
theorem numbers_unique [Arithmetic] (total : Nat) :
    (∀ id s, Accepted id total s →
      (∀ place < total, s.number place < wordLimit) ∧
      s.numbers = List.range' (id * total) total ∧ ∀ n ∈ s.numbers, Identifies n (idText n)) ∧
    (∀ id id' s s', Accepted id total s → Accepted id' total s' →
      ∀ place < total, ∀ place' < total, s.number place = s'.number place' →
        id = id' ∧ place = place') ∧
    (∀ k shards, List.Forall₂ (Accepted · total) (List.range (k + 1)) shards →
      shards.flatMap numbers = List.range ((k + 1) * total)) ∧
    (∀ ids shards files, ids.Nodup → List.Forall₂ (Accepted · total) ids shards →
      List.Forall₂ DrawnFor shards files →
      (files.flatten.map Account.index).Nodup ∧ (files.flatten.map Account.id).Nodup) ∧
    ∀ id s, Accepted id total s → ∀ settings m d accounts,
      ((draw settings m s).run d).1 = .ok accounts → Recorded settings s accounts := by
  refine ⟨?_, ?_, ?_, ?_, ?_⟩
  · intro id s hs
    obtain rfl := hs.id_eq
    obtain rfl := hs.total_eq
    exact ⟨fun _ => s.number_lt, s.numbers_eq, fun n hn => identifies_idText (lt_of_mem_numbers hn)⟩
  · intro id id' s s' hs hs' place hp place' hp' h
    obtain rfl := hs.id_eq
    obtain rfl := hs'.id_eq
    exact number_injective (hs.total_eq.trans hs'.total_eq.symm) (hs.total_eq ▸ hp)
      (hs'.total_eq ▸ hp') h
  · intro k shards hs
    exact flatMap_numbers hs
  · intro ids shards files hids hs hf
    exact nodup_files hids hs hf
  · intro id s _ settings m d accounts hd
    exact recorded_of_draw hd

def firstShard : Shard := ⟨0, 3, 1, by decide, by decide⟩

/-- The last shard of three accounts whose numbers are words. -/
def lastShard : Shard := ⟨6148914691236517204, 3, 1, by decide, by decide⟩

theorem lastShard_unique :
    Accepted 0 3 firstShard ∧ Accepted 6148914691236517204 3 lastShard ∧
    (∀ n ∈ lastShard.numbers, Identifies n (idText n)) ∧
    [firstShard].flatMap numbers = List.range 3 ∧
    (∀ place < 3, ∀ place' < 3, firstShard.number place = lastShard.number place' →
      0 = 6148914691236517204 ∧ place = place') ∧
    ∃ first last,
      ((draw repeatedTokens Market.pairMarket firstShard).run fewWords).1 = .ok first ∧
      ((draw repeatedTokens Market.pairMarket lastShard).run fewWords).1 = .ok last ∧
      ([first, last].flatten.map Account.index).Nodup ∧
      ([first, last].flatten.map Account.id).Nodup ∧
      Recorded repeatedTokens lastShard last := by
  have hfirst : Accepted 0 3 firstShard := ⟨1, rfl⟩
  have hlast : Accepted 6148914691236517204 3 lastShard := ⟨1, rfl⟩
  obtain ⟨hblock, hinjective, hrange, hfiles, hrecorded⟩ := numbers_unique 3
  have hok : ((draw repeatedTokens Market.pairMarket firstShard).run fewWords).1.isOk &&
      ((draw repeatedTokens Market.pairMarket lastShard).run fewWords).1.isOk = true := by
    decide +kernel
  obtain ⟨hokf, hokl⟩ := (Bool.and_eq_true _ _).mp hok
  cases hf : ((draw repeatedTokens Market.pairMarket firstShard).run fewWords).1 with
  | error fault =>
    rw [hf] at hokf
    cases hokf
  | ok first =>
    cases hl : ((draw repeatedTokens Market.pairMarket lastShard).run fewWords).1 with
    | error fault =>
      rw [hl] at hokl
      cases hokl
    | ok last =>
      obtain ⟨hindex, hid⟩ := hfiles [0, 6148914691236517204] [firstShard, lastShard] [first, last]
        (by decide) (.cons hfirst (.cons hlast .nil))
        (.cons ⟨_, _, _, hf⟩ (.cons ⟨_, _, _, hl⟩ .nil))
      exact ⟨hfirst, hlast, (hblock _ _ hlast).2.2, hrange 0 [firstShard] (.cons hfirst .nil),
        hinjective _ _ _ _ hfirst hlast, first, last, rfl, rfl, hindex, hid,
        hrecorded _ _ hlast _ _ _ _ hl⟩

end Shard
end Solvency
