import Solvency.Proofs.Audit.RoundTrip
import Solvency.Proofs.Sheet.Rows
import Solvency.Proofs.Verdict.FaceSolvency

/-! # Auditing row by row

A row is read without regard to the others: where it stands shows in nothing but the row number of a
fault. The report on a sheet is therefore made of the reports on its parts, and a fault in the lower
part is found as many rows further down as the upper part is long.
-/
namespace Solvency

/-- A verdict is refused for its tokens alone, wherever the account stands. -/
theorem Market.mapError_judge [Arithmetic] (m : Market) (policy : TopPolicy)
    (holdings : List Holding) (rows : Nat) :
    (m.judge policy holdings).mapError (Fault.lowered rows) = m.judge policy holdings := by
  rw [judge_eq]
  cases hb : (active holdings).findSome? m.bar? with
  | none => rfl
  | some r =>
    obtain ⟨x, _, hx⟩ := List.exists_of_findSome?_eq_some hb
    rcases bar?_eq_some hx with ⟨_, rfl⟩ | ⟨_, rfl⟩ <;> rfl

namespace Report

def append (r s : Report) : Report := ⟨r.tokens, r.findings ++ s.findings⟩

theorem count_append (r s : Report) (standing : Standing) :
    (r.append s).count standing = r.count standing + s.count standing := List.countP_append

theorem count_le_length (r : Report) (standing : Standing) : r.count standing ≤ r.findings.length :=
  List.countP_le_length

theorem invalid_append (r s : Report) : (r.append s).invalid = r.invalid + s.invalid := by
  have hr := r.count_le_length .valid
  have hs := s.count_le_length .valid
  rw [invalid, count_append, append, List.length_append, invalid, invalid]
  omega

/-- Every finding is of one of the three standings. -/
theorem sum_count (r : Report) :
    r.count .valid + r.count .overpledged + r.count .overdrawn = r.findings.length := by
  obtain ⟨tokens, findings⟩ := r
  unfold count
  dsimp only
  induction findings with
  | nil => rfl
  | cons f fs ih =>
    simp only [List.countP_cons, List.length_cons]
    cases f.verdict.standing <;> simp <;> omega

end Report

namespace Audit
open Layout

theorem readNumber_add (row rows : Nat) (text : String) :
    readNumber (row + rows) text = (readNumber row text).mapError (Fault.lowered rows) := by
  rw [readNumber, readNumber, mapError_elim]
  rfl

theorem readId_add (row rows : Nat) (text : String) :
    readId (row + rows) text = (readId row text).mapError (Fault.lowered rows) := by
  unfold readId
  dsimp only
  split <;> rfl

theorem readHolding_add (row rows : Nat) (l : Listing) (g : TokenCells String) :
    readHolding (row + rows) l g = (readHolding row l g).mapError (Fault.lowered rows) := by
  simp only [readHolding, mapError_bind, mapError_elim, mapError_pure, Fault.lowered]

variable {m : Market} {policy : TopPolicy}

theorem readFinding_add [Arithmetic] (listings : List Listing) (row rows : Nat)
    (cells : List String) : readFinding m policy listings (row + rows) cells =
      (readFinding m policy listings row cells).mapError (Fault.lowered rows) := by
  unfold readFinding
  split
  · simp only [mapError_bind, mapError_mapM, Market.mapError_judge, mapError_pure, readNumber_add,
      readId_add, readHolding_add]
  · rfl

/-- What is found in one record at a row. -/
def readRecord [Arithmetic] (m : Market) (policy : TopPolicy) (width : Nat)
    (listings : List Listing) (record : Sheet.Record) (row : Nat) : Except Fault Finding := do
  let cells ← Sheet.cellsOfWidth width row record
  readFinding m policy listings row cells

theorem readRecord_add [Arithmetic] (width : Nat) (listings : List Listing) (record : Sheet.Record)
    (row rows : Nat) :
    readRecord m policy width listings record (row + rows) =
      (readRecord m policy width listings record row).mapError (Fault.lowered rows) := by
  simp only [readRecord, mapError_bind, Sheet.cellsOfWidth_add, readFinding_add]

/-- What is found in records that follow one another from a row on. -/
def readRecords [Arithmetic] (m : Market) (policy : TopPolicy) (width : Nat)
    (listings : List Listing)
    (records : List Sheet.Record) (first : Nat) : Except Fault (List Finding) :=
  (records.zipIdx first).mapM fun (record, row) => readRecord m policy width listings record row

theorem ofRecords_eq [Arithmetic] (header : List String) (records : List Sheet.Record) :
    ofRecords m policy header records = do
      let listings ← headerListings m header
      let findings ← readRecords m policy header.length listings records Sheet.firstDataRow
      return ⟨listings.map Listing.symbol, findings⟩ := rfl

variable {width : Nat} {listings : List Listing}

theorem readRecords_add [Arithmetic] (records : List Sheet.Record) (first rows : Nat) :
    readRecords m policy width listings records (first + rows) =
      (readRecords m policy width listings records first).mapError (Fault.lowered rows) := by
  unfold readRecords
  rw [mapError_mapM]
  induction records generalizing first with
  | nil => rfl
  | cons record records ih =>
    simp only [List.zipIdx_cons, List.mapM_cons, readRecord_add, Nat.add_right_comm first rows 1, ih]

theorem readRecords_append [Arithmetic] (upper lower : List Sheet.Record) (first : Nat) :
    readRecords m policy width listings (upper ++ lower) first = do
      let found ← readRecords m policy width listings upper first
      let others ← (readRecords m policy width listings lower first).mapError
        (Fault.lowered upper.length)
      return found ++ others := by
  -- the lower records are numbered on from the upper ones
  rw [← readRecords_add]
  unfold readRecords
  rw [List.zipIdx_append, List.mapM_append]

theorem ofRecords_append [Arithmetic] (header : List String) (upper lower : List Sheet.Record) :
    ofRecords m policy header (upper ++ lower) = do
      let r ← ofRecords m policy header upper
      let s ← (ofRecords m policy header lower).mapError (Fault.lowered upper.length)
      return r.append s := by
  simp only [ofRecords_eq, readRecords_append]
  cases headerListings m header with
  | error fault => rfl
  | ok listings =>
    simp only [ok_bind]
    cases readRecords m policy header.length listings upper Sheet.firstDataRow with
    | error fault => rfl
    | ok found =>
      cases readRecords m policy header.length listings lower Sheet.firstDataRow <;> rfl

/-- A record is found to be what it is found to be at the top of a sheet. -/
theorem alone_of_readRecords [Arithmetic] {records : List Sheet.Record} (rows : Nat)
    {findings : List Finding}
    (h : readRecords m policy width listings records (Sheet.firstDataRow + rows) = .ok findings) :
    List.Forall₂ (fun record f =>
      readRecord m policy width listings record Sheet.firstDataRow = .ok f) records findings := by
  rw [readRecords, mapM_eq_ok] at h
  induction records generalizing rows findings with
  | nil =>
    cases h
    exact .nil
  | cons record records ih =>
    rw [List.zipIdx_cons] at h
    cases h with
    | cons hf hrest =>
      dsimp only at hf
      rw [readRecord_add] at hf
      exact .cons (mapError_eq_ok.mp hf) (ih (rows + 1) hrest)

/-- The report has one finding for each record, in order, and none other than the record has in a
sheet of its own. -/
structure Covers [Arithmetic] (m : Market) (policy : TopPolicy) (header : Sheet.Record)
    (records : List Sheet.Record) (r : Report) : Prop where
  alone : ∃ cells, Sheet.cells Sheet.headerRow header = .ok cells ∧ List.Forall₂ (fun record f =>
    ofRecords m policy cells [record] = .ok ⟨r.tokens, [f]⟩) records r.findings
  length_eq : r.findings.length = records.length
  counts : r.count .valid + r.count .overpledged + r.count .overdrawn = records.length

theorem covers_of_ofRecords [Arithmetic] {header : Sheet.Record} {records : List Sheet.Record}
    {cells : List String} {r : Report} (hc : Sheet.cells Sheet.headerRow header = .ok cells)
    (hr : ofRecords m policy cells records = .ok r) : Covers m policy header records r := by
  rw [ofRecords_eq] at hr
  obtain ⟨listings, hl, hr⟩ := bind_eq_ok.mp hr
  obtain ⟨findings, hf, hr⟩ := bind_eq_ok.mp hr
  obtain rfl := pure_eq_ok.mp hr
  have halone := alone_of_readRecords 0 hf
  refine ⟨⟨cells, hc, halone.imp fun record f hf => ?_⟩, halone.length_eq.symm, ?_⟩
  · simp only [ofRecords_eq, hl, readRecords, List.zipIdx_singleton, List.mapM_cons, List.mapM_nil,
      hf, ok_bind]
    rfl
  · rw [Report.sum_count, halone.length_eq]

/-- The report on a sheet that holds the rows of two others, one below the other. -/
structure Joins (r s t : Report) : Prop where
  tokens_eq : t.tokens = r.tokens ∧ t.tokens = s.tokens
  findings_eq : t.findings = r.findings ++ s.findings
  invalid_eq : t.invalid = r.invalid + s.invalid
  count_eq : ∀ standing, t.count standing = r.count standing + s.count standing

theorem ofSheet_eq [Arithmetic] {bytes : Sheet.Bytes} {header : Sheet.Record}
    {records : List Sheet.Record} (h : Sheet.records bytes = header :: records) :
    ofSheet m policy bytes =
      Sheet.cells Sheet.headerRow header >>= fun cells => ofRecords m policy cells records := by
  rw [ofSheet, h]
  rfl

theorem tokens_of_ofRecords [Arithmetic] {header : List String} {records others : List Sheet.Record}
    {r s : Report} (hr : ofRecords m policy header records = .ok r)
    (hs : ofRecords m policy header others = .ok s) : r.tokens = s.tokens := by
  obtain ⟨listings, hl, hr⟩ := bind_eq_ok.mp hr
  obtain ⟨listings', hl', hs⟩ := bind_eq_ok.mp hs
  cases hl.symm.trans hl'
  obtain ⟨_, _, hr⟩ := bind_eq_ok.mp hr
  obtain ⟨_, _, hs⟩ := bind_eq_ok.mp hs
  obtain rfl := pure_eq_ok.mp hr
  obtain rfl := pure_eq_ok.mp hs
  rfl

/-- A sheet that holds the rows of two others is refused for the first fault in the upper one, else
for that in the lower one, moved down; otherwise the two reports make up its own. No report leaves
a row out. -/
theorem ofSheet_append [Arithmetic] {upper lower joined : Sheet.Bytes} {header : Sheet.Record}
    {rows more : List Sheet.Record} (hu : Sheet.records upper = header :: rows)
    (hl : Sheet.records lower = header :: more)
    (hj : Sheet.records joined = header :: (rows ++ more)) :
    (∀ fault, ofSheet m policy upper = .error fault → ofSheet m policy joined = .error fault) ∧
    (∀ r fault, ofSheet m policy upper = .ok r → ofSheet m policy lower = .error fault →
      ofSheet m policy joined = .error (fault.lowered rows.length)) ∧
    (∀ r s, ofSheet m policy upper = .ok r → ofSheet m policy lower = .ok s →
      ∃ t, ofSheet m policy joined = .ok t ∧ Joins r s t) ∧
    ∀ r, ofSheet m policy upper = .ok r → Covers m policy header rows r := by
  rw [ofSheet_eq hu, ofSheet_eq hl, ofSheet_eq hj]
  cases hc : Sheet.cells Sheet.headerRow header with
  | error fault =>
    refine ⟨fun _ h => h, fun _ _ h => ?_, fun _ _ h => ?_, fun _ h => ?_⟩ <;> cases h
  | ok cells =>
    simp only [ok_bind, ofRecords_append]
    refine ⟨?_, ?_, ?_, fun r hr => covers_of_ofRecords hc hr⟩
    · intro fault h
      rw [h]
      rfl
    · intro r fault hr h
      rw [hr, h]
      rfl
    · intro r s hr hs
      have ht := tokens_of_ofRecords hr hs
      refine ⟨r.append s, ?_, ⟨⟨rfl, ht⟩, rfl, r.invalid_append s, r.count_append s⟩⟩
      rw [hr, hs]
      rfl

/-- A sheet of accounts in a single token. -/
def sheetOf (rows : String) : Sheet.Bytes :=
  Sheet.encode ("rn,id,,,BTC,,,,total_net_balance_usdt\n" ++ rows)

/-- A valid account and an overpledged one. -/
def upperRows : String :=
  "1,0000000000000000000000000000000000000000000000000000000000000001,0.00000060,0,?,4e-7,0,0,\n" ++
  "2,0000000000000000000000000000000000000000000000000000000000000002,1,0,?,0.5,0.5,0.5,\n"

/-- An overdrawn account, a blank line, and an account that leaves its debt open. -/
def lowerRows : String :=
  "3,0000000000000000000000000000000000000000000000000000000000000003,1,1,?,1,0,0,\n\n" ++
  "4,0000000000000000000000000000000000000000000000000000000000000004,1,,?,1,0,0,\n"

theorem lowerRows_joined :
    ∃ header rows more, Sheet.records (sheetOf upperRows) = header :: rows ∧
      Sheet.records (sheetOf lowerRows) = header :: more ∧
      Sheet.records (sheetOf (upperRows ++ lowerRows)) = header :: (rows ++ more) ∧
      ∃ r, ofSheet Market.pairMarket .capped (sheetOf upperRows) = .ok r ∧
        Covers Market.pairMarket .capped header rows r ∧
        ofSheet Market.pairMarket .capped (sheetOf lowerRows) = .error (.amount 3 "btc" "") ∧
        ofSheet Market.pairMarket .capped (sheetOf (upperRows ++ lowerRows)) =
          .error (.amount 5 "btc" "") := by
  let header := (Sheet.records (sheetOf upperRows)).headD []
  let rows := (Sheet.records (sheetOf upperRows)).tail
  let more := (Sheet.records (sheetOf lowerRows)).tail
  have hu : Sheet.records (sheetOf upperRows) = header :: rows := by decide +kernel
  have hl : Sheet.records (sheetOf lowerRows) = header :: more := by decide +kernel
  have hj : Sheet.records (sheetOf (upperRows ++ lowerRows)) = header :: (rows ++ more) := by
    decide +kernel
  have htwo : rows.length = 2 := by decide +kernel
  have hok : (ofSheet Market.pairMarket .capped (sheetOf upperRows)).isOk = true := by
    decide +kernel
  have hfault : ofSheet Market.pairMarket .capped (sheetOf lowerRows) =
      .error (.amount 3 "btc" "") := by decide +kernel
  obtain ⟨_, hlowered, _, hcovers⟩ :=
    @ofSheet_append Market.pairMarket .capped _ _ _ _ _ _ _ hu hl hj
  cases hr : ofSheet Market.pairMarket .capped (sheetOf upperRows) with
  | error fault =>
    rw [hr] at hok
    cases hok
  | ok r =>
    have hfault' := hlowered r _ hr hfault
    rw [htwo] at hfault'
    exact ⟨header, rows, more, hu, hl, hj, r, rfl, hcovers r hr, hfault, hfault'⟩

end Audit
end Solvency
