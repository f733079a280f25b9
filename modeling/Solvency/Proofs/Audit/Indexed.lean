import Solvency.Proofs.Audit.Rescaled
import Solvency.Proofs.Audit.Unread

/-! # Looking inside the records

An audit that fetches each cell by the number of its column could look for one outside the record,
and would then come to no outcome at all. It never does: the check on the width of the header
leaves room for all columns of all groups, and an audit by columns ends on every sheet as the audit
by groups does, in a report or in a fault.
-/
namespace Solvency.Audit
open Layout

/-- What may be refused, or have no outcome because it looks for a cell that is not there. -/
abbrev Access := ExceptT Fault Option

variable {α β γ : Type}

/-- What looks into no record always has an outcome. -/
def settled (x : Except Fault α) : Access α := .mk (some x)

theorem settled_pure (a : α) : settled (pure a) = pure a := rfl

theorem settled_bind (x : Except Fault α) (f : α → Except Fault β) :
    settled (x >>= f) = settled x >>= fun a => settled (f a) := by
  cases x <;> rfl

theorem ok_settled_bind (a : α) (f : α → Access β) : settled (.ok a) >>= f = f a := rfl

theorem settled_mapM {xs : List α} {ys : List β} {f : α → Access γ} {g : β → Except Fault γ}
    (h : List.Forall₂ (fun x y => f x = settled (g y)) xs ys) :
    xs.mapM f = settled (ys.mapM g) := by
  induction h with
  | nil => rfl
  | cons hxy _ ih =>
    simp only [List.mapM_cons, settled_bind, settled_pure, hxy, ih]

/-- The text in one of the columns that are read. There is none outside the record. -/
def cellAt (reads : Nat → Prop) [DecidablePred reads] (cells : List String) (column : Nat) :
    Access String :=
  .mk (if reads column then cells[column]?.map .ok else none)

theorem cellAt_eq {reads : Nat → Prop} [DecidablePred reads] {cells : List String} {column : Nat}
    {text : String} (hr : reads column) (h : cells[column]? = some text) :
    cellAt reads cells column = settled (.ok text) := by
  rw [cellAt, if_pos hr, h]
  rfl

def headerListingsAt (m : Market) (header : List String) : Access (List Listing) :=
  let columns := header.length
  let heading := cellAt (HeaderReads columns) header
  if columns < leadingColumns + 1 ∨ (columns - (leadingColumns + 1)) % groupColumns ≠ 0 then
    settled (.error (.header (.columns columns)))
  else do
    let last ← heading (columns - 1)
    if last ≠ totalColumn then settled (.error (.header (.lastColumn last totalColumn)))
    else (List.range (groupCount columns)).mapM fun group => do
      let symbol ← heading (columnAt group netOffset)
      settled (m.listing (symbolOf symbol))

def readHoldingAt (row : Nat) (cells : List String) (l : Listing) (group : Nat) :
    Access Holding := do
  let precision := l.quote.scaling.precision
  let units (offset : Nat) : Access Nat := do
    let text ← cellAt (RowReads cells.length) cells (columnAt group offset)
    settled ((Amount.units? text precision).elim (.error (.amount row l.symbol text)) .ok)
  let vipLoan ← units 3
  let crossMargin ← units 4
  let portfolioMargin ← units 5
  let equity ← units 0
  let debt ← units 1
  return ⟨l.symbol, precision, ⟨equity, debt, ⟨vipLoan, crossMargin, portfolioMargin⟩⟩⟩

def readFindingAt [Arithmetic] (m : Market) (policy : TopPolicy) (listings : List Listing)
    (row : Nat) (cells : List String) : Access Finding := do
  let field := cellAt (RowReads cells.length) cells
  let number ← field 0
  let number ← settled (readNumber row number)
  let id ← field 1
  let id ← settled (readId row id)
  let holdings ← listings.zipIdx.mapM fun (l, group) => readHoldingAt row cells l group
  let verdict ← settled (m.judge policy holdings)
  return ⟨number, id, verdict⟩

def readRecordAt [Arithmetic] (m : Market) (policy : TopPolicy) (width : Nat)
    (listings : List Listing) (record : Sheet.Record) (row : Nat) : Access Finding := do
  let cells ← settled (Sheet.cellsOfWidth width row record)
  readFindingAt m policy listings row cells

def ofRecordsAt [Arithmetic] (m : Market) (policy : TopPolicy) (header : List String)
    (records : List Sheet.Record) : Access Report := do
  let listings ← headerListingsAt m header
  let findings ← (records.zipIdx Sheet.firstDataRow).mapM fun (record, row) =>
    readRecordAt m policy header.length listings record row
  return ⟨listings.map Listing.symbol, findings⟩

/-- The audit of a sheet that fetches every cell by its column. -/
def ofSheetAt [Arithmetic] (m : Market) (policy : TopPolicy) (bytes : Sheet.Bytes) :
    Access Report := do
  let records := Sheet.records bytes
  let header ← settled (Sheet.cells Sheet.headerRow (records.headD []))
  ofRecordsAt m policy header records.tail

variable {m : Market} {policy : TopPolicy} {listings : List Listing} {cells header : List String}

theorem getLast?_eq_of_grouped (hw : Grouped header.length) :
    header[header.length - 1]? = some (header.getLast?.getD "") := by
  have hne : header ≠ [] := by
    rintro rfl
    cases hw
  rw [← List.getLast?_eq_getElem?, List.getLast?_eq_some_getLast hne]
  rfl

theorem headerListingsAt_eq (m : Market) (header : List String) :
    headerListingsAt m header = settled (headerListings m header) := by
  unfold headerListingsAt headerListings
  dsimp only
  split
  · rfl
  · rename_i hcolumns
    have hw := grouped_iff.mpr hcolumns
    have hlast : HeaderReads header.length (header.length - 1) := by
      refine Or.inl ?_
      unfold leadingColumns at hcolumns
      omega
    rw [cellAt_eq hlast (getLast?_eq_of_grouped hw), ok_settled_bind]
    split
    · rfl
    · rw [Market.resolve, List.mapM_map]
      refine settled_mapM ((forall₂_standsAt hw).imp fun group g hg => ?_)
      have hnet : header[columnAt group netOffset]? = some g.net :=
        hg.column_eq netOffset (by decide)
      rw [cellAt_eq (Or.inr ⟨group, hg.counted, rfl⟩) hnet, ok_settled_bind]
      rfl

theorem readHoldingAt_eq {group : Nat} {g : TokenCells String} (hg : StandsAt cells group g)
    (row : Nat) (l : Listing) :
    readHoldingAt row cells l group = settled (readHolding row l g) := by
  -- each of the five columns is read, and holds what the group does
  have hcell : ∀ offset < groupColumns, offset ≠ netOffset → ∀ text,
      g.toList[offset]? = some text →
        cellAt (RowReads cells.length) cells (columnAt group offset) = settled (.ok text) :=
    fun offset ho hne text ht =>
      cellAt_eq (Or.inr ⟨group, hg.counted, offset, ho, hne, rfl⟩) (hg.column_eq offset ho ▸ ht)
  have hequity := hcell 0 (by decide) (by decide) g.equity rfl
  have hdebt := hcell 1 (by decide) (by decide) g.debt rfl
  have hvipLoan := hcell 3 (by decide) (by decide) g.pledge.vipLoan rfl
  have hcross := hcell 4 (by decide) (by decide) g.pledge.crossMargin rfl
  have hportfolio := hcell 5 (by decide) (by decide) g.pledge.portfolioMargin rfl
  simp only [readHoldingAt, readHolding, settled_bind, settled_pure, ok_settled_bind, hequity,
    hdebt, hvipLoan, hcross, hportfolio]

theorem zipIdx_eq_zip_range (xs : List α) : xs.zipIdx = xs.zip (List.range xs.length) := by
  rw [List.zipIdx_eq_zip_range', List.range_eq_range']

theorem forall₂_zip {r : α → β → Prop} (xs : List γ) {ys : List α} {zs : List β}
    (h : List.Forall₂ r ys zs) :
    List.Forall₂ (fun a b => a.1 = b.1 ∧ r a.2 b.2) (xs.zip ys) (xs.zip zs) := by
  induction h generalizing xs with
  | nil => simp
  | cons hyz _ ih =>
    cases xs with
    | nil => exact .nil
    | cons x xs => exact .cons ⟨rfl, hyz⟩ (ih xs)

theorem readHoldingsAt_eq (hw : Grouped cells.length)
    (hl : listings.length = groupCount cells.length) (row : Nat) :
    (listings.zipIdx.mapM fun (l, group) => readHoldingAt row cells l group) =
      settled ((listings.zip (groups (cells.drop leadingColumns))).mapM fun (l, g) =>
        readHolding row l g) := by
  rw [zipIdx_eq_zip_range, hl]
  refine settled_mapM ((forall₂_zip listings (forall₂_standsAt hw)).imp ?_)
  rintro ⟨l, group⟩ ⟨_, g⟩ ⟨rfl, hg⟩
  exact readHoldingAt_eq hg row l

theorem readFindingAt_eq [Arithmetic] (hw : Grouped cells.length)
    (hl : listings.length = groupCount cells.length) (row : Nat) :
    readFindingAt m policy listings row cells =
      settled (readFinding m policy listings row cells) := by
  have hholdings := readHoldingsAt_eq hw hl row
  have hlong : leadingColumns ≤ cells.length := by
    unfold Grouped at hw
    omega
  obtain ⟨number, id, rest, rfl⟩ := exists_leading hlong
  have hnumber : cellAt (RowReads (number :: id :: rest).length) (number :: id :: rest) 0 =
      settled (.ok number) := cellAt_eq (Or.inl (by decide)) rfl
  have hid : cellAt (RowReads (number :: id :: rest).length) (number :: id :: rest) 1 =
      settled (.ok id) := cellAt_eq (Or.inl (by decide)) rfl
  simp only [leadingColumns, List.drop_succ_cons, List.drop_zero] at hholdings
  simp only [readFindingAt, readFinding, settled_bind, settled_pure, ok_settled_bind, hnumber, hid,
    hholdings]

theorem length_of_headerListings (h : headerListings m header = .ok listings) :
    listings.length = groupCount header.length := by
  have hstands := forall₂_standsAt (grouped_of_headerListings h)
  have hread := mapM_eq_ok.mp (headerListings_eq_ok h)
  rw [← hread.length_eq, headerSymbols, List.length_map, ← hstands.length_eq, List.length_range]

theorem length_of_cellsOfWidth {width row : Nat} {record : Sheet.Record}
    (h : Sheet.cellsOfWidth width row record = .ok cells) : cells.length = width := by
  obtain ⟨hwidth, hcells⟩ := Sheet.cellsOfWidth_eq_ok.mp h
  rw [← Sheet.length_of_cells hcells, hwidth]

theorem readRecordAt_eq [Arithmetic] (hl : headerListings m header = .ok listings)
    (record : Sheet.Record) (row : Nat) :
    readRecordAt m policy header.length listings record row =
      settled (readRecord m policy header.length listings record row) := by
  rw [readRecordAt, readRecord, settled_bind]
  cases hc : Sheet.cellsOfWidth header.length row record with
  | error fault => rfl
  | ok cells =>
    have hwidth := length_of_cellsOfWidth hc
    rw [ok_settled_bind, ok_settled_bind]
    exact readFindingAt_eq (hwidth ▸ grouped_of_headerListings hl)
      (hwidth ▸ length_of_headerListings hl) row

theorem readRecordsAt_eq [Arithmetic] (hl : headerListings m header = .ok listings)
    (records : List Sheet.Record) (first : Nat) :
    ((records.zipIdx first).mapM fun (record, row) =>
        readRecordAt m policy header.length listings record row) =
      settled (readRecords m policy header.length listings records first) :=
  settled_mapM (List.forall₂_same.mpr fun (record, row) _ => readRecordAt_eq hl record row)

theorem ofRecordsAt_eq [Arithmetic] (records : List Sheet.Record) :
    ofRecordsAt m policy header records = settled (ofRecords m policy header records) := by
  rw [ofRecordsAt, ofRecords_eq, headerListingsAt_eq, settled_bind]
  cases hl : headerListings m header with
  | error fault => rfl
  | ok listings =>
    simp only [ok_settled_bind, settled_bind, settled_pure, readRecordsAt_eq hl]

theorem ofSheetAt_eq [Arithmetic] (m : Market) (policy : TopPolicy) (bytes : Sheet.Bytes) :
    ofSheetAt m policy bytes = settled (ofSheet m policy bytes) := by
  rw [ofSheetAt, ofSheet, settled_bind]
  cases Sheet.cells Sheet.headerRow ((Sheet.records bytes).headD []) with
  | error fault => rfl
  | ok header => exact ofRecordsAt_eq _

/-- The columns of a row of so many groups. Those that are read stand before the total, and none of
them is a net balance. -/
structure Laid (width count : Nat) : Prop where
  width_eq : width = 3 + 6 * count
  reads_iff : ∀ column, RowReads width column ↔ column = 0 ∨ column = 1 ∨
    ∃ group < count, ∃ offset ∈ [0, 1, 3, 4, 5], column = 2 + 6 * group + offset
  before_total : ∀ column, RowReads width column → column + 1 < width
  not_net : ∀ column, RowReads width column → ∀ group, column ≠ columnAt group netOffset

theorem rowReads_iff {width column : Nat} :
    RowReads width column ↔ column = 0 ∨ column = 1 ∨ ∃ group < groupCount width,
      ∃ offset ∈ [0, 1, 3, 4, 5], column = 2 + 6 * group + offset := by
  have hoffset (offset : Nat) :
      offset ∈ [0, 1, 3, 4, 5] ↔ offset < groupColumns ∧ offset ≠ netOffset := by
    simp only [List.mem_cons, List.not_mem_nil, or_false, groupColumns, netOffset]
    omega
  have hleading : column < leadingColumns ↔ column = 0 ∨ column = 1 := by
    unfold leadingColumns
    omega
  simp only [RowReads, hleading, hoffset, and_assoc, or_assoc]
  rfl

theorem laid_of_grouped {width : Nat} (hw : Grouped width) : Laid width (groupCount width) where
  width_eq := hw
  reads_iff _ := rowReads_iff
  before_total column hr := by
    unfold Grouped leadingColumns groupColumns at hw
    obtain hlt | ⟨group, hg, offset, ho, -, rfl⟩ := hr
    · unfold leadingColumns at hlt
      omega
    · unfold columnAt leadingColumns groupColumns at *
      omega
  not_net column hr other := by
    obtain hlt | ⟨group, hg, offset, ho, hne, rfl⟩ := hr
    · exact (lt_of_lt_of_le hlt (leadingColumns_le_columnAt _ _)).ne
    · exact fun h => hne (columnAt_inj ho (by decide) h).2

/-- No audit looks outside a record. The header that it accepts is three columns and six for each
token wide, every record read under it has all columns that are looked for, and no column is taken
for another one. So an audit by columns ends on every sheet, an empty one included, in the report or
in the fault. -/
theorem looks_inside [Arithmetic] (m : Market) (policy : TopPolicy) :
    (∀ header listings, headerListings m header = .ok listings →
      Laid header.length listings.length ∧
      ∀ row record cells, Sheet.cellsOfWidth header.length row record = .ok cells →
        ∀ column, RowReads header.length column → ∃ text, cells[column]? = some text) ∧
    (∀ group other offset offset', offset < groupColumns → offset' < groupColumns →
      (columnAt group offset = columnAt other offset' ↔ group = other ∧ offset = offset') ∧
      leadingColumns ≤ columnAt group offset) ∧
    (∀ bytes, (ofSheetAt m policy bytes).run = some (ofSheet m policy bytes)) ∧
    ofSheet m policy [] = .error (.header (.columns 0)) := by
  refine ⟨fun header listings hl => ?_, fun group other offset offset' ho ho' => ?_, ?_, ?_⟩
  · have hlaid := laid_of_grouped (grouped_of_headerListings hl)
    rw [← length_of_headerListings hl] at hlaid
    refine ⟨hlaid, fun row record cells hc column hr => ?_⟩
    have hbound : column < cells.length := by
      rw [length_of_cellsOfWidth hc]
      exact Nat.lt_of_succ_lt (hlaid.before_total column hr)
    exact ⟨_, List.getElem?_eq_getElem hbound⟩
  · refine ⟨⟨columnAt_inj ho ho', ?_⟩, leadingColumns_le_columnAt _ _⟩
    rintro ⟨rfl, rfl⟩
    rfl
  · exact fun bytes => congrArg ExceptT.run (ofSheetAt_eq m policy bytes)
  · rfl

/-- An account of two tokens. -/
def twoTokens : List String :=
  ["7", String.ofList (List.replicate 64 'a'), "1", "0", "?", "1", "0", "0", "2", "1", "?", "0",
    "2", "0", "?"]

theorem twoTokens_inside :
    (∃ header listings, headerListings Market.pairMarket header = .ok listings ∧
      Laid header.length listings.length ∧ header.length = 15 ∧
      Sheet.cellsOfWidth header.length 2 (twoTokens.map Sheet.encode) = .ok twoTokens ∧
      RowReads header.length 13 ∧ ∃ text, twoTokens[13]? = some text) ∧
    columnAt 0 5 ≠ columnAt 1 0 ∧
    (ofSheetAt Market.pairMarket .capped (sheetOf "8,a")).run = some (.error (.ragged 2 2 9)) := by
  obtain ⟨hheader, hcolumns, hat, -⟩ := looks_inside Market.pairMarket .capped
  let header := Layout.header ["btc", "shib"]
  have hnames : Market.pairMarket.Names ["btc", "shib"] := by
    intro token ht
    rcases List.mem_pair.mp ht with rfl | rfl
    · exact ⟨by decide +kernel, _, rfl⟩
    · exact ⟨by decide +kernel, _, rfl⟩
  have hlistings : headerListings Market.pairMarket header = .ok Market.pairMarket.listings :=
    headerListings_of_names hnames
  have hcells : Sheet.cellsOfWidth header.length 2 (twoTokens.map Sheet.encode) =
      .ok twoTokens := by
    decide +kernel
  obtain ⟨hlaid, hinside⟩ := hheader header _ hlistings
  have hlast : RowReads header.length 13 := by decide
  have hragged : ofSheet Market.pairMarket .capped (sheetOf "8,a") = .error (.ragged 2 2 9) := by
    decide +kernel
  refine ⟨⟨header, _, hlistings, hlaid, rfl, hcells, hlast, ?_⟩, ?_, ?_⟩
  · exact hinside 2 _ _ hcells 13 hlast
  · intro h
    exact absurd ((hcolumns 0 1 5 0 (by decide) (by decide)).1.mp h).1 (by decide)
  · rw [hat, hragged]

end Solvency.Audit
