import Solvency.Proofs.Market.Record

/-! # The first offence in an asset sheet

A record offends by itself: it cannot be decoded, is too short, has a price that cannot be used or a
bracket list that cannot be read. Only its symbol is held against the records before it. A sheet is
refused for the first record that offends and for nothing that stands further down, and that record
is refused for the first check that it fails.
-/
namespace Solvency.Market

inductive Check
  | encoding
  | width
  | price
  | brackets (facility : Facility)
  | repetition

namespace Check

/-- The checks of a record by itself. -/
def own : List Check := encoding :: width :: price :: Facility.all.map brackets

/-- In the order in which they decide what a record with several flaws is refused for. -/
def all : List Check := own ++ [repetition]

theorem mem_all (check : Check) : check ∈ all := by
  cases check with
  | brackets facility => cases facility <;> simp [all, own, Facility.all]
  | _ => simp [all, own]

end Check

def textIn? (column : Nat) (record : Sheet.Record) : Option String :=
  record[column]?.bind Sheet.decode?

def symbolIn? (record : Sheet.Record) : Option String := (textIn? 0 record).map symbolOf

def bracketColumn : Facility → Nat
  | .vipLoan => 2
  | .crossMargin => 3
  | .portfolioMargin => 4

/-- The first field that is no text. -/
def encodingFault? (row : Nat) (record : Sheet.Record) : Option Fault :=
  record.zipIdx.findSome? fun (field, index) =>
    match Sheet.decode? field with
    | none => some (.undecodable row index (Sheet.decodableLength field))
    | some _ => none

def priceFault? (scaling : Scaling) (row : Nat) (symbol text : String) : Option Fault :=
  match Amount.scaled? text scaling.priceMultiplier with
  | none => some (.amount row symbol text)
  | some price =>
    if price = 0 then some (.zeroPrice symbol)
    else if wordLimit ≤ price then some (.overflow .price)
    else none

/-- What a record in a row is refused for by one check, whatever the other checks say. -/
def Check.fault? (settings : Settings) (earlier : List Sheet.Record) (row : Nat)
    (record : Sheet.Record) : Check → Option Fault
  | encoding => encodingFault? row record
  | width =>
    if record.length < requiredFields then some (.shortRow row record.length requiredFields)
    else none
  | price => do
    let symbol ← symbolIn? record
    let text ← textIn? 1 record
    priceFault? (settings.scalingOf symbol) row symbol text
  | brackets facility => do
    let text ← textIn? (bracketColumn facility) record
    refusal? (Schedule.read text settings.valueMultiplier row)
  | repetition => do
    let symbol ← symbolIn? record
    if some symbol ∈ earlier.map symbolIn? then some (.repeatedToken symbol) else none

/-- What the record in a position is refused for by one check. -/
def Check.faultAt? (settings : Settings) (records : List Sheet.Record) (i : Nat) (check : Check) :
    Option Fault := do
  let record ← records[i]?
  check.fault? settings (records.take i) (Sheet.firstDataRow + i) record

/-- What the record in a position is refused for, if it offends. -/
def offence? (settings : Settings) (records : List Sheet.Record) (i : Nat) : Option Fault :=
  Check.all.findSome? (Check.faultAt? settings records i)

variable {settings : Settings} {records : List Sheet.Record} {record : Sheet.Record}
  {earlier : List Sheet.Record} {row i : Nat} {cells : List String} {fault : Fault}

/-! ## One record -/

theorem refusal?_cells (row : Nat) (record : Sheet.Record) :
    refusal? (Sheet.cells row record) = encodingFault? row record := by
  unfold Sheet.cells encodingFault?
  rw [refusal?_mapM]
  congr 1
  funext (field, index)
  dsimp only [Sheet.cell]
  cases Sheet.decode? field <;> rfl

theorem map_decode?_of_cells (h : Sheet.cells row record = .ok cells) :
    record.map Sheet.decode? = cells.map some := by
  have hread : List.Forall₂ (fun entry cell => Sheet.decode? entry.1 = some cell)
      record.zipIdx cells := (mapM_eq_ok.mp h).imp fun _ _ => elim_eq_ok.mp
  rw [← map_eq_of_forall₂ (fun _ _ => id) hread]
  conv_lhs => rw [← List.zipIdx_map_fst 0 record, List.map_map]
  rfl

theorem textIn?_of_cells (h : Sheet.cells row record = .ok cells) (column : Nat) :
    textIn? column record = cells[column]? := by
  have hd : textIn? column record = (record.map Sheet.decode?)[column]?.bind id := by
    rw [List.getElem?_map, Option.bind_map]
    rfl
  rw [hd, map_decode?_of_cells h, List.getElem?_map, Option.bind_map, Function.id_comp]
  exact Option.bind_fun_some _

theorem refusal?_readPrice (scaling : Scaling) (row : Nat) (symbol text : String) :
    refusal? (readPrice scaling row symbol text) = priceFault? scaling row symbol text := by
  unfold readPrice priceFault?
  cases Amount.scaled? text scaling.priceMultiplier with
  | none => rfl
  | some price =>
    dsimp only
    split
    · rfl
    · unfold narrow
      by_cases hp : price < wordLimit
      · rw [if_pos hp, if_neg (Nat.not_le.mpr hp)]
        rfl
      · rw [if_neg hp, if_pos (Nat.not_lt.mp hp)]
        rfl

theorem readListing_of_short (h : cells.length < requiredFields) :
    readListing settings row cells = .error (.shortRow row cells.length requiredFields) := by
  unfold readListing
  split
  · rename_i name price vipLoan crossMargin portfolioMargin rest
    exact absurd h (Nat.not_lt.mpr (Nat.le_add_left requiredFields rest.length))
  · rfl

theorem exists_of_not_short (h : ¬cells.length < requiredFields) :
    ∃ name price vipLoan crossMargin portfolioMargin rest,
      cells = name :: price :: vipLoan :: crossMargin :: portfolioMargin :: rest := by
  match cells with
  | name :: price :: vipLoan :: crossMargin :: portfolioMargin :: rest =>
    exact ⟨name, price, vipLoan, crossMargin, portfolioMargin, rest, rfl⟩
  | [] | [_] | [_, _] | [_, _, _] | [_, _, _, _] => simp [requiredFields] at h

theorem fault?_price {symbol text : String} (hs : symbolIn? record = some symbol)
    (ht : textIn? 1 record = some text) :
    Check.price.fault? settings earlier row record =
      refusal? (readPrice (settings.scalingOf symbol) row symbol text) := by
  simp only [refusal?_readPrice, Check.fault?, hs, ht, Option.bind_eq_bind, Option.bind_some]

theorem fault?_brackets (facility : Facility) {text : String}
    (ht : textIn? (bracketColumn facility) record = some text) :
    (Check.brackets facility).fault? settings earlier row record =
      refusal? (Schedule.read text settings.valueMultiplier row) := by
  rw [Check.fault?, ht, Option.bind_eq_bind, Option.bind_some]

/-- Of a record that can be decoded, the other checks of the record by itself remain. -/
theorem refusal?_readListing (h : Sheet.cells row record = .ok cells) :
    refusal? (readListing settings row cells) =
      Check.own.tail.findSome? (Check.fault? settings earlier row record) := by
  have hwidth : Check.width.fault? settings earlier row record =
      if cells.length < requiredFields then some (.shortRow row cells.length requiredFields)
      else none := by
    rw [Check.fault?, Sheet.length_of_cells h]
  by_cases hshort : cells.length < requiredFields
  · rw [readListing_of_short hshort, Check.own, List.tail_cons, findSome?_cons_or, hwidth,
      if_pos hshort]
    rfl
  · obtain ⟨name, price, vipLoan, crossMargin, portfolioMargin, rest, rfl⟩ :=
      exists_of_not_short hshort
    have hsymbol : symbolIn? record = some (symbolOf name) := by
      rw [symbolIn?, textIn?_of_cells h]
      rfl
    have htext := textIn?_of_cells h
    rw [if_neg hshort] at hwidth
    simp only [Check.own, List.tail_cons, Facility.all, List.map_cons, List.map_nil,
      findSome?_cons_or, hwidth, Option.none_or, fault?_price hsymbol (htext 1),
      fault?_brackets .vipLoan (htext 2), fault?_brackets .crossMargin (htext 3),
      fault?_brackets .portfolioMargin (htext 4)]
    exact refusal?_bind fun _ _ => refusal?_bind fun _ _ => refusal?_bind fun _ _ =>
      refusal?_bind fun _ _ => rfl

theorem refusal?_readRecord (row : Nat) (record : Sheet.Record) :
    refusal? (readRecord settings row record) =
      Check.own.findSome? (Check.fault? settings earlier row record) := by
  rw [Check.own, findSome?_cons_or, Check.fault?, ← refusal?_cells]
  exact refusal?_bind fun _ hcells => refusal?_readListing hcells

/-! ## One record after others -/

variable {m : Market} {l : Listing}

theorem symbolIn?_of_readRecord (h : readRecord settings row record = .ok l) :
    symbolIn? record = some l.symbol := by
  obtain ⟨cells, hcells, hl⟩ := bind_eq_ok.mp h
  obtain ⟨name, _, _, _, _, _, rfl, hsymbol, _⟩ := readListing_eq_ok hl
  rw [symbolIn?, textIn?_of_cells hcells, hsymbol]
  rfl

theorem symbols_of_ofRecords (h : ofRecords settings records = .ok m) :
    records.map symbolIn? = (m.listings.map Listing.symbol).map some := by
  rw [List.map_map]
  exact map_eq_of_forall₂ (fun _ _ hl => symbolIn?_of_readRecord (hl Sheet.headerRow))
    (ofRecords_eq_ok_iff.mp h)

theorem refusal?_insert (h : ofRecords settings earlier = .ok m)
    (hl : symbolIn? record = some l.symbol) :
    refusal? (m.insert l) = Check.repetition.fault? settings earlier row record := by
  have hlisted : some l.symbol ∈ earlier.map symbolIn? ↔
      l.symbol ∈ m.listings.map Listing.symbol := by
    rw [symbols_of_ofRecords h]
    exact List.mem_map_of_injective (Option.some_injective _)
  rw [Check.fault?, hl]
  unfold insert
  by_cases hs : l.symbol ∈ m.listings.map Listing.symbol
  · rw [dif_pos hs, refusal?_error]
    exact (if_pos (hlisted.mpr hs)).symm
  · rw [dif_neg hs, refusal?_ok]
    exact (if_neg (mt hlisted.mp hs)).symm

theorem refusal?_readNext (h : ofRecords settings earlier = .ok m) (row : Nat)
    (record : Sheet.Record) :
    refusal? (readNext settings m (record, row)) =
      Check.all.findSome? (Check.fault? settings earlier row record) := by
  rw [readNext_eq, Check.all, List.findSome?_append, ← refusal?_readRecord, findSome?_cons_or]
  refine refusal?_bind fun l hl => ?_
  rw [refusal?_insert h (symbolIn?_of_readRecord hl), List.findSome?_nil, Option.or_none]

theorem ofRecords_concat (records : List Sheet.Record) (record : Sheet.Record) :
    ofRecords settings (records ++ [record]) =
      ofRecords settings records >>= fun m =>
        readNext settings m (record, Sheet.firstDataRow + records.length) := by
  rw [ofRecords, List.zipIdx_append, List.foldlM_append]
  simp only [List.zipIdx_cons, List.zipIdx_nil, List.foldlM_cons, List.foldlM_nil, bind_pure]
  rfl

/-! ## All records -/

theorem offence?_of_getElem? (h : records[i]? = some record) :
    offence? settings records i =
      Check.all.findSome?
        (Check.fault? settings (records.take i) (Sheet.firstDataRow + i) record) := by
  unfold offence?
  congr 1
  funext check
  rw [Check.faultAt?, h]
  rfl

theorem offence?_of_length_le (h : records.length ≤ i) : offence? settings records i = none := by
  refine List.findSome?_eq_none_iff.mpr fun check _ => ?_
  rw [Check.faultAt?, List.getElem?_eq_none h]
  rfl

/-- Whether a record offends does not depend on the records behind it. -/
theorem offence?_of_take_eq {others : List Sheet.Record}
    (h : records.take (i + 1) = others.take (i + 1)) :
    offence? settings records i = offence? settings others i := by
  have hi : records[i]? = others[i]? := by
    rw [← List.getElem?_take_of_lt (Nat.lt_succ_self i), h,
      List.getElem?_take_of_lt (Nat.lt_succ_self i)]
  have ht : records.take i = others.take i := by
    have := congrArg (List.take i) h
    rwa [List.take_take, List.take_take, Nat.min_eq_left (Nat.le_succ i)] at this
  have hf : Check.faultAt? settings records i = Check.faultAt? settings others i := by
    funext check
    rw [Check.faultAt?, Check.faultAt?, hi, ht]
  rw [offence?, offence?, hf]

/-- The first record that offends, and what it is refused for. -/
structure FirstOffence (settings : Settings) (records : List Sheet.Record) (i : Nat)
    (fault : Fault) : Prop where
  offends : offence? settings records i = some fault
  earliest : ∀ j < i, offence? settings records j = none

theorem FirstOffence.of_take_eq {others : List Sheet.Record}
    (h : FirstOffence settings records i fault)
    (ht : records.take (i + 1) = others.take (i + 1)) : FirstOffence settings others i fault := by
  refine ⟨(offence?_of_take_eq ht).symm.trans h.offends, fun j hj => ?_⟩
  have htj := congrArg (List.take (j + 1)) ht
  rw [List.take_take, List.take_take, Nat.min_eq_left (Nat.succ_le_succ hj.le)] at htj
  exact (offence?_of_take_eq htj).symm.trans (h.earliest j hj)

/-- A sheet is refused for its first offence. -/
theorem refusal?_ofRecords (records : List Sheet.Record) :
    refusal? (ofRecords settings records) =
      (List.range records.length).findSome? (offence? settings records) := by
  induction records using List.reverseRecOn with
  | nil => rfl
  | append_singleton records record ih =>
    have hearlier : (List.range records.length).map (offence? settings records) =
        (List.range records.length).map (offence? settings (records ++ [record])) :=
      List.map_congr_left fun i hi => offence?_of_take_eq
        (List.take_append_of_le_length (Nat.succ_le_of_lt (List.mem_range.mp hi))).symm
    have hfirst := congrArg (List.findSome? id) hearlier
    rw [List.findSome?_map, List.findSome?_map, Function.id_comp, Function.id_comp] at hfirst
    have hlast : offence? settings (records ++ [record]) records.length =
        Check.all.findSome?
          (Check.fault? settings records (Sheet.firstDataRow + records.length) record) := by
      rw [offence?_of_getElem? List.getElem?_concat_length, List.take_left]
    rw [ofRecords_concat, refusal?_bind fun m hm => refusal?_readNext hm _ record, ih, hfirst,
      List.length_append, List.length_singleton, List.range_succ, List.findSome?_append,
      findSome?_cons_or, List.findSome?_nil, Option.or_none, hlast]

theorem ofRecords_eq_error_iff :
    ofRecords settings records = .error fault ↔ ∃ i, FirstOffence settings records i fault := by
  rw [← refusal?_eq_some, refusal?_ofRecords, findSome?_range_eq_some]
  constructor
  · rintro ⟨i, _, hi, hbefore⟩
    exact ⟨i, hi, hbefore⟩
  · rintro ⟨i, hi, hbefore⟩
    have hlt : i < records.length := by
      by_contra hge
      rw [offence?_of_length_le (Nat.not_lt.mp hge)] at hi
      cases hi
    exact ⟨i, hlt, hi, hbefore⟩

theorem exists_ofRecords_iff :
    (∃ m, ofRecords settings records = .ok m) ↔
      ∀ i check, Check.faultAt? settings records i check = none := by
  rw [← refusal?_eq_none, refusal?_ofRecords, List.findSome?_eq_none_iff]
  constructor
  · intro h i check
    have hi : offence? settings records i = none := by
      rcases Nat.lt_or_ge i records.length with hlt | hge
      · exact h i (List.mem_range.mpr hlt)
      · exact offence?_of_length_le hge
    exact List.findSome?_eq_none_iff.mp hi check check.mem_all
  · intro h i _
    exact List.findSome?_eq_none_iff.mpr fun check _ => h i check

/-! ## The row it is reported for -/

theorem row_of_read {text : String} {multiplier : Nat}
    (h : Schedule.read text multiplier row = .error fault) : fault.row? = some row := by
  unfold Schedule.read at h
  split at h
  · cases h
  · obtain ⟨segment, _, s, h⟩ := exists_of_foldlM_eq_error h
    obtain ⟨flaw, _, rfl⟩ := mapError_eq_error.mp h
    rfl

theorem row_of_priceFault? {scaling : Scaling} {symbol text : String}
    (h : priceFault? scaling row symbol text = some fault) : ∀ r ∈ fault.row?, r = row := by
  unfold priceFault? at h
  split at h
  · cases h
    simp [Fault.row?]
  · split at h
    · cases h
      simp [Fault.row?]
    · split at h
      · cases h
        simp [Fault.row?]
      · cases h

/-- If what a check finds names a row, it is the row of the record. -/
theorem row_of_fault? {check : Check}
    (h : check.fault? settings earlier row record = some fault) : ∀ r ∈ fault.row?, r = row := by
  cases check with
  | encoding =>
    obtain ⟨⟨field, index⟩, _, h⟩ := List.exists_of_findSome?_eq_some h
    dsimp only at h
    split at h
    · cases h
      simp [Fault.row?]
    · cases h
  | width =>
    rw [Check.fault?] at h
    split at h
    · cases h
      simp [Fault.row?]
    · cases h
  | price =>
    obtain ⟨symbol, _, h⟩ := Option.bind_eq_some_iff.mp h
    obtain ⟨text, _, h⟩ := Option.bind_eq_some_iff.mp h
    exact row_of_priceFault? h
  | brackets facility =>
    obtain ⟨text, _, h⟩ := Option.bind_eq_some_iff.mp h
    simp [row_of_read (refusal?_eq_some.mp h)]
  | repetition =>
    obtain ⟨symbol, _, h⟩ := Option.bind_eq_some_iff.mp h
    split at h
    · cases h
      simp [Fault.row?]
    · cases h

theorem FirstOffence.names_row (h : FirstOffence settings records i fault) :
    ∀ row ∈ fault.row?, row = i + 2 := by
  obtain ⟨check, _, hc⟩ := List.exists_of_findSome?_eq_some h.offends
  obtain ⟨record, _, hf⟩ := Option.bind_eq_some_iff.mp hc
  intro row hr
  rw [row_of_fault? hf row hr, Nat.add_comm]
  rfl

/-- A sheet is accepted exactly if no record fails a check. Otherwise it is refused for the first
record that does: a row that is named is the row of that record, and every sheet that begins with
the same records up to it is refused for the same. -/
theorem ofSheet_firstOffence (settings : Settings) (bytes : Sheet.Bytes) :
    ((∃ m, ofSheet settings bytes = .ok m) ↔
      ∀ i check, Check.faultAt? settings (Sheet.records bytes).tail i check = none) ∧
    (∀ fault, ofSheet settings bytes = .error fault ↔
      ∃ i, FirstOffence settings (Sheet.records bytes).tail i fault) ∧
    ∀ i fault, FirstOffence settings (Sheet.records bytes).tail i fault →
      (∀ row ∈ fault.row?, row = i + 2) ∧
      ∀ others, (Sheet.records others).tail.take (i + 1) = (Sheet.records bytes).tail.take (i + 1) →
        ofSheet settings others = .error fault := by
  refine ⟨exists_ofRecords_iff, fun fault => ofRecords_eq_error_iff, fun i fault h => ⟨h.names_row, ?_⟩⟩
  intro others ht
  exact ofRecords_eq_error_iff.mpr ⟨i, h.of_take_eq ht.symm⟩

/-- The second record repeats a symbol and has two bad lists, and the third is too short. -/
def flawedSheet : Sheet.Bytes :=
  Sheet.encode "token,price,vl,margin,pm\nbtc,1,,,\n BTC,2,[0-5:90],[7-3:50],[x]\nshib\n"

/-- The same sheet up to the second record. -/
def shortenedSheet : Sheet.Bytes :=
  Sheet.encode "token,price,vl,margin,pm\nbtc,1,,,\n BTC,2,[0-5:90],[7-3:50],[x]\n"

theorem flawedSheet_firstOffence :
    FirstOffence {} (Sheet.records flawedSheet).tail 1 (.bracket 3 "7-3:50" .reversed) ∧
    ofSheet {} flawedSheet = .error (.bracket 3 "7-3:50" .reversed) ∧
    ofSheet {} shortenedSheet = .error (.bracket 3 "7-3:50" .reversed) := by
  have hfirst :
      FirstOffence {} (Sheet.records flawedSheet).tail 1 (.bracket 3 "7-3:50" .reversed) :=
    ⟨by decide +kernel, by decide +kernel⟩
  obtain ⟨_, herror, hothers⟩ := ofSheet_firstOffence {} flawedSheet
  exact ⟨hfirst, (herror _).mpr ⟨1, hfirst⟩,
    (hothers 1 _ hfirst).2 shortenedSheet (by decide +kernel)⟩

end Solvency.Market
