import Solvency.Proofs.Audit.Appended
import Solvency.Proofs.Layout.Offsets

/-! # Columns that are not read

An audit looks at the symbols and the last heading of the header, and in every other row at the
numbers, equities, debts and pledges. Whatever texts stand in the other columns, two sheets that
agree in these come to the same report, or to the same fault.
-/
namespace Solvency

namespace Sheet

/-- Two fields of a column that is read only if they are the same; otherwise any two texts. -/
def SameField (reads : Prop) (f g : Bytes) : Prop :=
  f = g ∨ ¬reads ∧ (decode? f).isSome ∧ (decode? g).isSome

instance {reads : Prop} [Decidable reads] (f g : Bytes) : Decidable (SameField reads f g) :=
  inferInstanceAs (Decidable (_ ∨ _))

/-- Records of one width whose fields agree in the columns that are read. -/
def Alike (reads : Nat → Nat → Prop) (x y : Record) : Prop :=
  List.Forall₂ (fun a b => SameField (reads x.length a.2) a.1 b.1) x.zipIdx y.zipIdx

instance {reads : Nat → Nat → Prop} [∀ width column, Decidable (reads width column)]
    (x y : Record) : Decidable (Alike reads x y) :=
  inferInstanceAs (Decidable (List.Forall₂ _ _ _))

theorem Alike.length_eq {reads : Nat → Nat → Prop} {x y : Record} (h : Alike reads x y) :
    x.length = y.length := by
  simpa only [List.length_zipIdx] using List.Forall₂.length_eq h

/-- Rows of a width that agree in some columns. -/
structure Agree (width : Nat) (reads : Nat → Prop) (xs ys : List String) : Prop where
  length_left : xs.length = width
  length_right : ys.length = width
  read_eq : ∀ column, reads column → xs[column]? = ys[column]?

theorem Agree.cons {width : Nat} {reads : Nat → Prop} {s t : String} {ss ts : List String}
    (h : reads 0 → s = t) (ha : Agree width (fun column => reads (column + 1)) ss ts) :
    Agree (width + 1) reads (s :: ss) (t :: ts) where
  length_left := congrArg Nat.succ ha.length_left
  length_right := congrArg Nat.succ ha.length_right
  read_eq column hc := by
    cases column with
    | zero => rw [List.getElem?_cons_zero, List.getElem?_cons_zero, h hc]
    | succ column =>
      rw [List.getElem?_cons_succ, List.getElem?_cons_succ]
      exact ha.read_eq column hc

theorem matched_cell {reads : Prop} {f g : Bytes} (h : SameField reads f g) (row index : Nat) :
    Matched (fun s t => reads → s = t) (cell row f index) (cell row g index) := by
  unfold cell
  rcases h with rfl | ⟨hr, hf, hg⟩
  · cases decode? f with
    | none => exact .error _
    | some s => exact .ok fun _ => rfl
  · obtain ⟨s, hs⟩ := Option.isSome_iff_exists.mp hf
    obtain ⟨t, ht⟩ := Option.isSome_iff_exists.mp hg
    rw [hs, ht]
    exact .ok fun h => absurd h hr

/-- The columns are counted from the first of the fields that are left. -/
theorem matched_cellsFrom {reads : Nat → Prop} {x y : Record} (row first : Nat)
    (h : List.Forall₂ (fun a b => SameField (reads a.2) a.1 b.1) (x.zipIdx first)
      (y.zipIdx first)) :
    Matched (Agree x.length fun column => reads (first + column))
      ((x.zipIdx first).mapM fun (field, index) => cell row field index)
      ((y.zipIdx first).mapM fun (field, index) => cell row field index) := by
  induction x generalizing y first with
  | nil =>
    cases y with
    | nil => exact .ok ⟨rfl, rfl, fun _ _ => rfl⟩
    | cons g y => cases h
  | cons f x ih =>
    cases y with
    | nil => cases h
    | cons g y =>
      simp only [List.zipIdx_cons] at h ⊢
      cases h with
      | cons hfg hrest =>
        rw [List.mapM_cons, List.mapM_cons]
        refine (matched_cell hfg row first).bind fun s t hst => ?_
        refine (ih (first + 1) hrest).bind fun ss ts ha => ?_
        simp only [Nat.add_assoc, Nat.add_comm 1] at ha
        exact .ok (.cons hst ha)

theorem matched_cells {reads : Nat → Nat → Prop} {x y : Record} (h : Alike reads x y) (row : Nat) :
    Matched (Agree x.length (reads x.length)) (cells row x) (cells row y) := by
  have hm := matched_cellsFrom row 0 h
  simp only [Nat.zero_add] at hm
  exact hm

end Sheet

namespace Audit
open Layout Sheet

/-- The symbol of each group and the last heading. -/
def HeaderReads (width column : Nat) : Prop :=
  column + 1 = width ∨ ∃ group < groupCount width, column = columnAt group netOffset

/-- The leading columns, and all columns of each group but the net balance. -/
def RowReads (width column : Nat) : Prop :=
  column < leadingColumns ∨ ∃ group < groupCount width, ∃ offset < groupColumns,
    offset ≠ netOffset ∧ column = columnAt group offset

instance (width column : Nat) : Decidable (HeaderReads width column) :=
  inferInstanceAs (Decidable (_ ∨ _))

instance (width column : Nat) : Decidable (RowReads width column) :=
  inferInstanceAs (Decidable (_ ∨ _))

/-- Sheets that cannot be told apart by the columns that an audit reads. -/
structure SameReading (a b : Sheet.Bytes) : Prop where
  header : Alike HeaderReads ((records a).headD []) ((records b).headD [])
  rows : List.Forall₂ (Alike RowReads) (records a).tail (records b).tail

variable {m : Market} {policy : TopPolicy} {listings : List Listing} {width : Nat}
  {xs ys : List String}

theorem symbols_congr (hw : Grouped width) (h : Agree width (HeaderReads width) xs ys) :
    (groups (xs.drop leadingColumns)).map (fun g => symbolOf g.net) =
      (groups (ys.drop leadingColumns)).map fun g => symbolOf g.net := by
  have hgroups := forall₂_groups_drop (p := (· = netOffset)) hw h.length_left h.length_right
    fun group hg offset _ hp => h.read_eq _ (Or.inr ⟨group, hg, hp ▸ rfl⟩)
  refine map_eq_of_forall₂ (fun g k hgk => ?_) hgroups
  have hnet : some g.net = some k.net := hgk netOffset (by decide) rfl
  rw [Option.some.inj hnet]

theorem getLast?_congr (hw : Grouped width) (h : Agree width (HeaderReads width) xs ys) :
    xs.getLast? = ys.getLast? := by
  rw [List.getLast?_eq_getElem?, List.getLast?_eq_getElem?, h.length_left, h.length_right]
  refine h.read_eq (width - 1) (Or.inl ?_)
  unfold Grouped leadingColumns at hw
  omega

theorem headerListings_congr (h : Agree width (HeaderReads width) xs ys) :
    headerListings m xs = headerListings m ys := by
  unfold headerListings
  simp only [h.length_left, h.length_right]
  split
  · rfl
  · rename_i hcolumns
    have hw := grouped_iff.mpr hcolumns
    rw [getLast?_congr hw h, symbols_congr hw h]

theorem grouped_of_headerListings (h : headerListings m xs = .ok listings) : Grouped xs.length := by
  unfold headerListings at h
  dsimp only at h
  split at h
  · cases h
  · rename_i hcolumns
    exact grouped_iff.mpr hcolumns

theorem readHolding_congr {g k : TokenCells String} (h : g.SameAt (· ≠ netOffset) k) (row : Nat)
    (l : Listing) : readHolding row l g = readHolding row l k := by
  have hequity : some g.equity = some k.equity := h 0 (by decide) (by decide)
  have hdebt : some g.debt = some k.debt := h 1 (by decide) (by decide)
  have hvipLoan : some g.pledge.vipLoan = some k.pledge.vipLoan := h 3 (by decide) (by decide)
  have hcross : some g.pledge.crossMargin = some k.pledge.crossMargin :=
    h 4 (by decide) (by decide)
  have hportfolio : some g.pledge.portfolioMargin = some k.pledge.portfolioMargin :=
    h 5 (by decide) (by decide)
  unfold readHolding
  rw [Option.some.inj hequity, Option.some.inj hdebt, Option.some.inj hvipLoan,
    Option.some.inj hcross, Option.some.inj hportfolio]

theorem readHoldings_congr {gs ks : List (TokenCells String)}
    (h : List.Forall₂ (TokenCells.SameAt (· ≠ netOffset)) gs ks) (row : Nat)
    (listings : List Listing) :
    ((listings.zip gs).mapM fun e => readHolding row e.1 e.2) =
      (listings.zip ks).mapM fun e => readHolding row e.1 e.2 := by
  induction h generalizing listings with
  | nil => rfl
  | cons hgk _ ih =>
    cases listings with
    | nil => rfl
    | cons l listings =>
      rw [List.zip_cons_cons, List.zip_cons_cons, List.mapM_cons, List.mapM_cons, ih]
      simp only [readHolding_congr hgk]

theorem readFinding_congr [Arithmetic] (hw : Grouped width) (h : Agree width (RowReads width) xs ys)
    (row : Nat) :
    readFinding m policy listings row xs = readFinding m policy listings row ys := by
  have hgroups := forall₂_groups_drop (p := (· ≠ netOffset)) hw h.length_left h.length_right
    fun group hg offset ho hp => h.read_eq _ (Or.inr ⟨group, hg, offset, ho, hp, rfl⟩)
  have hnumber := h.read_eq 0 (Or.inl (by decide))
  have hid := h.read_eq 1 (Or.inl (by decide))
  have hlong : leadingColumns ≤ width := by
    unfold Grouped at hw
    omega
  obtain ⟨number, id, rest, rfl⟩ := exists_leading (h.length_left ▸ hlong)
  obtain ⟨number', id', rest', rfl⟩ := exists_leading (h.length_right ▸ hlong)
  cases hnumber
  cases hid
  have hread := readHoldings_congr hgroups row listings
  simp only [leadingColumns, List.drop_succ_cons, List.drop_zero] at hread
  simp only [readFinding, hread]

theorem readRecord_congr [Arithmetic] {row : Nat} {x y : Record} (hw : Grouped width)
    (h : Alike RowReads x y) :
    readRecord m policy width listings x row = readRecord m policy width listings y row := by
  unfold readRecord cellsOfWidth
  rw [← h.length_eq]
  split
  · rename_i hwidth
    have hm := matched_cells h row
    rw [hwidth] at hm
    generalize Sheet.cells row x = left at hm ⊢
    generalize Sheet.cells row y = right at hm ⊢
    cases hm with
    | error fault => rfl
    | ok ha => exact readFinding_congr hw ha row
  · rfl

theorem readRecords_congr [Arithmetic] {records others : List Record} (hw : Grouped width)
    (h : List.Forall₂ (Alike RowReads) records others) (first : Nat) :
    readRecords m policy width listings records first =
      readRecords m policy width listings others first := by
  unfold readRecords
  induction h generalizing first with
  | nil => rfl
  | cons hxy _ ih =>
    rw [List.zipIdx_cons, List.zipIdx_cons, List.mapM_cons, List.mapM_cons, ih]
    simp only [readRecord_congr hw hxy]

theorem ofRecords_congr [Arithmetic] {records others : List Record}
    (h : Agree width (HeaderReads width) xs ys)
    (hr : List.Forall₂ (Alike RowReads) records others) :
    ofRecords m policy xs records = ofRecords m policy ys others := by
  rw [ofRecords_eq, ofRecords_eq, ← headerListings_congr h]
  cases hl : headerListings m xs with
  | error fault => rfl
  | ok listings =>
    have hw := grouped_of_headerListings hl
    rw [h.length_left] at hw
    simp only [ok_bind, h.length_left, h.length_right, readRecords_congr hw hr]

/-- What stands in the columns that are not read has no part in the outcome of an audit, be it a
report or a fault. -/
theorem ofSheet_eq_of_sameReading [Arithmetic] {a b : Sheet.Bytes} (h : SameReading a b) :
    ofSheet m policy a = ofSheet m policy b := by
  have hm := matched_cells h.header headerRow
  unfold ofSheet
  dsimp only
  generalize Sheet.cells headerRow ((records a).headD []) = left at hm ⊢
  generalize Sheet.cells headerRow ((records b).headD []) = right at hm ⊢
  cases hm with
  | error fault => rfl
  | ok ha => exact ofRecords_congr ha h.rows

def accurateSheet : Sheet.Bytes := encode (
  "rn,id,e_btc,d_btc,btc,vl_btc,m_btc,pm_btc,e_shib,d_shib,shib,vl_shib,m_shib,pm_shib," ++
  "total_net_balance_usdt\n" ++
  "1,0000000000000000000000000000000000000000000000000000000000000001," ++
  "0.0000006,0,0.0000006,4e-7,0,0,9,2,7,4,2,1,0.0\n" ++
  "2,0000000000000000000000000000000000000000000000000000000000000002," ++
  "1,0,1,0.5,0.5,0.5,0,0,0,0,0,0,0.0\n")

/-- Other headings, net balances that are wrong or no numbers, and totals in quotes. -/
def carelessSheet : Sheet.Bytes := encode (
  "№,,,,btc,,,,\"a,b\",,shib,,,e_btc,total_net_balance_usdt\n" ++
  "1,0000000000000000000000000000000000000000000000000000000000000001," ++
  "0.0000006,0,-∞,4e-7,0,0,9,2,,4,2,1,\"7,5\"\n\n" ++
  "2,0000000000000000000000000000000000000000000000000000000000000002," ++
  "1,0,doge,0.5,0.5,0.5,0,0,-1,0,0,0,\n")

theorem carelessSheet_sameReading :
    SameReading accurateSheet carelessSheet ∧ accurateSheet ≠ carelessSheet ∧
      ofSheet Market.pairMarket .extended accurateSheet =
        ofSheet Market.pairMarket .extended carelessSheet := by
  have h : SameReading accurateSheet carelessSheet := ⟨by decide +kernel, by decide +kernel⟩
  exact ⟨h, by decide +kernel, ofSheet_eq_of_sameReading h⟩

end Audit
end Solvency
