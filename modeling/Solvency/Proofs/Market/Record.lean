import Solvency.Proofs.Market.Loaded
import Solvency.Proofs.Sheet.Rows

/-! # Records of an asset sheet

A record is read without regard to where it stands: in every row it gives the same listing, or the
same fault for that row. What a sheet lists is therefore told by the listings of its records alone,
and it is accepted as soon as these have distinct symbols.
-/
namespace Solvency

namespace Schedule

theorem readNext_add (multiplier row rows : Nat) (s : Schedule) (segment : List Char) :
    readNext multiplier (row + rows) s segment =
      (readNext multiplier row s segment).mapError (Fault.lowered rows) := by
  unfold readNext
  rw [mapError_mapError]
  rfl

theorem read_add (text : String) (multiplier row rows : Nat) :
    read text multiplier (row + rows) =
      (read text multiplier row).mapError (Fault.lowered rows) := by
  unfold read
  split
  · rfl
  · simp only [mapError_foldlM, ← readNext_add]

end Schedule

namespace Market

theorem readPrice_add (scaling : Scaling) (row rows : Nat) (symbol text : String) :
    readPrice scaling (row + rows) symbol text =
      (readPrice scaling row symbol text).mapError (Fault.lowered rows) := by
  unfold readPrice
  split
  · rfl
  · split
    · rfl
    · unfold narrow
      split <;> rfl

variable {settings : Settings}

theorem readListing_add (row rows : Nat) (cells : List String) :
    readListing settings (row + rows) cells =
      (readListing settings row cells).mapError (Fault.lowered rows) := by
  unfold readListing
  split
  · simp only [mapError_bind, mapError_pure, readPrice_add, Schedule.read_add]
  · rfl

/-- The listing that a record in a row is read as. -/
def readRecord (settings : Settings) (row : Nat) (record : Sheet.Record) : Except Fault Listing := do
  let cells ← Sheet.cells row record
  readListing settings row cells

theorem readNext_eq (m : Market) (record : Sheet.Record) (row : Nat) :
    readNext settings m (record, row) = readRecord settings row record >>= m.insert := by
  unfold readNext readRecord
  dsimp only
  cases Sheet.cells row record <;> rfl

theorem readRecord_add (row rows : Nat) (record : Sheet.Record) :
    readRecord settings (row + rows) record =
      (readRecord settings row record).mapError (Fault.lowered rows) := by
  simp only [readRecord, mapError_bind, Sheet.cells_add, readListing_add]

/-- In whatever row the record stands, it is read as this listing. -/
def Lists (settings : Settings) (record : Sheet.Record) (l : Listing) : Prop :=
  ∀ row, readRecord settings row record = .ok l

variable {record : Sheet.Record} {records : List Sheet.Record} {l : Listing} {m : Market}

theorem lists_of_readRecord {row : Nat} (h : readRecord settings row record = .ok l) :
    Lists settings record l := by
  rw [← Nat.zero_add row, readRecord_add, mapError_eq_ok] at h
  intro other
  rw [← Nat.zero_add other, readRecord_add, mapError_eq_ok, h]

theorem lists_of_reads {entry : Sheet.Record × Nat} (h : Reads settings entry l) :
    Lists settings entry.1 l :=
  lists_of_readRecord (bind_eq_ok.mpr h)

/-- Only a symbol that is listed already keeps a listing out. -/
theorem insert_of_listings {k : Market} (h : k.listings = m.listings ++ [l]) :
    m.insert l = .ok k := by
  have hd := k.distinct
  rw [h, List.map_append, List.map_singleton] at hd
  have hnew : l.symbol ∉ m.listings.map Listing.symbol :=
    fun hl => List.disjoint_of_nodup_append hd hl (List.mem_singleton_self _)
  unfold insert
  rw [dif_neg hnew]
  simp only [← h]

theorem foldlM_readNext_of_lists {ls : List Listing} (h : List.Forall₂ (Lists settings) records ls)
    (first : Nat) {k : Market} (hk : k.listings = m.listings ++ ls) :
    (records.zipIdx first).foldlM (readNext settings) m = .ok k := by
  induction h generalizing m first with
  | nil =>
    rw [List.append_nil] at hk
    obtain ⟨listings, distinct⟩ := m
    obtain ⟨_, _⟩ := k
    cases hk
    rfl
  | @cons record l records ls hl _ ih =>
    have hsplit : k.listings = (m.listings ++ [l]) ++ ls := by
      rw [hk, List.append_assoc, List.singleton_append]
    have hdistinct : ((m.listings ++ [l]).map Listing.symbol).Nodup := by
      have hd := k.distinct
      rw [hsplit, List.map_append] at hd
      exact (List.nodup_append.mp hd).1
    let next : Market := ⟨m.listings ++ [l], hdistinct⟩
    have hnext : readNext settings m (record, first) = .ok next := by
      rw [readNext_eq, hl first, ok_bind]
      exact insert_of_listings rfl
    rw [List.zipIdx_cons, List.foldlM_cons, hnext, ok_bind]
    exact ih (m := next) (first + 1) hsplit

/-- A market is what a sheet lists exactly if its listings are those of the records, in order. -/
theorem ofRecords_eq_ok_iff :
    ofRecords settings records = .ok m ↔ List.Forall₂ (Lists settings) records m.listings := by
  constructor
  · intro h
    have hreads := (ofRecords_eq_ok h).imp fun _ _ => lists_of_reads
    rw [← List.forall₂_map_left_iff (f := Prod.fst), List.zipIdx_map_fst] at hreads
    exact hreads
  · intro h
    exact foldlM_readNext_of_lists h Sheet.firstDataRow (List.nil_append _).symm

end Market
end Solvency
