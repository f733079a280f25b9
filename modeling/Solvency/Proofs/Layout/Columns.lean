import Solvency.Layout
import Solvency.Proofs.Sheet.RoundTrip
import Solvency.Proofs.Text.Numeral

/-! # The columns of a written sheet

Between two leading columns and a total, a record is a row of groups, and cutting it gives those
groups back. The header and the rows of a sheet are equally long when every account holds as many
tokens as the header names, and none of them looks like a blank line. The records of such a sheet
are therefore the cells it was written from.
-/
namespace Solvency.Layout
open Sheet

section Groups
variable {α β : Type}

theorem groups_toList_append (g : TokenCells α) (xs : List α) :
    groups (g.toList ++ xs) = g :: groups xs := rfl

/-- Groups written one behind the other are cut where they were joined. -/
theorem groups_flatMap (g : β → TokenCells α) (xs : List β) (rest : List α) :
    groups (xs.flatMap (fun x => (g x).toList) ++ rest) = xs.map g ++ groups rest := by
  induction xs with
  | nil => rfl
  | cons x xs ih =>
    rw [List.flatMap_cons, List.append_assoc, groups_toList_append, ih, List.map_cons,
      List.cons_append]

theorem length_flatMap_toList (g : β → TokenCells α) (xs : List β) :
    (xs.flatMap fun x => (g x).toList).length = groupColumns * xs.length := by
  induction xs with
  | nil => rfl
  | cons x xs ih =>
    have hg : (g x).toList.length = groupColumns := rfl
    rw [List.flatMap_cons, List.length_append, ih, hg, List.length_cons, Nat.mul_succ, Nat.add_comm]

end Groups

/-- What is written in the six columns of a holding. -/
def holdingTexts (h : Holding) : TokenCells String :=
  (amounts h.position).map (Amount.render h.precision)

theorem cells_eq (a : Account) :
    cells a = toString a.index :: a.id ::
      (a.holdings.flatMap fun h => (holdingTexts h).toList) ++ [totalPlaceholder] := rfl

theorem length_header (tokens : List String) :
    (header tokens).length = leadingColumns + 1 + groupColumns * tokens.length := by
  have hl := length_flatMap_toList headings tokens
  simp only [header, List.length_append, List.length_cons, List.length_nil, leadingColumns, hl]
  omega

theorem length_cells (a : Account) :
    (cells a).length = leadingColumns + 1 + groupColumns * a.holdings.length := by
  have hl := length_flatMap_toList holdingTexts a.holdings
  simp only [cells_eq, List.length_append, List.length_cons, List.length_nil, leadingColumns, hl]
  omega

theorem getLast?_header (tokens : List String) : (header tokens).getLast? = some totalColumn :=
  List.getLast?_concat

theorem groups_header (tokens : List String) :
    groups ((header tokens).drop leadingColumns) = tokens.map headings :=
  (groups_flatMap headings tokens [totalColumn]).trans (List.append_nil _)

theorem groups_holdings (holdings : List Holding) :
    groups ((holdings.flatMap fun h => (holdingTexts h).toList) ++ [totalPlaceholder]) =
      holdings.map holdingTexts :=
  (groups_flatMap holdingTexts holdings [totalPlaceholder]).trans (List.append_nil _)

theorem begun_header (tokens : List String) : Begun (header tokens) := ⟨"rn", _, rfl, by decide⟩

theorem begun_cells (a : Account) : Begun (cells a) := by
  refine ⟨toString a.index, _, rfl, ?_⟩
  intro h
  rw [encode_eq, Text.toList_toString] at h
  exact Text.digits_ne_nil a.index (bytesOf_eq_nil h)

/-- The first byte of a written sheet is a letter, not the beginning of a mark. -/
theorem withoutMark_header (tokens : List String) (rows : List (List String)) :
    withoutMark (bytesOf ((header tokens :: rows).map writeRecord).flatten) =
      bytesOf ((header tokens :: rows).map writeRecord).flatten := by
  obtain ⟨bytes, hb⟩ :
      ∃ bytes, bytesOf ((header tokens :: rows).map writeRecord).flatten = 114 :: bytes :=
    ⟨_, rfl⟩
  rw [hb]
  rfl

/-- The records of a sheet in which every account holds as many tokens as the header names. -/
theorem records_write {tokens : List String} {accounts : List Account}
    (h : ∀ a ∈ accounts, a.holdings.length = tokens.length) :
    ∃ text, write tokens accounts = .ok text ∧
      Sheet.records (encode text) = (header tokens :: accounts.map cells).map (List.map encode) := by
  have hwidth : ∀ row ∈ accounts.map cells, row.length = (header tokens).length := by
    intro row hrow
    obtain ⟨a, ha, rfl⟩ := List.mem_map.mp hrow
    rw [length_cells, length_header, h a ha]
  have hbegun : ∀ row ∈ header tokens :: accounts.map cells, Begun row := by
    intro row hrow
    rcases List.mem_cons.mp hrow with rfl | hrow
    · exact begun_header tokens
    · obtain ⟨a, _, rfl⟩ := List.mem_map.mp hrow
      exact begun_cells a
  refine ⟨_, write_eq_ok hwidth, ?_⟩
  rw [encode_ofList]
  exact records_written hbegun (withoutMark_header tokens _)

end Solvency.Layout
