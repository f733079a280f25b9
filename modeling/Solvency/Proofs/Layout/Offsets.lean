import Mathlib
import Solvency.Layout

/-! # Where the columns of a group stand

The groups of a row are counted by its width alone. The six columns of a group stand next to each
other behind the leading columns and the groups before it, and the total stands behind all of them.
-/
namespace Solvency.Layout
variable {α : Type}

/-- The groups that a row of so many columns has room for between its numbers and its total. -/
def groupCount (columns : Nat) : Nat := (columns - (leadingColumns + 1)) / groupColumns

/-- The column of a row that stands at an offset of one of its groups. -/
def columnAt (group offset : Nat) : Nat := leadingColumns + groupColumns * group + offset

/-- The offset of the net balance, and of the bare symbol in a header. -/
def netOffset : Nat := 2

theorem leadingColumns_le_columnAt (group offset : Nat) :
    leadingColumns ≤ columnAt group offset := by
  unfold columnAt
  omega

/-- Two columns of groups are the same only at the same place. -/
theorem columnAt_inj {group other offset offset' : Nat} (ho : offset < groupColumns)
    (ho' : offset' < groupColumns) (h : columnAt group offset = columnAt other offset') :
    group = other ∧ offset = offset' := by
  unfold columnAt groupColumns at *
  omega

theorem length_groups (xs : List α) : (groups xs).length = xs.length / groupColumns := by
  fun_induction groups xs with
  | case1 equity debt net vipLoan crossMargin portfolioMargin rest ih =>
    simp only [List.length_cons, ih, groupColumns]
    omega
  | case2 xs hshort =>
    rcases xs with _ | ⟨a, _ | ⟨b, _ | ⟨c, _ | ⟨d, _ | ⟨e, _ | ⟨f, rest⟩⟩⟩⟩⟩⟩
    case cons.cons.cons.cons.cons.cons => exact (hshort _ _ _ _ _ _ _ rfl).elim
    all_goals simp [groupColumns]

/-- The columns of a group are those that it was cut from. -/
theorem getElem?_toList_groups {xs : List α} {group : Nat} {g : TokenCells α}
    (hg : (groups xs)[group]? = some g) {offset : Nat} (ho : offset < groupColumns) :
    g.toList[offset]? = xs[groupColumns * group + offset]? := by
  fun_induction groups xs generalizing group with
  | case1 equity debt net vipLoan crossMargin portfolioMargin rest ih =>
    cases group with
    | zero =>
      cases hg
      have hw : offset < 6 := ho
      interval_cases offset <;> rfl
    | succ group =>
      rw [List.getElem?_cons_succ] at hg
      rw [ih hg, show groupColumns * (group + 1) + offset =
        groupColumns * group + offset + 1 + 1 + 1 + 1 + 1 + 1 by unfold groupColumns; omega]
      rfl
  | case2 xs hshort => cases hg

/-- Groups that agree at some of their offsets. -/
def TokenCells.SameAt (p : Nat → Prop) (g k : TokenCells α) : Prop :=
  ∀ offset < groupColumns, p offset → g.toList[offset]? = k.toList[offset]?

/-- Rows of one width that agree at some offsets of every group are cut into groups that do. -/
theorem forall₂_groups {p : Nat → Prop} {xs ys : List α} (hlen : xs.length = ys.length)
    (h : ∀ group < xs.length / groupColumns, ∀ offset < groupColumns, p offset →
      xs[groupColumns * group + offset]? = ys[groupColumns * group + offset]?) :
    List.Forall₂ (TokenCells.SameAt p) (groups xs) (groups ys) := by
  refine List.forall₂_iff_get.mpr ⟨by rw [length_groups, length_groups, hlen], ?_⟩
  intro group hx hy offset ho hp
  have hcut : group < xs.length / groupColumns := length_groups xs ▸ hx
  rw [List.get_eq_getElem, List.get_eq_getElem,
    getElem?_toList_groups (List.getElem?_eq_getElem hx) ho,
    getElem?_toList_groups (List.getElem?_eq_getElem hy) ho]
  exact h group hcut offset ho hp

/-- The width of a row that consists of numbers, whole groups and a total. -/
def Grouped (columns : Nat) : Prop :=
  columns = leadingColumns + 1 + groupColumns * groupCount columns

theorem grouped_iff {columns : Nat} :
    Grouped columns ↔ ¬(columns < leadingColumns + 1 ∨
      (columns - (leadingColumns + 1)) % groupColumns ≠ 0) := by
  unfold Grouped groupCount groupColumns leadingColumns
  omega

/-- The total stands behind the last group and begins no other one. -/
theorem drop_div_groupColumns {columns : Nat} (hw : Grouped columns) :
    (columns - leadingColumns) / groupColumns = groupCount columns := by
  unfold Grouped groupColumns leadingColumns at *
  omega

theorem forall₂_groups_drop {p : Nat → Prop} {xs ys : List α} {columns : Nat}
    (hw : Grouped columns) (hx : xs.length = columns) (hy : ys.length = columns)
    (h : ∀ group < groupCount columns, ∀ offset < groupColumns, p offset →
      xs[columnAt group offset]? = ys[columnAt group offset]?) :
    List.Forall₂ (TokenCells.SameAt p) (groups (xs.drop leadingColumns))
      (groups (ys.drop leadingColumns)) := by
  have hcount : (xs.drop leadingColumns).length / groupColumns = groupCount columns := by
    rw [List.length_drop, hx, drop_div_groupColumns hw]
  refine forall₂_groups (by rw [List.length_drop, List.length_drop, hx, hy]) ?_
  intro group hg offset ho hp
  rw [List.getElem?_drop, List.getElem?_drop, ← Nat.add_assoc]
  exact h group (hcount ▸ hg) offset ho hp

/-- A group that is cut from the six columns in its place. -/
structure StandsAt (xs : List α) (group : Nat) (g : TokenCells α) : Prop where
  counted : group < groupCount xs.length
  column_eq : ∀ offset < groupColumns, xs[columnAt group offset]? = g.toList[offset]?

theorem forall₂_standsAt {xs : List α} (hw : Grouped xs.length) :
    List.Forall₂ (StandsAt xs) (List.range (groupCount xs.length))
      (groups (xs.drop leadingColumns)) := by
  have hcount : (groups (xs.drop leadingColumns)).length = groupCount xs.length := by
    rw [length_groups, List.length_drop, drop_div_groupColumns hw]
  refine List.forall₂_iff_get.mpr ⟨by rw [List.length_range, hcount], ?_⟩
  intro group hr hcut
  have hgroup : group < groupCount xs.length := by rwa [← hcount]
  rw [List.get_eq_getElem, List.getElem_range]
  refine ⟨hgroup, fun offset ho => ?_⟩
  rw [List.get_eq_getElem, getElem?_toList_groups (List.getElem?_eq_getElem hcut) ho,
    List.getElem?_drop, ← Nat.add_assoc]
  rfl

/-- A row that is long enough begins with a number and an id. -/
theorem exists_leading {xs : List α} (h : leadingColumns ≤ xs.length) :
    ∃ number id rest, xs = number :: id :: rest := by
  rcases xs with _ | ⟨number, _ | ⟨id, rest⟩⟩
  · exact absurd h (by simp [leadingColumns])
  · exact absurd h (by simp [leadingColumns])
  · exact ⟨number, id, rest, rfl⟩

end Solvency.Layout
