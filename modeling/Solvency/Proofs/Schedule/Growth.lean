import Solvency.Proofs.Checked
import Solvency.Proofs.Schedule.Closed
import Solvency.Proofs.Schedule.Order

/-! # Weights grow no faster than values

A larger value has no less in any bracket, nor above the top, and in all of them together no more
than the values differ by. Where the products are whole, a weight therefore neither falls when its
value rises nor rises by more than its value, whatever the percentages do from bracket to bracket.
-/
namespace Solvency

theorem Percent.mul_le_add (percent : Percent) (v w : Nat) :
    w * percent.val ≤ v * percent.val + 100 * (w - v) := by
  calc
    w * percent.val ≤ (v + (w - v)) * percent.val := Nat.mul_le_mul_right percent.val (by omega)
    _ = v * percent.val + (w - v) * percent.val := Nat.add_mul _ _ _
    _ ≤ v * percent.val + (w - v) * 100 :=
      Nat.add_le_add_left (Nat.mul_le_mul_left (w - v) percent.val_le) _
    _ = v * percent.val + 100 * (w - v) := by rw [Nat.mul_comm 100]

theorem saturate_le_add {m n k : Nat} (h : m ≤ n + k) : saturate m ≤ saturate n + k := by
  unfold saturate
  omega

namespace Schedule

/-- At the same percentage, and no less wide. -/
def Part.Widens (p q : Part) : Prop := p.percent = q.percent ∧ p.width ≤ q.width

variable {policy : TopPolicy} {total last v w : Nat} {behind : Bracket} {bs : List Bracket}

namespace Part.Widens
variable {p q : Part}

theorem hundredths_le (h : p.Widens q) : p.hundredths ≤ q.hundredths := by
  rw [hundredths, hundredths, h.1]
  exact Nat.mul_le_mul_right _ h.2

theorem weight_le (h : p.Widens q) : p.weight ≤ q.weight := Nat.div_le_div_right h.hundredths_le

theorem hundredths_le_add (h : p.Widens q) :
    q.hundredths ≤ p.hundredths + 100 * (q.width - p.width) := by
  rw [hundredths, hundredths, h.1]
  exact q.percent.mul_le_add p.width q.width

/-- Rounding down does not let weights drift apart further than the widths do. -/
theorem weight_le_add (h : p.Widens q) : q.weight ≤ p.weight + (q.width - p.width) := by
  have hwide := h.hundredths_le_add
  unfold weight
  omega

end Part.Widens

theorem partsFrom_widens (h : Walk total last bs) (hvw : v ≤ w) :
    List.Forall₂ Part.Widens (partsFrom v last bs) (partsFrom w last bs) := by
  induction bs generalizing total last with
  | nil => exact .nil
  | cons b bs ih =>
    have hlast := h.above b List.mem_cons_self
    refine .cons ⟨rfl, ?_⟩ (ih (h.skip le_rfl))
    show min v b.upTo - min v last ≤ min w b.upTo - min w last
    omega

theorem partAbove_widens (b : Bracket) (hvw : v ≤ w) :
    (partAbove policy v b).Widens (partAbove policy w b) := by
  refine ⟨rfl, ?_⟩
  show v - min v b.upTo ≤ w - min w b.upTo
  omega

/-- What the parts gain in weight they have gained in width, which is no more than the values differ
by from `behind` on. -/
theorem sum_weight_le_add (h : Walk total behind.upTo bs) (hvw : v ≤ w) :
    ((partsFrom w behind.upTo bs).map Part.weight).sum +
        saturate (partAbove policy w (bs.getLastD behind)).hundredths / 100 ≤
      ((partsFrom v behind.upTo bs).map Part.weight).sum +
        saturate (partAbove policy v (bs.getLastD behind)).hundredths / 100 +
        (w - min w behind.upTo - (v - min v behind.upTo)) := by
  induction bs generalizing total behind with
  | nil =>
    have hwide : (partAbove policy v behind).Widens (partAbove policy w behind) :=
      partAbove_widens behind hvw
    have hrise := saturate_le_add hwide.hundredths_le_add
    simp only [partsFrom_nil, List.map_nil, List.sum_nil, List.getLastD_nil]
    simp only [partAbove] at hrise ⊢
    omega
  | cons b bs ih =>
    have hlast := h.above b List.mem_cons_self
    have hrest := ih (h.skip le_rfl)
    obtain ⟨hhead, -⟩ := List.forall₂_cons.mp (partsFrom_widens h hvw)
    have hpart := hhead.weight_le_add
    simp only [List.getLastD_cons, partsFrom_cons, List.map_cons, List.sum_cons] at hrest hpart ⊢
    omega

section
variable [Arithmetic] {s : Schedule}

/-- A smaller value has room where a larger one has. -/
theorem WeighsWhole.of_le (hw : s.WeighsWhole w) (hvw : v ≤ w) : s.WeighsWhole v := by
  intro p hp
  obtain ⟨q, hq, hpq⟩ := exists_of_forall₂ (partsFrom_widens (Walk.start s) hvw).flip hp
  exact (hw q hq).of_le (Part.Widens.hundredths_le hpq)

theorem weigh_mono (hlt : w < valueLimit) (hw : s.WeighsWhole w) (hvw : v ≤ w) :
    s.weigh policy v ≤ s.weigh policy w := by
  rw [weigh_eq_parts policy (hvw.trans_lt hlt) (hw.of_le hvw), weigh_eq_parts policy hlt hw]
  have hparts : ((s.parts v).map Part.weight).sum ≤ ((s.parts w).map Part.weight).sum :=
    sum_le_sum_of_forall₂ (fun _ _ h => h.weight_le) (partsFrom_widens (Walk.start s) hvw)
  have habove : (s.excess policy v).hundredths ≤ (s.excess policy w).hundredths :=
    (partAbove_widens s.topBracket hvw).hundredths_le
  exact Nat.add_le_add hparts (Nat.div_le_div_right (saturate_mono habove))

theorem weigh_le_add (hlt : w < valueLimit) (hw : s.WeighsWhole w) (hvw : v ≤ w) :
    s.weigh policy w ≤ s.weigh policy v + (w - v) := by
  rw [weigh_eq_parts policy (hvw.trans_lt hlt) (hw.of_le hvw), weigh_eq_parts policy hlt hw]
  have hrise : _ ≤ _ + (w - min w 0 - (v - min v 0)) :=
    @sum_weight_le_add policy 0 v w start s.brackets (Walk.start s) hvw
  rw [Nat.min_zero, Nat.min_zero] at hrise
  exact hrise

end

end Schedule
end Solvency
