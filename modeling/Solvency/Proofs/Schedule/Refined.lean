import Solvency.Proofs.Schedule.Closed

/-! # One bracket more

A value is weighed by its parts, so that a further bracket matters only by the parts it cuts. A bracket
above the top takes over the part that only the extended policy counts. One inside another cuts a
single part in two, and as each is rounded down on its own, at most one is lost.
-/
namespace Solvency

theorem Percent.hundredth_add_le (percent : Percent) (v w : Nat) :
    v * percent.val / 100 + w * percent.val / 100 ≤ (v + w) * percent.val / 100 := by
  rw [Nat.add_mul]
  exact Nat.div_add_div_le_add_div

theorem Percent.hundredth_add_lt (percent : Percent) (v w : Nat) :
    (v + w) * percent.val / 100 < v * percent.val / 100 + w * percent.val / 100 + 2 := by
  rw [Nat.add_mul]
  omega

namespace Schedule

/-- How far the brackets reach. -/
def reach (bs : List Bracket) : Nat := (bs.getLastD start).upTo

variable {s : Schedule} {b top : Bracket} {before after bs : List Bracket} {value lower m : Nat}

theorem getLastD_append_cons (before after : List Bracket) (b d : Bracket) :
    (before ++ b :: after).getLastD d = after.getLastD b := by
  induction before generalizing d with
  | nil => exact List.getLastD_cons
  | cons c before ih => rw [List.cons_append, List.getLastD_cons, ih]

theorem le_reach (h : bs.Pairwise fun a b => a.upTo < b.upTo) (hb : b ∈ bs) : b.upTo ≤ reach bs := by
  obtain ⟨init, last, rfl⟩ : ∃ init last, bs = init ++ [last] :=
    ⟨_, _, (List.dropLast_concat_getLast (List.ne_nil_of_mem hb)).symm⟩
  rw [reach, getLastD_append_cons]
  rcases List.mem_append.mp hb with hb | hb
  · exact ((List.pairwise_append.mp h).2.2 b hb last List.mem_cons_self).le
  · exact (List.mem_singleton.mp hb ▸ le_rfl)

theorem ofBrackets?_eq_some (h : bs.Pairwise fun a b => a.upTo < b.upTo) :
    ofBrackets? bs = some ⟨bs, h⟩ := dif_pos h

theorem increasing_append (h : bs.Pairwise fun a b => a.upTo < b.upTo)
    (hb : ∀ a ∈ bs, a.upTo < b.upTo) : (bs ++ [b]).Pairwise fun a b => a.upTo < b.upTo := by
  refine List.pairwise_append.mpr ⟨h, List.pairwise_singleton _ _, fun a ha c hc => ?_⟩
  rw [List.mem_singleton.mp hc]
  exact hb a ha

/-- The brackets behind others begin where those end. -/
theorem partsFrom_append (value : Nat) (behind : Bracket) (before after : List Bracket) :
    partsFrom value behind.upTo (before ++ after) =
      partsFrom value behind.upTo before ++ partsFrom value (before.getLastD behind).upTo after := by
  induction before generalizing behind with
  | nil => rfl
  | cons b before ih =>
    rw [List.cons_append, partsFrom_cons, ih, List.getLastD_cons, partsFrom_cons, List.cons_append]

/-- What a value has above all brackets is in none of them. -/
theorem partsFrom_min {limit : Nat} (hl : lower ≤ limit) (h : ∀ b ∈ bs, b.upTo ≤ limit) :
    partsFrom (min value limit) lower bs = partsFrom value lower bs := by
  have hmin : ∀ {x}, x ≤ limit → min (min value limit) x = min value x := by
    intro x hx
    rw [min_assoc, min_eq_right hx]
  induction bs generalizing lower with
  | nil => rfl
  | cons b bs ih =>
    obtain ⟨hb, hbs⟩ := List.forall_mem_cons.mp h
    rw [partsFrom_cons, partsFrom_cons, ih hb hbs, hmin hb, hmin hl]

theorem parts_min (h : ∀ b ∈ s.brackets, b.upTo ≤ m) (value : Nat) :
    s.parts (min value m) = s.parts value := partsFrom_min (Nat.zero_le m) h

theorem topBracket_eq (hs : s.brackets.getLast? = some top) : s.topBracket = top := by
  rw [topBracket, List.getLastD_eq_getLast?, hs]
  rfl

theorem le_top (hs : s.brackets.getLast? = some top) : ∀ b ∈ s.brackets, b.upTo ≤ top.upTo := by
  intro b hb
  rw [← topBracket_eq hs]
  exact le_reach s.increasing hb

section Topped
variable [Arithmetic]

theorem weigh_capped_eq (hv : value < valueLimit) (hw : s.WeighsWhole value) :
    s.weigh .capped value = ((s.parts value).map Part.weight).sum := by
  rw [weigh_eq_parts .capped hv hw, hundredths_excess_capped]
  rfl

theorem weigh_capped_min (hs : s.brackets.getLast? = some top) (hv : value < valueLimit)
    (hw : s.WeighsWhole value) : s.weigh .capped value = s.weigh .capped (min value top.upTo) := by
  have hmin : min value top.upTo < valueLimit := (min_le_left _ _).trans_lt hv
  have hparts := parts_min (le_top hs) value
  have hw' : s.WeighsWhole (min value top.upTo) := by
    rw [WeighsWhole, hparts]
    exact hw
  rw [weigh_capped_eq hv hw, weigh_capped_eq hmin hw', hparts]

theorem weigh_capped_eq_extended (hs : s.brackets.getLast? = some top) (hv : value < valueLimit)
    (hw : s.WeighsWhole value) (h : value ≤ top.upTo) :
    s.weigh .capped value = s.weigh .extended value := by
  have hnone : (s.excess .extended value).hundredths = 0 := by
    apply Part.hundredths_eq_zero
    rw [excess, topBracket_eq hs, partAbove, min_eq_left h, Nat.sub_self]
  rw [weigh_capped_eq hv hw, weigh_eq_parts .extended hv hw, hnone]
  rfl

/-- With a bracket above the top that the value does not pass, the capped policy counts what the
extended one does. -/
theorem weigh_capped_appended (hs : s.brackets.getLast? = some top) (hv : value < valueLimit)
    (hw : s.WeighsWhole value) (h : top.upTo < value)
    (hfits : (value - top.upTo) * top.percent.val < valueLimit)
    {t : Schedule} (ht : t.brackets = s.brackets ++ [b]) (hpercent : b.percent = top.percent)
    (hb : value ≤ b.upTo) : t.weigh .capped value = s.weigh .extended value := by
  have hexcess : (s.excess .extended value).hundredths = (value - top.upTo) * top.percent.val := by
    rw [excess, topBracket_eq hs, partAbove, Part.hundredths, min_eq_right h.le]
    rfl
  have hparts : t.parts value = s.parts value ++ [⟨top.percent, value - top.upTo⟩] := by
    have hlast : s.brackets.getLastD start = top := topBracket_eq hs
    have happend := partsFrom_append value start s.brackets [b]
    rw [partsFrom_cons, partsFrom_nil, hlast, min_eq_left hb, min_eq_right h.le, hpercent] at happend
    rw [parts, ht]
    exact happend
  have hw' : t.WeighsWhole value := by
    intro p hp
    rw [hparts, List.mem_append, List.mem_singleton] at hp
    rcases hp with hp | rfl
    · exact hw p hp
    · exact whole_of_lt hfits
  rw [weigh_capped_eq hv hw', weigh_eq_parts .extended hv hw, hexcess, saturate_of_lt hfits,
    hparts, List.map_append, List.sum_append]
  rfl

/-- Capping a value at the top is what the capped policy does, and the extended one is the capped one
with a last bracket that goes on above the value. -/
theorem weigh_topped (hs : s.brackets.getLast? = some top) (hv : value < valueLimit)
    (hw : s.WeighsWhole value) :
    s.weigh .capped value = s.weigh .capped (min value top.upTo) ∧
    (value ≤ top.upTo → s.weigh .capped value = s.weigh .extended value) ∧
    (top.upTo < value → (value - top.upTo) * top.percent.val < valueLimit →
      ∀ upTo, value ≤ upTo →
        ∃ t, ofBrackets? (s.brackets ++ [⟨upTo, top.percent⟩]) = some t ∧
          t.weigh .capped value = s.weigh .extended value) := by
  refine ⟨weigh_capped_min hs hv hw, weigh_capped_eq_extended hs hv hw, ?_⟩
  intro h hfits upTo hupTo
  have habove : ∀ a ∈ s.brackets, a.upTo < upTo := fun a ha =>
    (le_top hs a ha).trans_lt (h.trans_le hupTo)
  have hinc := increasing_append s.increasing (b := ⟨upTo, top.percent⟩) habove
  exact ⟨_, ofBrackets?_eq_some hinc, weigh_capped_appended hs hv hw h hfits rfl rfl hupTo⟩

end Topped

/-- Narrow brackets, so that every part is rounded. -/
def narrowSchedule : Schedule :=
  ⟨[⟨4, 60, by decide⟩, ⟨10, 65, by decide⟩, ⟨20, 35, by decide⟩], by decide⟩

/-- Thirteen above the top, which count for four. -/
theorem narrowSchedule_topped :
    narrowSchedule.brackets.getLast? = some ⟨20, 35, by decide⟩ ∧ 33 < valueLimit ∧
    narrowSchedule.WeighsWhole 33 ∧ narrowSchedule.WeighsWhole 15 ∧ 15 ≤ 20 ∧ 20 < 33 ∧
    (33 - 20) * 35 < valueLimit ∧ 33 ≤ 40 ∧
    narrowSchedule.weigh .capped 33 = narrowSchedule.weigh .capped 20 ∧
    narrowSchedule.weigh .capped 15 = narrowSchedule.weigh .extended 15 ∧
    (∃ t, ofBrackets? (narrowSchedule.brackets ++ [⟨40, 35, by decide⟩]) = some t ∧
      t.weigh .capped 33 = narrowSchedule.weigh .extended 33) ∧
    narrowSchedule.weigh .extended 33 = narrowSchedule.weigh .capped 33 + 4 := by
  have htop : narrowSchedule.brackets.getLast? = some ⟨20, 35, by decide⟩ := rfl
  have hv : 33 < valueLimit := by decide
  have hfits : (33 - 20) * 35 < valueLimit := by decide
  have hw : narrowSchedule.WeighsWhole 33 := by decide
  have hw' : narrowSchedule.WeighsWhole 15 := by decide
  obtain ⟨hmin, -, happended⟩ := weigh_topped htop hv hw
  obtain ⟨-, hsame, -⟩ := weigh_topped htop (show 15 < valueLimit by decide) hw'
  exact ⟨htop, hv, hw, hw', by decide, by decide, hfits, by decide, hmin, hsame (by decide),
    happended (by decide) hfits 40 (by decide), by decide⟩

/-- A bracket inside another keeps the boundaries in order. -/
theorem increasing_split (h : (before ++ b :: after).Pairwise fun a b => a.upTo < b.upTo)
    (hlower : reach before < m) (hupper : m < b.upTo) :
    (before ++ ⟨m, b.percent⟩ :: b :: after).Pairwise fun a b => a.upTo < b.upTo := by
  obtain ⟨hbefore, hafter, hcross⟩ := List.pairwise_append.mp h
  obtain ⟨hb, -⟩ := List.pairwise_cons.mp hafter
  refine List.pairwise_append.mpr ⟨hbefore, List.pairwise_cons.mpr ⟨?_, hafter⟩, ?_⟩
  · exact List.forall_mem_cons.mpr ⟨hupper, fun c hc => hupper.trans (hb c hc)⟩
  · intro a ha
    exact List.forall_mem_cons.mpr ⟨(le_reach hbefore ha).trans_lt hlower, hcross a ha⟩

/-- The parts of a value around the one in the bracket `b`. -/
theorem parts_around (hs : s.brackets = before ++ b :: after) (value : Nat) :
    s.parts value = partsFrom value 0 before ++
      ⟨b.percent, min value b.upTo - min value (reach before)⟩ :: partsFrom value b.upTo after := by
  rw [parts, hs]
  exact partsFrom_append value start before (b :: after)

section Split
variable [Arithmetic]

/-- Both parts of a bracket that is cut are narrower than the bracket. -/
theorem WeighsWhole.split (hw : s.WeighsWhole value) (hs : s.brackets = before ++ b :: after)
    {t : Schedule} (ht : t.brackets = before ++ ⟨m, b.percent⟩ :: b :: after)
    (hlower : reach before < m) (hupper : m < b.upTo) : t.WeighsWhole value := by
  rw [WeighsWhole, parts_around hs, List.forall_mem_append, List.forall_mem_cons] at hw
  obtain ⟨hbefore, hb, hafter⟩ := hw
  rw [WeighsWhole, parts_around ht, partsFrom_cons, List.forall_mem_append, List.forall_mem_cons,
    List.forall_mem_cons]
  have hbelow : min value m - min value (reach before) ≤
    min value b.upTo - min value (reach before) := by omega
  have habove : min value b.upTo - min value m ≤
    min value b.upTo - min value (reach before) := by omega
  exact ⟨hbefore, hb.of_le (Nat.mul_le_mul_right _ hbelow),
    hb.of_le (Nat.mul_le_mul_right _ habove), hafter⟩

end Split

/-- One bracket of full weight, in which a value has no room for its percentage. -/
def wideSchedule : Schedule := ⟨[⟨Nat.pow 2 127, Fin.last 100⟩], by decide⟩

end Schedule
end Solvency
