import Solvency.Proofs.Schedule.Entry
import Solvency.Proofs.Schedule.Refined
import Solvency.Proofs.Schedule.Wording

/-! # The ranges that count

A lower bound is only compared with its own upper bound. A value is weighed as if every range went on
from the one before it, the first one from zero: by the ranges that are written where these tile the
values up to the top, and by others where they have gaps or overlap.
-/
namespace Solvency.Schedule
open Text

/-- The segment is read as the entry. -/
def ReadAs (segment : List Char) (e : Entry) : Prop :=
  ∃ w : Wording, trim segment = w.text ∧ bound? w.lower = some e.lower ∧
    bound? w.upper = some e.upper ∧ (percent? w.percent).map Fin.val = some e.percent

namespace Entry

/-- The unit of value above `x` lies in the range of the entry. -/
def Covers (multiplier : Nat) (e : Entry) (x : Nat) : Prop :=
  e.lower * multiplier ≤ x ∧ x < e.upper * multiplier

/-- What a value has in the range of the entry, at its percentage. -/
def share (multiplier value : Nat) (e : Entry) : Nat :=
  (min value (e.upper * multiplier) - min value (e.lower * multiplier)) * e.percent / 100

end Entry

/-- Each entry begins where the one before it ends. -/
def Tiled (lower : Nat) : List Entry → Prop
  | [] => True
  | e :: es => e.lower = lower ∧ Tiled e.upper es

/-- The entries with the lower bounds that tile. -/
def retiled (lower : Nat) : List Entry → List Entry
  | [] => []
  | e :: es => { e with lower := lower } :: retiled e.upper es

/-- Up to its top the schedule weighs by these ranges, which have no gap and no overlap. Nothing is
said of a value for which a product overflows. -/
structure WeighsBy [Arithmetic] (s : Schedule) (multiplier : Nat) (ranges : List Entry) : Prop where
  weigh_eq : ∀ top, s.top? = some top → ∀ policy, ∀ value ≤ top, s.WeighsWhole value →
    s.weigh policy value = (ranges.map (Entry.share multiplier value)).sum
  existsUnique : ∀ top, s.top? = some top → ∀ x < top,
    ∃! e, e ∈ ranges ∧ e.Covers multiplier x

variable {text : String} {segment : List Char} {multiplier row lower x : Nat} {s : Schedule}
  {b : Bracket} {e : Entry} {entries : List Entry}

theorem retiled_of_tiled (h : Tiled lower entries) : retiled lower entries = entries := by
  induction entries generalizing lower with
  | nil => rfl
  | cons e es ih =>
    obtain ⟨rfl, hes⟩ := h
    rw [retiled, ih hes]

theorem Entry.val_percent_bracket (h : e.percent ≤ 100) :
    (e.bracket multiplier).percent.val = e.percent := Nat.mod_eq_of_lt (Nat.lt_succ_of_le h)

/-- The parts of a value are its shares in the ranges that tile. -/
theorem map_weight_partsFrom (h : ∀ e ∈ entries, e.percent ≤ 100) (value : Nat) :
    (partsFrom value (lower * multiplier) (entries.map (Entry.bracket multiplier))).map Part.weight =
      (retiled lower entries).map (Entry.share multiplier value) := by
  induction entries generalizing lower with
  | nil => rfl
  | cons e es ih =>
    obtain ⟨he, hes⟩ := List.forall_mem_cons.mp h
    rw [List.map_cons, partsFrom_cons, List.map_cons, retiled, List.map_cons]
    congr 1
    · rw [Part.weight, Part.hundredths, Entry.val_percent_bracket he]
      rfl
    · exact ih hes

/-- What is below all ranges that follow is in none of them. -/
theorem not_covers_of_lt (h : (lower :: entries.map Entry.upper).Pairwise (· ≤ ·))
    (hx : x < lower * multiplier) : ∀ e ∈ retiled lower entries, ¬ e.Covers multiplier x := by
  induction entries generalizing lower with
  | nil => exact fun _ he => absurd he List.not_mem_nil
  | cons e es ih =>
    obtain ⟨hlower, hrest⟩ := List.pairwise_cons.mp h
    have he := Nat.mul_le_mul_right multiplier (hlower e.upper List.mem_cons_self)
    exact List.forall_mem_cons.mpr ⟨fun hc => absurd hc.1 hx.not_ge, ih hrest (hx.trans_le he)⟩

/-- The unit above `x` lies in the first range that ends above it. -/
theorem existsUnique_covers (h : (lower :: entries.map Entry.upper).Pairwise (· ≤ ·))
    (hlower : lower * multiplier ≤ x) (hx : ∃ e ∈ entries, x < e.upper * multiplier) :
    ∃! e, e ∈ retiled lower entries ∧ e.Covers multiplier x := by
  induction entries generalizing lower with
  | nil => simp at hx
  | cons e es ih =>
    have hrest := (List.pairwise_cons.mp h).2
    by_cases he : x < e.upper * multiplier
    · refine ⟨{ e with lower := lower }, ⟨List.mem_cons_self, hlower, he⟩, ?_⟩
      rintro f ⟨hf, hc⟩
      rcases List.mem_cons.mp hf with rfl | hf
      · rfl
      · exact absurd hc (not_covers_of_lt hrest he f hf)
    · have hbehind : ∃ f ∈ es, x < f.upper * multiplier := by
        exact ((List.exists_mem_cons_iff _ _ _).mp hx).resolve_left he
      obtain ⟨f, ⟨hf, hc⟩, hunique⟩ := ih hrest (Nat.le_of_not_lt he) hbehind
      refine ⟨f, ⟨List.mem_cons_of_mem _ hf, hc⟩, ?_⟩
      rintro g ⟨hg, hcg⟩
      rcases List.mem_cons.mp hg with rfl | hg
      · exact absurd hcg.2 he
      · exact hunique g ⟨hg, hcg⟩

theorem pairwise_upper (hs : s.brackets = entries.map (Entry.bracket multiplier)) :
    (0 :: entries.map Entry.upper).Pairwise (· ≤ ·) := by
  have hinc := s.increasing
  rw [hs, List.pairwise_map] at hinc
  refine List.pairwise_cons.mpr ⟨fun _ _ => Nat.zero_le _, List.pairwise_map.mpr ?_⟩
  exact hinc.imp fun h => (Nat.lt_of_mul_lt_mul_right h).le

theorem weighsBy_retiled [Arithmetic] (hr : s.InRange)
    (hs : s.brackets = entries.map (Entry.bracket multiplier))
    (hp : ∀ e ∈ entries, e.percent ≤ 100) : s.WeighsBy multiplier (retiled 0 entries) where
  -- up to the top the policies agree
  weigh_eq top htop policy value hv hw := by
    obtain ⟨b, hb, rfl⟩ := Option.map_eq_some_iff.mp htop
    have hlimit : value < valueLimit := hv.trans_lt (hr b (List.mem_of_getLast? hb))
    have hcapped : s.weigh .capped value =
        ((retiled 0 entries).map (Entry.share multiplier value)).sum := by
      rw [weigh_capped_eq hlimit hw, parts, hs, ← map_weight_partsFrom hp, Nat.zero_mul]
    cases policy with
    | capped => exact hcapped
    | extended => rw [← weigh_capped_eq_extended hb hlimit hw hv, hcapped]
  existsUnique top htop x hx := by
    obtain ⟨b, hb, rfl⟩ := Option.map_eq_some_iff.mp htop
    have hmem := List.mem_of_getLast? hb
    rw [hs] at hmem
    obtain ⟨e, he, rfl⟩ := List.mem_map.mp hmem
    exact existsUnique_covers (pairwise_upper hs) (by simp) ⟨e, he, hx⟩

theorem exists_readAs (h : readBracket multiplier (trim segment) = .ok b) :
    ∃ e : Entry, (ReadAs segment e ∧ e.lower ≤ e.upper ∧ e.percent ≤ 100) ∧
      e.bracket multiplier = b := by
  obtain ⟨w, low, high, hsegment, hlow, hhigh, hle, hpercent, hupTo⟩ := exists_wording h
  have hval := b.percent.val_le
  refine ⟨⟨low, high, b.percent.val⟩, ⟨⟨w, hsegment, hlow, hhigh, ?_⟩, hle, hval⟩, ?_⟩
  · rw [hpercent]
    rfl
  · obtain ⟨upTo, percent⟩ := b
    obtain rfl : upTo = high * multiplier := hupTo
    exact congrArg (Bracket.mk _) (Fin.ext (Nat.mod_eq_of_lt percent.isLt))

theorem readAs_rightUnique : Relator.RightUnique ReadAs := by
  rintro segment ⟨lower, upper, percent⟩ ⟨lower', upper', percent'⟩
    ⟨w, hw, hlower, hupper, hpercent⟩ ⟨v, hv, hlower', hupper', hpercent'⟩
  obtain rfl := Wording.text_injective (hw.symm.trans hv)
  obtain rfl : lower = lower' := Option.some.inj (hlower.symm.trans hlower')
  obtain rfl : upper = upper' := Option.some.inj (hupper.symm.trans hupper')
  obtain rfl : percent = percent' := Option.some.inj (hpercent.symm.trans hpercent')
  rfl

/-- A list is read as one list of entries. -/
theorem entries_unique {segments : List (List Char)} {es fs : List Entry}
    (he : List.Forall₂ ReadAs segments es) (hf : List.Forall₂ ReadAs segments fs) : es = fs :=
  List.right_unique_forall₂' readAs_rightUnique he hf

/-- Of the lower bounds in an accepted list nothing is left in the schedule. It weighs by the ranges
that are written if these tile. -/
theorem read_weighsBy [Arithmetic] (h : read text multiplier row = .ok s) :
    ∃ entries, List.Forall₂ ReadAs (segments text) entries ∧
      s.brackets = entries.map (Entry.bracket multiplier) ∧ (∀ e ∈ entries, e.lower ≤ e.upper) ∧
      s.WeighsBy multiplier (retiled 0 entries) ∧
      (Tiled 0 entries → s.WeighsBy multiplier entries) := by
  obtain ⟨entries, hentries, hs⟩ :=
    exists_map_eq_of_forall₂ (read_eq_ok h) fun _ _ => exists_readAs
  have hsound : ∀ e ∈ entries, e.lower ≤ e.upper ∧ e.percent ≤ 100 := by
    intro e he
    obtain ⟨_, _, _, hsound⟩ := exists_of_forall₂ hentries he
    exact hsound
  have hweighs := weighsBy_retiled (inRange_of_read h) hs.symm fun e he => (hsound e he).2
  exact ⟨entries, hentries.imp fun _ _ hw => hw.1, hs.symm, fun e he => (hsound e he).1, hweighs,
    fun htiled => retiled_of_tiled htiled ▸ hweighs⟩

/-- Two ranges that adjoin, and a value in the upper one. -/
theorem adjoiningRanges_weighed :
    ∃ s, read "[0-500:100, 500-1000:95]" 10 2 = .ok s ∧ s.top? = some 10000 ∧
      Tiled 0 [⟨0, 500, 100⟩, ⟨500, 1000, 95⟩] ∧
      s.WeighsBy 10 [⟨0, 500, 100⟩, ⟨500, 1000, 95⟩] ∧ s.WeighsWhole 7501 ∧
      s.weigh .extended 7501 = 7375 := by
  let s : Schedule := ⟨[⟨5000, 100⟩, ⟨10000, 95⟩], by decide⟩
  have hread : read "[0-500:100, 500-1000:95]" 10 2 = .ok s := rfl
  have hlist : List.Forall₂ ReadAs (segments "[0-500:100, 500-1000:95]")
      [⟨0, 500, 100⟩, ⟨500, 1000, 95⟩] := by
    let v : Wording := ⟨['0'], ['5', '0', '0'], ['1', '0', '0'], by decide, by decide⟩
    let w : Wording := ⟨['5', '0', '0'], ['1', '0', '0', '0'], ['9', '5'], by decide, by decide⟩
    exact .cons ⟨v, by decide, by decide, by decide, by decide⟩
      (.cons ⟨w, by decide, by decide, by decide, by decide⟩ .nil)
  have htiled : Tiled 0 [⟨0, 500, 100⟩, ⟨500, 1000, 95⟩] := ⟨rfl, rfl, trivial⟩
  obtain ⟨entries, hentries, -, -, -, hweighs⟩ := read_weighsBy hread
  obtain rfl := entries_unique hentries hlist
  have hw : s.WeighsWhole 7501 := by decide
  exact ⟨s, hread, rfl, htiled, hweighs htiled, hw, rfl⟩

/-- A list that begins above zero is not refused, and what is below its first range weighs like what
is in it. -/
theorem raisedRange_accepted :
    ∃ s, read "[5-10:50]" 1 2 = .ok s ∧ s.top? = some 10 ∧ s.weigh .capped 4 = 2 ∧
      ¬ ∃ entries, List.Forall₂ ReadAs (segments "[5-10:50]") entries ∧ Tiled 0 entries := by
  let s : Schedule := ⟨[⟨10, 50⟩], by decide⟩
  have hlist : List.Forall₂ ReadAs (segments "[5-10:50]") [⟨5, 10, 50⟩] := by
    let v : Wording := ⟨['5'], ['1', '0'], ['5', '0'], by decide, by decide⟩
    exact .cons ⟨v, by decide, by decide, by decide, by decide⟩ .nil
  refine ⟨s, rfl, rfl, rfl, ?_⟩
  rintro ⟨entries, hentries, htiled⟩
  obtain rfl := entries_unique hentries hlist
  exact absurd htiled.1 (by decide)

end Solvency.Schedule
