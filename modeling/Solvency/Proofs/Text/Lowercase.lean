import Solvency.Proofs.Text.Trim
import Solvency.Text.Lowercase

/-! # Lower case is reached at once

The runs of capitals and their images are kept apart by an arithmetic check on every pair of runs.
Hence lower-casing gives characters that have no further lower-case form, neither creates nor
removes blanks at the ends, and a second lower-casing changes nothing.
-/
namespace Solvency.Text

namespace CaseRun

/-- The lower-case form of the first code point of a run, and of the last. -/
def least (r : CaseRun) : Nat := (r.first + r.shift).toNat

def greatest (r : CaseRun) : Nat := (r.last + r.shift).toNat

/-- No image of `r` is a member of `s`: either the ranges are apart, or all images of `r` stand
between two members of `s`. -/
def clears (r s : CaseRun) : Bool :=
  Nat.blt r.greatest s.first || Nat.blt s.last r.least ||
    (s.stride == 2 && (r.stride == 2 || r.least == r.greatest) && decide (0 ≤ r.first + r.shift) &&
      r.least % 2 != s.first % 2)

def image (r : CaseRun) (c : Char) : Nat := (c.toNat + r.shift).toNat

theorem covers_iff {r : CaseRun} {c : Char} :
    r.covers c = true ↔
      r.first ≤ c.toNat ∧ c.toNat ≤ r.last ∧ (c.toNat - r.first) % r.stride = 0 := by
  simp [covers, and_assoc]

theorem covers_eq_false {r s : CaseRun} (h : r.clears s = true) {c d : Char}
    (hc : r.covers c = true) (hd : d.toNat = r.image c) : s.covers d = false := by
  rw [Bool.eq_false_iff, ne_eq, covers_iff]
  rintro ⟨hf, hl, hm⟩
  obtain ⟨hcf, hcl, hcm⟩ := covers_iff.mp hc
  simp only [clears, Bool.or_eq_true, Bool.and_eq_true, Nat.blt_eq, beq_iff_eq, bne_iff_ne,
    decide_eq_true_eq] at h
  unfold least greatest at h
  unfold image at hd
  rcases h with (h | h) | ⟨⟨⟨hs, hr⟩, hz⟩, hp⟩
  · omega
  · omega
  · rw [hs] at hm
    rcases hr with hr | hr
    · rw [hr] at hcm
      omega
    · omega

end CaseRun

/-- The characters lower-casing treats apart, and the blanks, as runs that map to themselves. -/
def fixedRuns : List CaseRun :=
  [⟨0x130, 0x130, 1, 0⟩, ⟨0x3a3, 0x3a3, 1, 0⟩] ++ blank.map fun run => ⟨run.1, run.2, 1, 0⟩

theorem caseRuns_clear :
    (caseRuns.all fun r => (caseRuns ++ fixedRuns).all r.clears) = true := by
  decide +kernel

theorem caseRuns_first_pos : ∀ s ∈ caseRuns ++ fixedRuns, 0 < s.first := by
  decide +kernel

/-- The character is its own lower-case form. -/
def Settled (c : Char) : Prop := c ≠ '\u0130' ∧ c ≠ 'Σ' ∧ ∀ r ∈ caseRuns, r.covers c = false

theorem Settled.lowerChar_eq {c : Char} (h : Settled c) : lowerChar c = [c] := by
  have hf : caseRuns.find? (·.covers c) = none := List.find?_eq_none.mpr (by simpa using h.2.2)
  rw [lowerChar, if_neg h.1, hf]

theorem toNat_ofNat (n : Nat) : (Char.ofNat n).toNat = n ∨ (Char.ofNat n).toNat = 0 := by
  by_cases h : n.isValidChar
  · left
    rw [Char.ofNat, dif_pos h]
    rfl
  · right
    rw [Char.ofNat, dif_neg h]
    rfl

/-- The image of a capital belongs to no run and is no blank. -/
theorem covers_image {r s : CaseRun} {c : Char} (hr : r ∈ caseRuns) (hs : s ∈ caseRuns ++ fixedRuns)
    (hc : r.covers c = true) : s.covers (Char.ofNat (r.image c)) = false := by
  rcases toNat_ofNat (r.image c) with h | h
  · exact CaseRun.covers_eq_false (List.all_eq_true.mp (List.all_eq_true.mp caseRuns_clear r hr) s hs) hc h
  · have hp := caseRuns_first_pos s hs
    rw [Bool.eq_false_iff, ne_eq, CaseRun.covers_iff]
    omega

theorem settled_image {r : CaseRun} {c : Char} (hr : r ∈ caseRuns) (hc : r.covers c = true) :
    Settled (Char.ofNat (r.image c)) := by
  refine ⟨?_, ?_, fun s hs => covers_image hr (List.mem_append_left _ hs) hc⟩
  · intro he
    have hn := covers_image (s := ⟨0x130, 0x130, 1, 0⟩) hr (by simp [fixedRuns]) hc
    rw [he] at hn
    exact absurd hn (by decide)
  · intro he
    have hn := covers_image (s := ⟨0x3a3, 0x3a3, 1, 0⟩) hr (by simp [fixedRuns]) hc
    rw [he] at hn
    exact absurd hn (by decide)

theorem isBlank_image {r : CaseRun} {c : Char} (hr : r ∈ caseRuns) (hc : r.covers c = true) :
    isBlank (Char.ofNat (r.image c)) = false := by
  simp only [isBlank, CharSet.has, List.any_eq_false, Bool.and_eq_true, decide_eq_true_eq]
  rintro run hrun ⟨hf, hl⟩
  have hmem : (⟨run.1, run.2, 1, 0⟩ : CaseRun) ∈ caseRuns ++ fixedRuns :=
    List.mem_append_right _ (List.mem_append_right _ (List.mem_map.mpr ⟨run, hrun, rfl⟩))
  have hn := covers_image hr hmem hc
  rw [Bool.eq_false_iff, ne_eq, CaseRun.covers_iff] at hn
  exact hn ⟨hf, hl, Nat.mod_one _⟩

/-- A character other than the sigma is lowered to two characters, to its image, or not at all. -/
theorem lowerChar_cases (c : Char) :
    lowerChar c = ['i', '\u0307'] ∨
    (∃ r ∈ caseRuns, r.covers c = true ∧ lowerChar c = [Char.ofNat (r.image c)]) ∨
    (c ≠ '\u0130' ∧ (∀ r ∈ caseRuns, r.covers c = false) ∧ lowerChar c = [c]) := by
  unfold lowerChar
  by_cases hi : c = '\u0130'
  · exact Or.inl (if_pos hi)
  · rw [if_neg hi]
    cases hf : caseRuns.find? (·.covers c) with
    | some r =>
      have hr : r.covers c = true := List.find?_some (p := fun r : CaseRun => r.covers c) hf
      exact Or.inr (Or.inl ⟨r, List.mem_of_find?_eq_some hf, hr, rfl⟩)
    | none =>
      exact Or.inr (Or.inr ⟨hi, by simpa using List.find?_eq_none.mp hf, rfl⟩)

theorem settled_of_mem_lowerChar {c d : Char} (hc : c ≠ 'Σ') (hd : d ∈ lowerChar c) : Settled d := by
  rcases lowerChar_cases c with h | ⟨r, hr, hcov, h⟩ | ⟨hi, hn, h⟩
  · rw [h, List.mem_pair] at hd
    rcases hd with rfl | rfl
    · exact ⟨by decide, by decide, by decide +kernel⟩
    · exact ⟨by decide, by decide, by decide +kernel⟩
  · rw [h, List.mem_singleton] at hd
    exact hd ▸ settled_image hr hcov
  · rw [h, List.mem_singleton] at hd
    exact hd ▸ ⟨hi, hc, hn⟩

theorem isBlank_of_mem_lowerChar {c d : Char} (hc : isBlank c = false) (hd : d ∈ lowerChar c) :
    isBlank d = false := by
  rcases lowerChar_cases c with h | ⟨r, hr, hcov, h⟩ | ⟨_, _, h⟩
  · rw [h, List.mem_pair] at hd
    rcases hd with rfl | rfl <;> decide
  · rw [h, List.mem_singleton] at hd
    exact hd ▸ isBlank_image hr hcov
  · rw [h, List.mem_singleton] at hd
    exact hd ▸ hc

theorem lowerChar_ne_nil (c : Char) : lowerChar c ≠ [] := by
  rcases lowerChar_cases c with h | ⟨_, _, _, h⟩ | ⟨_, _, h⟩
  · simp [h]
  · simp [h]
  · simp [h]

/-- Every character contributes a piece of its own, settled and as blank as the character. -/
theorem lowerAfter_cons (before cs : List Char) (c : Char) :
    ∃ piece, lowerAfter before (c :: cs) = piece ++ lowerAfter (c :: before) cs ∧ piece ≠ [] ∧
      (∀ d ∈ piece, Settled d) ∧ (isBlank c = false → ∀ d ∈ piece, isBlank d = false) := by
  rw [lowerAfter]
  by_cases hc : c = 'Σ'
  · rw [if_pos hc]
    cases meetsCased before && !meetsCased cs with
    | true =>
      refine ⟨['ς'], rfl, by simp, ?_, ?_⟩
      · exact List.forall_mem_singleton.mpr ⟨by decide, by decide, by decide +kernel⟩
      · exact fun _ => List.forall_mem_singleton.mpr (by decide)
    | false =>
      refine ⟨['σ'], rfl, by simp, ?_, ?_⟩
      · exact List.forall_mem_singleton.mpr ⟨by decide, by decide, by decide +kernel⟩
      · exact fun _ => List.forall_mem_singleton.mpr (by decide)
  · rw [if_neg hc]
    exact ⟨lowerChar c, rfl, lowerChar_ne_nil c, fun d => settled_of_mem_lowerChar hc,
      fun hb d => isBlank_of_mem_lowerChar hb⟩

theorem settled_of_mem_lowerAfter {before cs : List Char} {d : Char}
    (hd : d ∈ lowerAfter before cs) : Settled d := by
  induction cs generalizing before with
  | nil => cases hd
  | cons c cs ih =>
    obtain ⟨piece, he, _, hs, _⟩ := lowerAfter_cons before cs c
    rw [he] at hd
    rcases List.mem_append.mp hd with hd | hd
    · exact hs d hd
    · exact ih hd

theorem lowerAfter_of_settled {before cs : List Char} (h : ∀ c ∈ cs, Settled c) :
    lowerAfter before cs = cs := by
  induction cs generalizing before with
  | nil => rfl
  | cons c cs ih =>
    have hc := h c List.mem_cons_self
    rw [lowerAfter, if_neg hc.2.1, hc.lowerChar_eq, ih fun d hd => h d (List.mem_cons_of_mem c hd)]
    rfl

theorem lowercase_lowercase (cs : List Char) : lowercase (lowercase cs) = lowercase cs :=
  lowerAfter_of_settled fun _ => settled_of_mem_lowerAfter

theorem lowerAfter_ne_nil {before cs : List Char} (h : cs ≠ []) : lowerAfter before cs ≠ [] := by
  cases cs with
  | nil => exact absurd rfl h
  | cons c cs =>
    obtain ⟨piece, he, hp, _⟩ := lowerAfter_cons before cs c
    simp [he, hp]

theorem isBlank_head_lowerAfter {before cs : List Char}
    (h : ∀ c, cs.head? = some c → isBlank c = false) {d : Char}
    (hd : (lowerAfter before cs).head? = some d) : isBlank d = false := by
  cases cs with
  | nil => cases hd
  | cons c cs =>
    obtain ⟨piece, he, hp, _, hb⟩ := lowerAfter_cons before cs c
    rw [he, List.head?_append_of_ne_nil _ hp] at hd
    exact hb (h c rfl) d (List.mem_of_mem_head? hd)

theorem isBlank_last_lowerAfter {before cs : List Char}
    (h : ∀ c, cs.getLast? = some c → isBlank c = false) {d : Char}
    (hd : (lowerAfter before cs).getLast? = some d) : isBlank d = false := by
  induction cs generalizing before with
  | nil => cases hd
  | cons c cs ih =>
    obtain ⟨piece, he, hp, _, hb⟩ := lowerAfter_cons before cs c
    rw [he] at hd
    by_cases hn : cs = []
    · subst hn
      rw [lowerAfter, List.append_nil] at hd
      exact hb (h c rfl) d (List.mem_of_getLast? hd)
    · rw [List.getLast?_append_of_ne_nil _ (lowerAfter_ne_nil hn)] at hd
      exact ih (fun e hl => h e (by rw [List.getLast?_cons_of_ne_nil hn, hl])) hd

theorem Trimmed.lowercase {cs : List Char} (h : Trimmed cs) : Trimmed (Text.lowercase cs) where
  head _ := isBlank_head_lowerAfter h.head
  last _ := isBlank_last_lowerAfter h.last

end Solvency.Text
