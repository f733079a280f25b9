import Mathlib
import Solvency.Text.Blank

/-! # Trimmed texts

What is left after trimming has no blank at either end, and trimming a text without blanks at its
ends changes nothing.
-/
namespace Solvency.Text

structure Trimmed (cs : List Char) : Prop where
  head : ∀ c, cs.head? = some c → isBlank c = false
  last : ∀ c, cs.getLast? = some c → isBlank c = false

variable {α : Type}

theorem not_of_head_dropWhile {p : α → Bool} {cs : List α} {c : α}
    (h : (cs.dropWhile p).head? = some c) : p c = false := by
  have hn := List.head?_dropWhile_not p cs
  rw [h] at hn
  exact hn

theorem dropWhile_of_head {p : α → Bool} {cs : List α}
    (h : ∀ c, cs.head? = some c → p c = false) : cs.dropWhile p = cs := by
  cases cs with
  | nil => rfl
  | cons c cs => exact List.dropWhile_cons_of_neg (by simp [h c rfl])

theorem dropEndWhile_of_last {p : α → Bool} {cs : List α}
    (h : ∀ c, cs.getLast? = some c → p c = false) : dropEndWhile p cs = cs := by
  rw [dropEndWhile, dropWhile_of_head (by simpa [List.head?_reverse] using h), List.reverse_reverse]

theorem head_of_dropEndWhile {p : α → Bool} {cs : List α} {c : α}
    (h : (dropEndWhile p cs).head? = some c) : cs.head? = some c := by
  obtain ⟨tail, ht⟩ : dropEndWhile p cs <+: cs := List.rdropWhile_prefix p cs
  rw [← ht, List.head?_append, h]
  rfl

theorem trimmed_trim (cs : List Char) : Trimmed (trim cs) where
  head _ h := not_of_head_dropWhile (head_of_dropEndWhile h)
  last c h := by
    rw [trim, dropEndWhile, List.getLast?_reverse] at h
    exact not_of_head_dropWhile h

theorem Trimmed.trim_eq {cs : List Char} (h : Trimmed cs) : trim cs = cs := by
  rw [trim, dropWhile_of_head h.head, dropEndWhile_of_last h.last]

theorem trim_subset (cs : List Char) : trim cs ⊆ cs :=
  List.Subset.trans (List.rdropWhile_prefix isBlank _).subset (List.dropWhile_subset isBlank)

theorem dropEndWhile_append {p : α → Bool} {cs tail : List α} (h : ∀ c ∈ tail, p c = true) :
    dropEndWhile p (cs ++ tail) = dropEndWhile p cs := by
  rw [dropEndWhile, List.reverse_append,
    List.dropWhile_append_of_pos fun c hc => h c (List.mem_reverse.mp hc)]
  rfl

theorem Trimmed.trim_surrounded {cs before after : List Char} (h : Trimmed cs)
    (hb : ∀ c ∈ before, isBlank c = true) (ha : ∀ c ∈ after, isBlank c = true) :
    trim (before ++ cs ++ after) = cs := by
  rw [trim, List.append_assoc, List.dropWhile_append_of_pos hb]
  cases cs with
  | nil =>
    rw [List.nil_append, List.dropWhile_eq_nil_iff.mpr ha]
    rfl
  | cons c cs =>
    have hhead : ∀ d, (c :: cs ++ after).head? = some d → isBlank d = false := h.head
    rw [dropWhile_of_head hhead, dropEndWhile_append ha, dropEndWhile_of_last h.last]

/-- A text none of whose characters is blank is trimmed. -/
theorem Trimmed.of_forall {cs : List Char} (h : ∀ c ∈ cs, isBlank c = false) : Trimmed cs where
  head c hc := h c (List.mem_of_mem_head? hc)
  last c hc := h c (List.mem_of_getLast? hc)

theorem isBlank_of_isDigit {c : Char} (h : c.isDigit = true) : isBlank c = false := by
  simp only [Char.isDigit, Bool.and_eq_true, decide_eq_true_eq] at h
  have hl : 48 ≤ c.toNat := h.1
  have hh : c.toNat ≤ 57 := h.2
  simp only [isBlank, CharSet.has, blank, List.any_cons, List.any_nil, Bool.or_false,
    Bool.or_eq_false_iff, Bool.and_eq_false_iff, decide_eq_false_iff_not]
  omega

end Solvency.Text
