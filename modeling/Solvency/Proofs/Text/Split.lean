import Solvency.Proofs.Text.Trim
import Solvency.Text.Split

/-! # Pieces between separators

A text is split at the first separator and then behind it. Pieces that were joined by a comma and a
blank come back when the text is split at the commas and each piece is trimmed.
-/
namespace Solvency.Text
variable {separator : Char} {cs : List Char}

theorem splitOn_ne_nil (separator : Char) (cs : List Char) : splitOn separator cs ≠ [] := by
  cases cs with
  | nil => simp [splitOn]
  | cons c cs =>
    rw [splitOn]
    split
    · simp
    · split <;> simp

theorem splitOn_cons_of_ne {c : Char} (hc : c ≠ separator) {piece : List Char}
    {pieces : List (List Char)} (h : splitOn separator cs = piece :: pieces) :
    splitOn separator (c :: cs) = (c :: piece) :: pieces := by
  rw [splitOn, if_neg hc, h]

theorem splitOn_of_not_mem (h : separator ∉ cs) : splitOn separator cs = [cs] := by
  induction cs with
  | nil => rfl
  | cons c cs ih =>
    rw [List.mem_cons, not_or] at h
    exact splitOn_cons_of_ne (Ne.symm h.1) (ih h.2)

theorem splitOn_append (h : separator ∉ cs) (rest : List Char) :
    splitOn separator (cs ++ separator :: rest) = cs :: splitOn separator rest := by
  induction cs with
  | nil => simp [splitOn]
  | cons c cs ih =>
    rw [List.mem_cons, not_or] at h
    exact splitOn_cons_of_ne (Ne.symm h.1) (ih h.2)

theorem not_mem_of_mem_splitOn {piece : List Char} (h : piece ∈ splitOn separator cs) :
    separator ∉ piece := by
  induction cs generalizing piece with
  | nil =>
    rw [splitOn, List.mem_singleton] at h
    simp [h]
  | cons c cs ih =>
    by_cases hc : c = separator
    · rw [splitOn, if_pos hc] at h
      rcases List.mem_cons.mp h with rfl | h
      · exact List.not_mem_nil
      · exact ih h
    · obtain ⟨first, pieces, hs⟩ := List.exists_cons_of_ne_nil (splitOn_ne_nil separator cs)
      rw [splitOn_cons_of_ne hc hs] at h
      rw [hs] at ih
      rcases List.mem_cons.mp h with rfl | h
      · exact List.not_mem_cons_of_ne_of_not_mem (Ne.symm hc) (ih List.mem_cons_self)
      · exact ih (List.mem_cons_of_mem first h)

theorem intercalate_splitOn (separator : Char) (cs : List Char) :
    [separator].intercalate (splitOn separator cs) = cs := by
  induction cs with
  | nil => rfl
  | cons c cs ih =>
    obtain ⟨first, pieces, hs⟩ := List.exists_cons_of_ne_nil (splitOn_ne_nil separator cs)
    by_cases hc : c = separator
    · rw [splitOn, if_pos hc, hs, List.intercalate_cons_cons, ← hs, ih, hc]
      rfl
    · rw [splitOn_cons_of_ne hc hs]
      rw [hs] at ih
      cases pieces with
      | nil =>
        rw [List.intercalate_singleton] at ih ⊢
        rw [ih]
      | cons second pieces =>
        rw [List.intercalate_cons_cons] at ih ⊢
        rw [List.append_assoc, List.cons_append, ← List.append_assoc, ih]

/-- Two pieces are what stands around the only separator. -/
theorem splitOn_eq_pair {a b : List Char} :
    splitOn separator cs = [a, b] ↔ cs = a ++ separator :: b ∧ separator ∉ a ∧ separator ∉ b := by
  constructor
  · intro h
    have hjoin := intercalate_splitOn separator cs
    have hpieces : ∀ piece ∈ [a, b], separator ∉ piece := fun piece hp =>
      not_mem_of_mem_splitOn (h ▸ hp)
    rw [h, List.intercalate_cons_cons, List.intercalate_singleton, List.append_assoc] at hjoin
    exact ⟨hjoin.symm, hpieces a (by simp), hpieces b (by simp)⟩
  · rintro ⟨rfl, ha, hb⟩
    rw [splitOn_append ha, splitOn_of_not_mem hb]

theorem trim_blank_cons {c : Char} (hc : isBlank c = true) (cs : List Char) :
    trim (c :: cs) = trim cs := by
  rw [trim, List.dropWhile_cons_of_pos hc, trim]

/-- A blank behind a separator makes no difference to the trimmed pieces. -/
theorem map_trim_splitOn_blank {c : Char} (hc : isBlank c = true) (hs : c ≠ separator)
    (cs : List Char) :
    (splitOn separator (c :: cs)).map trim = (splitOn separator cs).map trim := by
  obtain ⟨piece, pieces, h⟩ := List.exists_cons_of_ne_nil (splitOn_ne_nil separator cs)
  rw [splitOn_cons_of_ne hs h, h, List.map_cons, List.map_cons, trim_blank_cons hc]

/-- The texts one behind the other, with a comma and a blank between any two. -/
def joined (texts : List (List Char)) : List Char := [',', ' '].intercalate texts

@[simp] theorem joined_singleton (t : List Char) : joined [t] = t := List.intercalate_singleton

@[simp] theorem joined_cons_cons (t u : List Char) (texts : List (List Char)) :
    joined (t :: u :: texts) = t ++ ',' :: ' ' :: joined (u :: texts) := by
  rw [joined, List.intercalate_cons_cons, List.append_assoc]
  rfl

theorem map_trim_splitOn_joined {texts : List (List Char)} (hne : texts ≠ [])
    (h : ∀ t ∈ texts, ',' ∉ t ∧ Trimmed t) :
    (splitOn ',' (joined texts)).map trim = texts := by
  induction texts with
  | nil => exact absurd rfl hne
  | cons t texts ih =>
    obtain ⟨hcomma, htrim⟩ := h t List.mem_cons_self
    cases texts with
    | nil => simp [splitOn_of_not_mem hcomma, htrim.trim_eq]
    | cons u texts =>
      have hrest := ih (by simp) fun x hx => h x (List.mem_cons_of_mem t hx)
      rw [joined_cons_cons, splitOn_append hcomma, List.map_cons, htrim.trim_eq,
        map_trim_splitOn_blank (by decide) (by decide), hrest]

theorem forall_mem_joined {p : Char → Prop} (hcomma : p ',') (hblank : p ' ')
    {texts : List (List Char)} (h : ∀ t ∈ texts, ∀ c ∈ t, p c) : ∀ c ∈ joined texts, p c := by
  induction texts with
  | nil => simp [joined]
  | cons t texts ih =>
    have hrest := ih fun x hx => h x (List.mem_cons_of_mem t hx)
    intro c hc
    cases texts with
    | nil => exact h t List.mem_cons_self c (joined_singleton t ▸ hc)
    | cons u texts =>
      simp only [joined_cons_cons, List.mem_append, List.mem_cons] at hc
      rcases hc with hc | rfl | rfl | hc
      · exact h t List.mem_cons_self c hc
      · exact hcomma
      · exact hblank
      · exact hrest c hc

theorem joined_ne_nil {texts : List (List Char)} (hne : texts ≠ []) (h : ∀ t ∈ texts, t ≠ []) :
    joined texts ≠ [] := by
  obtain ⟨t, texts, rfl⟩ := List.exists_cons_of_ne_nil hne
  cases texts with
  | nil => simpa using h
  | cons u texts => simp

theorem trimmed_joined {texts : List (List Char)} (h : ∀ t ∈ texts, t ≠ [] ∧ Trimmed t) :
    Trimmed (joined texts) := by
  induction texts with
  | nil => exact ⟨by simp [joined], by simp [joined]⟩
  | cons t texts ih =>
    obtain ⟨hne, ht⟩ := h t List.mem_cons_self
    have htail : ∀ x ∈ texts, x ≠ [] ∧ Trimmed x := fun x hx => h x (List.mem_cons_of_mem t hx)
    cases texts with
    | nil => rwa [joined_singleton]
    | cons u texts =>
      have hrest := ih htail
      have hrest_ne := joined_ne_nil (List.cons_ne_nil u texts) fun x hx => (htail x hx).1
      rw [joined_cons_cons]
      constructor
      · intro c hc
        rw [List.head?_append_of_ne_nil _ hne] at hc
        exact ht.head c hc
      · intro c hc
        rw [List.getLast?_append_of_ne_nil _ (by simp), List.getLast?_cons_cons,
          List.getLast?_cons_of_ne_nil hrest_ne] at hc
        exact hrest.last c hc

end Solvency.Text
