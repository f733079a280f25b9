import Solvency.Proofs.Decimal.Denoted
import Solvency.Proofs.Text.Trim

/-! # Numerals

A numeral is a sign or none, digits and at most one point, which may stand in front of all digits or
behind them. It stands for all its digits, with as many places as digits behind the point. What has
room in a decimal is read as it stands.
-/
namespace Solvency.Decimal
open Text

/-- What stands in front of the digits. -/
inductive Mark where
  | none
  | plus
  | minus
deriving DecidableEq

def Mark.text : Mark → List Char
  | none => []
  | plus => ['+']
  | minus => ['-']

structure Numeral where
  mark : Mark
  whole : List Char
  point : Bool
  fraction : List Char
  isDigit : ∀ c ∈ whole ++ fraction, c.isDigit = true
  digits_ne : whole ++ fraction ≠ []
  pointed : fraction ≠ [] → point = true

namespace Numeral

def unsigned (n : Numeral) : List Char :=
  n.whole ++ (if n.point then ['.'] else []) ++ n.fraction

def text (n : Numeral) : List Char := n.mark.text ++ n.unsigned

/-- All digits, over as many places as there are digits behind the point. -/
def decimal (n : Numeral) : Decimal where
  negative := n.mark == .minus
  mantissa := ofDigits (n.whole ++ n.fraction)
  scale := n.fraction.length

end Numeral

theorem ofDigits_append (whole fraction : List Char) :
    ofDigits (whole ++ fraction) = Nat.ofDigitChars 10 fraction (ofDigits whole) :=
  Nat.ofDigitChars_append 0

theorem places_digits {ds : List Char} (hd : ∀ c ∈ ds, c.isDigit = true) (cs : List Char) :
    places (ds ++ cs) = places cs := by
  induction ds with
  | nil => rfl
  | cons c ds ih =>
    obtain ⟨hc, hds⟩ := List.forall_mem_cons.mp hd
    rw [List.cons_append, places_cons (isDigit_ne hc (by decide)), ih hds]

theorem readUnsigned_digits {negative : Bool} {ds : List Char} (hne : ds ≠ [])
    (hd : ∀ c ∈ ds, c.isDigit = true) (hm : ofDigits ds ≤ maxMantissa) (cs : List Char) :
    readUnsigned negative (ds ++ cs) = readWhole ⟨negative, ofDigits ds, 0⟩ cs := by
  obtain ⟨d, ds, rfl⟩ := List.exists_cons_of_ne_nil hne
  have hv : Nat.ofDigitChars 10 ds (digitValue d) = ofDigits (d :: ds) := by
    simp [ofDigits, Nat.ofDigitChars_cons, digitValue]
  rw [List.cons_append, readUnsigned, if_pos (hd d List.mem_cons_self),
    readWhole_digits (fun c h => hd c (List.mem_cons_of_mem d h)) (hv ▸ hm)]
  simp only [hv]

theorem readUnsigned_point {negative : Bool} {ds : List Char} (hne : ds ≠ [])
    (hd : ∀ c ∈ ds, c.isDigit = true) :
    readUnsigned negative ('.' :: ds) = readFraction ⟨negative, 0, 0⟩ ds := by
  obtain ⟨d, ds, rfl⟩ := List.exists_cons_of_ne_nil hne
  rw [readUnsigned, if_neg (by decide), if_pos ⟨rfl, hd d List.mem_cons_self⟩]

namespace Numeral

variable {n : Numeral}

theorem readUnsigned_unsigned (h : n.decimal.Bounded) :
    readUnsigned n.decimal.negative n.unsigned = some n.decimal := by
  obtain ⟨mark, whole, point, fraction, hd, hne, hpoint⟩ := n
  obtain ⟨hm, hs⟩ := h
  simp only [decimal, unsigned, ofDigits_append, List.append_assoc] at hm hs ⊢
  obtain ⟨hwhole, hfraction⟩ := List.forall_mem_append.mp hd
  -- the first character is the point or a digit, and is read in its own way
  by_cases hw : whole = []
  · subst hw
    have hf : fraction ≠ [] := hne
    obtain rfl := hpoint hf
    rw [if_pos rfl, List.nil_append, List.singleton_append,
      readUnsigned_point hf hfraction, readFraction_digits hfraction hm (by rwa [Nat.zero_add])]
    simp [ofDigits]
  · rw [readUnsigned_digits hw hwhole ((le_ofDigitChars _ _).trans hm)]
    cases point with
    | true =>
      rw [if_pos rfl, List.singleton_append, readWhole, if_pos rfl,
        readFraction_digits hfraction hm (by rwa [Nat.zero_add]), Nat.zero_add]
    | false =>
      obtain rfl : fraction = [] := by
        by_contra hf
        cases hpoint hf
      rfl

theorem mem_unsigned {c : Char} (hc : c ∈ n.unsigned) : c.isDigit = true ∨ c = '.' := by
  have hdigit := List.forall_mem_append.mp n.isDigit
  rcases List.mem_append.mp hc with hc | hc
  · rcases List.mem_append.mp hc with hc | hc
    · exact .inl (hdigit.1 c hc)
    · split at hc
      · exact .inr (List.mem_singleton.mp hc)
      · cases hc
  · exact .inl (hdigit.2 c hc)

theorem sign_unsigned (n : Numeral) :
    isMinus n.unsigned = false ∧ withoutSign n.unsigned = n.unsigned := by
  have hminus : '-' ∉ n.unsigned := fun h => absurd (mem_unsigned h) (by decide)
  have hplus : '+' ∉ n.unsigned := fun h => absurd (mem_unsigned h) (by decide)
  constructor
  · exact beq_false_of_ne fun h => hminus (List.mem_of_mem_head? h)
  · rcases withoutSign_cases n.unsigned with h | ⟨c, rfl | rfl, h⟩
    · exact h
    · exact absurd (h ▸ List.mem_cons_self) hminus
    · exact absurd (h ▸ List.mem_cons_self) hplus

theorem sign_text (n : Numeral) :
    isMinus n.text = n.decimal.negative ∧ withoutSign n.text = n.unsigned := by
  unfold text decimal
  cases n.mark with
  | none => exact n.sign_unsigned
  | plus => exact ⟨rfl, rfl⟩
  | minus => exact ⟨rfl, rfl⟩

/-- With room for its digits a numeral is read without loss. -/
theorem read_text (h : n.decimal.Bounded) : read n.text = some n.decimal := by
  obtain ⟨hminus, hrest⟩ := n.sign_text
  rw [read, readPlain_eq, hminus, hrest, readUnsigned_unsigned h]
  rfl

theorem places_unsigned (n : Numeral) : Decimal.places n.unsigned = n.fraction.length := by
  obtain ⟨hwhole, hfraction⟩ := List.forall_mem_append.mp n.isDigit
  rw [unsigned, List.append_assoc, places_digits hwhole]
  by_cases hpoint : n.point = true
  · rw [if_pos hpoint, List.singleton_append, places_point, List.countP_eq_length.mpr hfraction]
  · rw [if_neg hpoint, not_imp_comm.mp n.pointed hpoint]
    rfl

theorem filter_unsigned (n : Numeral) :
    n.unsigned.filter Char.isDigit = n.whole ++ n.fraction := by
  obtain ⟨hwhole, hfraction⟩ := List.forall_mem_append.mp n.isDigit
  have hpoint : (if n.point then ['.'] else []).filter Char.isDigit = [] := by
    split <;> rfl
  rw [unsigned, List.filter_append, List.filter_append, hpoint, List.append_nil,
    List.filter_eq_self.mpr hwhole, List.filter_eq_self.mpr hfraction]

theorem written_text (n : Numeral) : written n.text = n.decimal := by
  obtain ⟨hminus, hrest⟩ := n.sign_text
  rw [written, continued, hminus, ← filter_withoutSign, ← places_withoutSign, hrest,
    filter_unsigned, places_unsigned, Nat.zero_add]
  rfl

theorem forall_mem_text (n : Numeral) {p : Char → Prop} (hd : ∀ c, c.isDigit = true → p c)
    (hp : p '.' ∧ p '+' ∧ p '-') : ∀ c ∈ n.text, p c := by
  obtain ⟨hpoint, hplus, hminus⟩ := hp
  intro c hc
  rcases List.mem_append.mp hc with hc | hc
  · cases hm : n.mark with
    | none =>
      rw [hm] at hc
      cases hc
    | plus =>
      rw [hm] at hc
      rwa [List.mem_singleton.mp hc]
    | minus =>
      rw [hm] at hc
      rwa [List.mem_singleton.mp hc]
  · rcases mem_unsigned hc with h | rfl
    · exact hd c h
    · exact hpoint

/-- With or without room, what a numeral denotes is the number of its digits. -/
theorem denoted_text (n : Numeral) : denoted n.text = n.decimal.value := by
  have hmarks : ∀ c ∈ n.text, (!isExponentMark c) = true :=
    n.forall_mem_text (fun _ hc => not_isExponentMark (isFiller_of_isDigit hc)) (by decide)
  rw [(denoted_of_plain hmarks).2, written_text]

theorem trimmed_text (n : Numeral) : Trimmed n.text :=
  Trimmed.of_forall (n.forall_mem_text (fun _ => isBlank_of_isDigit) (by decide))

end Numeral
end Solvency.Decimal
