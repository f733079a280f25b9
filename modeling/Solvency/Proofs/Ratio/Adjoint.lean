import Solvency.Proofs.Ratio

/-! # Scaling by a ratio and back

Rounding up by a ratio is adjoint to rounding down by its inverse: units come to no more than a
count exactly if the count comes back to no less than the units. Both roundings are monotone. A
ratio of at least one keeps neighbouring units a whole step apart, so that each is found again from
where it was rounded to.
-/
namespace Solvency

/-- The first computation succeeds wherever the second one does, and with no greater result. -/
def Within (x y : Except Fault Nat) : Prop := ∀ b, y = .ok b → ∃ a, x = .ok a ∧ a ≤ b

theorem Narrowed.within {computation : Computation} {a b : Nat} {x y : Except Fault Nat}
    (hx : Narrowed computation a x) (hy : Narrowed computation b y) (h : a ≤ b) : Within x y := by
  intro k hk
  obtain ⟨hlt, rfl⟩ := (hy.eq_ok k).mp hk
  exact ⟨a, (hx.eq_ok a).mpr ⟨h.trans_lt hlt, rfl⟩, h⟩

namespace Ratio
variable {r : Ratio}

def inverse (r : Ratio) : Ratio := ⟨r.denominator, r.numerator⟩

/-- The counts next to the scaled units on both sides, and the outcome of rounding to each. -/
structure Encloses (r : Ratio) (units low high : Nat) : Prop where
  greatest : IsGreatest {k | k * r.denominator ≤ units * r.numerator} low
  least : IsLeast {k | units * r.numerator ≤ k * r.denominator} high
  floor : Narrowed .ratio low (r.floor units)
  ceil : Narrowed .ratio high (r.ceil units)

theorem encloses (hd : 0 < r.denominator) (units : Nat) :
    r.Encloses units (units * r.numerator / r.denominator)
      (divUp (units * r.numerator) r.denominator) where
  greatest := isGreatest_div hd _
  least := isLeast_divUp hd _
  floor := narrowed_narrow .ratio _
  ceil := narrowed_narrow .ratio _

theorem Encloses.mono {units more low high low' high' : Nat} (h : r.Encloses units low high)
    (h' : r.Encloses more low' high') (hle : units ≤ more) : low ≤ low' ∧ high ≤ high' := by
  have hscaled := Nat.mul_le_mul_right r.numerator hle
  exact ⟨h'.greatest.2 (h.greatest.1.trans hscaled), h.least.2 (hscaled.trans h'.least.1)⟩

theorem gc_scaling (hn : 0 < r.numerator) (hd : 0 < r.denominator) :
    GaloisConnection (fun units => divUp (units * r.numerator) r.denominator)
      (fun count => count * r.denominator / r.numerator) := by
  intro units count
  simp only [divUp_le_iff hd, Nat.le_div_iff_mul_le hn]

/-- Rounding up adds less than a denominator, and it takes a numerator to pass to the next unit. -/
theorem scaled_back (hd : 0 < r.denominator) (hr : r.denominator ≤ r.numerator) (units : Nat) :
    divUp (units * r.numerator) r.denominator * r.denominator / r.numerator = units := by
  have hn : 0 < r.numerator := hd.trans_le hr
  apply le_antisymm
  · have hlt := divUp_mul_lt hd (units * r.numerator)
    apply Nat.le_of_lt_succ
    rw [Nat.div_lt_iff_lt_mul hn, Nat.succ_mul]
    omega
  · exact (gc_scaling hn hd).le_u_l units

/-- Rounding up by a ratio, and back down by its inverse. -/
structure Retraced (r : Ratio) : Prop where
  adjoint : ∀ units, ∀ count < wordLimit,
    (∃ scaled, r.ceil units = .ok scaled ∧ scaled ≤ count) ↔
      ∃ back, r.inverse.floor count = .ok back ∧ units ≤ back
  restored : ∀ units scaled, r.ceil units = .ok scaled → r.inverse.floor scaled = .ok units

theorem retraced (hd : 0 < r.denominator) (hr : r.denominator ≤ r.numerator) : r.Retraced := by
  have hn : 0 < r.numerator := hd.trans_le hr
  have hback : ∀ count, r.inverse.Encloses count _ _ := fun count => encloses hn count
  constructor
  · intro units count hcount
    have hfits : count * r.denominator / r.numerator < wordLimit := by
      have hle := le_of_isGreatest (r := r.inverse) hn hr (hback count).greatest
      exact hle.trans_lt hcount
    constructor
    · rintro ⟨scaled, hscaled, hle⟩
      obtain ⟨_, rfl⟩ := ((encloses hd units).ceil.eq_ok scaled).mp hscaled
      have hunits := (gc_scaling hn hd units count).mp hle
      exact ⟨_, ((hback count).floor.eq_ok _).mpr ⟨hfits, rfl⟩, hunits⟩
    · rintro ⟨back, hfloor, hle⟩
      obtain ⟨_, rfl⟩ := ((hback count).floor.eq_ok back).mp hfloor
      have hscaled := (gc_scaling hn hd units count).mpr hle
      exact ⟨_, ((encloses hd units).ceil.eq_ok _).mpr ⟨hscaled.trans_lt hcount, rfl⟩, hscaled⟩
  · intro units scaled hscaled
    have hunits := le_of_isLeast hd hr (isLeast_of_ceil hd hscaled)
    obtain ⟨hlt, rfl⟩ := ((encloses hd units).ceil.eq_ok scaled).mp hscaled
    exact ((hback _).floor.eq_ok units).mpr
      ⟨(scaled_back hd hr units).trans_lt (hunits.trans_lt hlt), scaled_back hd hr units⟩

/-- Units are rounded to the nearest counts on both sides, which grow with them, or refused because
the count has no word; and what a ratio of at least one rounds up, its inverse rounds down again. -/
theorem scaling_exact (hd : 0 < r.denominator) :
    (∀ units, ∃ low high, r.Encloses units low high) ∧
    (∀ units more, units ≤ more →
      Within (r.floor units) (r.floor more) ∧ Within (r.ceil units) (r.ceil more)) ∧
    (r.denominator ≤ r.numerator → r.Retraced) := by
  refine ⟨fun units => ⟨_, _, encloses hd units⟩, ?_, retraced hd⟩
  intro units more hle
  have h := encloses hd units
  have h' := encloses hd more
  obtain ⟨hlow, hhigh⟩ := h.mono h' hle
  exact ⟨h.floor.within h'.floor hlow, h.ceil.within h'.ceil hhigh⟩

/-- A hundredth more. -/
def hundredthMore : Ratio := ⟨101, 100⟩

/-- Some units come up to the greatest word and back again. The next unit comes down to that word
and has none to come up to. -/
theorem hundredthMore_retraced :
    0 < hundredthMore.denominator ∧ hundredthMore.denominator ≤ hundredthMore.numerator ∧
      hundredthMore.ceil 18264103043276783777 = .ok (wordLimit - 1) ∧
      hundredthMore.inverse.floor (wordLimit - 1) = .ok 18264103043276783777 ∧
      (∃ low high, hundredthMore.Encloses 18264103043276783778 low high ∧
        low = wordLimit - 1 ∧ wordLimit ≤ high) ∧
      ∃ scaled ≤ wordLimit - 1, hundredthMore.floor 18264103043276783777 = .ok scaled := by
  have hd : 0 < hundredthMore.denominator := by decide
  have hr : hundredthMore.denominator ≤ hundredthMore.numerator := by decide
  obtain ⟨hencloses, hmono, hretraced⟩ := scaling_exact hd
  have hceil : hundredthMore.ceil 18264103043276783777 = .ok (wordLimit - 1) := rfl
  have hfloor : hundredthMore.floor 18264103043276783778 = .ok (wordLimit - 1) := rfl
  obtain ⟨low, high, h⟩ := hencloses 18264103043276783778
  have hlow : low = wordLimit - 1 := ((h.floor.eq_ok _).mp hfloor).2
  have hhigh : wordLimit ≤ high := ((h.ceil.eq_error _).mp rfl).1
  obtain ⟨scaled, hscaled, hle⟩ := (hmono _ _ (Nat.le_succ 18264103043276783777)).1 _ hfloor
  exact ⟨hd, hr, hceil, (hretraced hr).restored _ _ hceil, ⟨low, high, h, hlow, hhigh⟩,
    scaled, hle, hscaled⟩

end Ratio
end Solvency
