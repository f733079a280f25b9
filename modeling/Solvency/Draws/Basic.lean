import Solvency.Draws.Keystream
import Solvency.Fault

/-! # Draws

A source of random words is a sequence and the place of the next word to be used. Drawing moves the
place on and leaves the sequence alone, also when the work that asked for the draw fails later.
-/
namespace Solvency

structure Draws where
  word : Nat → UInt64
  next : Nat

namespace Draws

def ofSeed (seed : UInt64) : Draws :=
  let key := Keystream.keyOfSeed seed
  ⟨Keystream.word key, 0⟩

/-- The given words, then nothing but zero. -/
def ofWords (words : Array UInt64) : Draws := ⟨fun i => words[i]?.getD 0, 0⟩

def takeWord : StateM Draws Nat := fun d => ((d.word d.next).toNat, { d with next := d.next + 1 })

/-- Words are used as long as they are at most this; the few above would favour small results. -/
def zone (range : Nat) : Nat := wordLimit - 1 - (wordLimit - range) % range

/-- The number of words after which drawing below a range settles for zero. -/
def attempts : Nat := Nat.pow 2 32

/-- A number below `range`: the high half of a product whose low half lies in the zone. -/
def below (range : Nat) : Nat → StateM Draws Nat
  | 0 => pure 0
  | fuel + 1 => do
    let product := (← takeWord) * range
    if product % wordLimit ≤ zone range then return product / wordLimit else below range fuel

/-- A number from `low` to `high`, all of them equally likely. -/
def between (low high : Nat) : StateM Draws Nat :=
  if high - low + 1 = wordLimit then takeWord
  else return low + (← below (high - low + 1) attempts)

theorem below_lt {range : Nat} (h : 0 < range) (fuel : Nat) (d : Draws) :
    ((below range fuel).run d).run.1 < range := by
  induction fuel generalizing d with
  | zero => exact h
  | succ fuel ih =>
    have hw : (d.word d.next).toNat * range / wordLimit < range := by
      rw [Nat.div_lt_iff_lt_mul (by decide), Nat.mul_comm]
      exact (Nat.mul_lt_mul_left h).2 (UInt64.toNat_lt _)
    show (StateT.run (if (d.word d.next).toNat * range % wordLimit ≤ zone range
      then pure ((d.word d.next).toNat * range / wordLimit) else below range fuel)
      { d with next := d.next + 1 }).run.1 < range
    split
    · exact hw
    · exact ih _

theorem between_mem {low high : Nat} (hl : low ≤ high) (hh : high < wordLimit) (d : Draws) :
    low ≤ ((between low high).run d).run.1 ∧ ((between low high).run d).run.1 ≤ high := by
  unfold between
  split
  · have hw : (d.word d.next).toNat < wordLimit := UInt64.toNat_lt _
    show low ≤ (d.word d.next).toNat ∧ (d.word d.next).toNat ≤ high
    omega
  · have hb := below_lt (show 0 < high - low + 1 by omega) attempts d
    show low ≤ low + ((below (high - low + 1) attempts).run d).run.1 ∧
      low + ((below (high - low + 1) attempts).run d).run.1 ≤ high
    omega

end Draws

/-- Work that draws and may fail; a failure keeps the draws made before it. -/
abbrev Drawing := ExceptT Fault (StateM Draws)

end Solvency
