import Solvency.Account.Drawn

/-! # Shards

A shard is a block of accounts with consecutive numbers. Its first accounts are invalid, by turns
overpledged and overdrawn; the others are valid. The numbers of a shard fit a word, so that shards
of one size never overlap.
-/
namespace Solvency

structure Shard where
  id : Nat
  total : Nat
  invalid : Nat
  invalid_le : invalid ≤ total
  numbers_fit : id * total + total < wordLimit

namespace Shard

def of (id total invalid : Nat) : Except Fault Shard :=
  if hi : invalid ≤ total then
    if hn : id * total + total < wordLimit then .ok ⟨id, total, invalid, hi, hn⟩
    else .error (.overflow .accountNumbers)
  else .error (.counts total invalid)

/-- The number of the account at a place in the shard. -/
def number (s : Shard) (place : Nat) : Nat := s.id * s.total + place

def standingAt (invalid place : Nat) : Standing :=
  if invalid ≤ place then .valid
  else if place % 2 = 0 then .overpledged
  else .overdrawn

def fileName (id : Nat) : String := s!"sample_users{id}.csv"

def drawAt [Arithmetic] (settings : Settings) (listings : List Listing) (s : Shard) (place : Nat) :
    Drawing Account :=
  Account.draw settings listings (s.number place) (standingAt s.invalid place)

/-- The accounts at `count` places from `place` on. -/
def drawFrom [Arithmetic] (settings : Settings) (listings : List Listing) (s : Shard)
    (place : Nat) : Nat → Drawing (List Account)
  | 0 => return []
  | count + 1 => do
    let account ← drawAt settings listings s place
    let accounts ← drawFrom settings listings s (place + 1) count
    return account :: accounts

/-- All accounts of the shard in order. Every token must be listed before anything is drawn. -/
def draw [Arithmetic] (settings : Settings) (m : Market) (s : Shard) : Drawing (List Account) := do
  let listings ← m.resolve settings.tokens
  drawFrom settings listings s 0 s.total

end Shard
end Solvency
