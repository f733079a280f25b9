/-! # The keystream

A block cipher in counter mode turns a key of eight words into an endless sequence of words. Each
block mixes sixteen words by four double rounds and adds what it started from.
-/
namespace Solvency.Keystream

abbrev Block := Vector UInt32 16

def rotateLeft (x : UInt32) (n : UInt32) : UInt32 := (x <<< n) ||| (x >>> (32 - n))

def quarterRound (s : Block) (a b c d : Fin 16) : Block :=
  let s := s.set a (s[a] + s[b])
  let s := s.set d (rotateLeft (s[d] ^^^ s[a]) 16)
  let s := s.set c (s[c] + s[d])
  let s := s.set b (rotateLeft (s[b] ^^^ s[c]) 12)
  let s := s.set a (s[a] + s[b])
  let s := s.set d (rotateLeft (s[d] ^^^ s[a]) 8)
  let s := s.set c (s[c] + s[d])
  s.set b (rotateLeft (s[b] ^^^ s[c]) 7)

/-- The columns, then the diagonals. -/
def quarters : List (Fin 16 × Fin 16 × Fin 16 × Fin 16) := [
  (0, 4, 8, 12), (1, 5, 9, 13), (2, 6, 10, 14), (3, 7, 11, 15),
  (0, 5, 10, 15), (1, 6, 11, 12), (2, 7, 8, 13), (3, 4, 9, 14)]

def doubleRound (s : Block) : Block :=
  quarters.foldl (fun s (a, b, c, d) => quarterRound s a b c d) s

def doubleRounds : Nat := 4

abbrev Key := Vector UInt32 8

def initial (key : Key) (counter : Nat) : Block :=
  #v[0x61707865, 0x3320646e, 0x79622d32, 0x6b206574,
    key[0], key[1], key[2], key[3], key[4], key[5], key[6], key[7],
    UInt32.ofNat counter, UInt32.ofNat (counter >>> 32), 0, 0]

def block (key : Key) (counter : Nat) : Block :=
  let start := initial key counter
  (Nat.repeat doubleRound doubleRounds start).zipWith (· + ·) start

/-- The `i`-th pair of words of the sequence, the low half first. -/
def word (key : Key) (i : Nat) : UInt64 :=
  let words := block key (i / 8)
  let j := i % 8
  have hj : j < 8 := Nat.mod_lt _ (by decide)
  words[2 * j].toUInt64 ||| (words[2 * j + 1].toUInt64 <<< 32)

/-- A seed is stretched to a key by a linear recurrence whose high bits are mixed. -/
def stretch (state : UInt64) : UInt64 := state * 6364136223846793005 + 11634580027462260723

def keyWord (state : UInt64) : UInt32 :=
  let mixed := (((state >>> 18) ^^^ state) >>> 27).toUInt32
  let turn := (state >>> 59).toUInt32
  (mixed >>> turn) ||| (mixed <<< ((32 - turn) % 32))

def keyOfSeed (seed : UInt64) : Key :=
  Vector.ofFn fun i => keyWord (Nat.repeat stretch (i.val + 1) seed)

end Solvency.Keystream
