import Solvency.Facility
import Solvency.Schedule.Basic
import Solvency.Settings

/-! # The market

A listing is what the market knows about one token: its price, its scaling and a schedule for each
facility. A symbol is listed at most once, and the first listing of a symbol stays.
-/
namespace Solvency

structure Quote where
  symbol : String
  price : Nat
  scaling : Scaling
deriving DecidableEq

namespace Quote

def value [Arithmetic] (q : Quote) (units : Nat) : Nat := Arithmetic.keep (units * q.price)

/-- The most units whose value stays within `value`. -/
def unitsWithin (q : Quote) (value : Nat) : Except Fault Nat :=
  narrow .unitsOfValue (value / q.price)

/-- The fewest units whose value reaches `value`. -/
def unitsCovering (q : Quote) (value : Nat) : Except Fault Nat :=
  narrow .unitsOfValue (divUp value q.price)

end Quote

structure Listing where
  quote : Quote
  schedules : PerFacility Schedule

namespace Listing

def symbol (l : Listing) : String := l.quote.symbol

def schedule (l : Listing) (facility : Facility) : Schedule := l.schedules.on facility

end Listing

structure Market where
  listings : List Listing
  distinct : (listings.map Listing.symbol).Nodup

namespace Market

def empty : Market := ⟨[], .nil⟩

def size (m : Market) : Nat := m.listings.length

def isEmpty (m : Market) : Bool := m.listings.isEmpty

def find? (m : Market) (symbol : String) : Option Listing :=
  m.listings.find? (·.symbol == symbol)

def listing (m : Market) (symbol : String) : Except Fault Listing :=
  (m.find? symbol).elim (.error (.unlistedToken symbol)) .ok

def quote (m : Market) (symbol : String) : Except Fault Quote :=
  (m.listing symbol).map Listing.quote

def schedule (m : Market) (symbol : String) (facility : Facility) : Except Fault Schedule :=
  (m.listing symbol).map fun l => l.schedule facility

/-- The listings of several symbols, or a fault that names the first one missing. -/
def resolve (m : Market) (symbols : List String) : Except Fault (List Listing) :=
  symbols.mapM m.listing

theorem nodup_snoc {xs : List String} {x : String} (hs : xs.Nodup) (hx : x ∉ xs) :
    (xs ++ [x]).Nodup :=
  List.nodup_append.2 ⟨hs, by simp, fun a ha b hb => by
    rw [List.mem_singleton] at hb
    exact fun hab => hx (hb ▸ hab ▸ ha)⟩

def insert (m : Market) (l : Listing) : Except Fault Market :=
  if h : l.symbol ∈ m.listings.map Listing.symbol then .error (.repeatedToken l.symbol)
  else .ok ⟨m.listings ++ [l], by simpa using nodup_snoc m.distinct h⟩

/-- Offers a listing to a market. One that is refused leaves the market as it is. -/
def offer (m : Market) (l : Listing) : Except Fault Unit × Market :=
  match m.insert l with
  | .ok k => (.ok (), k)
  | .error fault => (.error fault, m)

end Market
end Solvency
