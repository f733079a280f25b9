/-! # Lending facilities

Collateral is pledged to three facilities: the VIP loan, cross margin and portfolio margin. What
exists once for each of them is a `PerFacility`.
-/
namespace Solvency

inductive Facility
  | vipLoan
  | crossMargin
  | portfolioMargin
deriving DecidableEq

namespace Facility

def all : List Facility := [vipLoan, crossMargin, portfolioMargin]

def name : Facility → String
  | vipLoan => "vl"
  | crossMargin => "margin"
  | portfolioMargin => "pm"

/-- What the facility's columns in a sheet of accounts begin with. -/
def columnLabel : Facility → String
  | vipLoan => "vl"
  | crossMargin => "m"
  | portfolioMargin => "pm"

end Facility

structure PerFacility (α : Type) where
  vipLoan : α
  crossMargin : α
  portfolioMargin : α
deriving DecidableEq

namespace PerFacility
variable {α β : Type}

def on (x : PerFacility α) : Facility → α
  | .vipLoan => x.vipLoan
  | .crossMargin => x.crossMargin
  | .portfolioMargin => x.portfolioMargin

def ofFn (f : Facility → α) : PerFacility α :=
  ⟨f .vipLoan, f .crossMargin, f .portfolioMargin⟩

def map (f : α → β) (x : PerFacility α) : PerFacility β := ofFn fun facility => f (x.on facility)

def toList (x : PerFacility α) : List α := Facility.all.map x.on

def sum (x : PerFacility Nat) : Nat := x.vipLoan + x.crossMargin + x.portfolioMargin

@[simp] theorem on_ofFn (f : Facility → α) (facility : Facility) :
    (ofFn f).on facility = f facility := by
  cases facility <;> rfl

@[simp] theorem on_map (f : α → β) (x : PerFacility α) (facility : Facility) :
    (x.map f).on facility = f (x.on facility) := on_ofFn _ _

@[simp] theorem sum_ofFn (f : Facility → Nat) :
    (ofFn f).sum = f .vipLoan + f .crossMargin + f .portfolioMargin := rfl

end PerFacility
end Solvency
