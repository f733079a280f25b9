import Solvency.Draws.Basic
import Solvency.Proofs.Checked

/-! # What drawn results have in common

A property is ensured by work that draws when every result has it, whatever the words are and
wherever the drawing begins. In the same way all its faults may be of one kind, and two pieces of
work may run in parallel. Properties of a chain follow from those of its links.
-/
namespace Solvency
variable {α β : Type} {p : α → Prop} {q : β → Prop}

theorem run_bind_of_ok {x : Drawing α} {d : Draws} {a : α} (h : (x.run d).1 = .ok a)
    (f : α → Drawing β) : (x >>= f).run d = (f a).run (x.run d).2 := by
  show ExceptT.bindCont f (x.run d).1 (x.run d).2 = _
  rw [h]
  rfl

theorem run_bind_of_error {x : Drawing α} {d : Draws} {fault : Fault}
    (h : (x.run d).1 = .error fault) (f : α → Drawing β) :
    (x >>= f).run d = (.error fault, (x.run d).2) := by
  show ExceptT.bindCont f (x.run d).1 (x.run d).2 = _
  rw [h]
  rfl

def Ensures (x : Drawing α) (p : α → Prop) : Prop := ∀ d a, (x.run d).1 = .ok a → p a

namespace Ensures

theorem mono {x : Drawing α} {r : α → Prop} (h : Ensures x p) (hr : ∀ a, p a → r a) : Ensures x r :=
  fun d a ha => hr a (h d a ha)

theorem pure {a : α} (h : p a) : Ensures (Pure.pure a : Drawing α) p := by
  intro d b hb
  cases hb
  exact h

theorem bind {x : Drawing α} {f : α → Drawing β} (hx : Ensures x p)
    (hf : ∀ a, p a → Ensures (f a) q) : Ensures (x >>= f) q := by
  intro d b hb
  cases hr : (x.run d).1 with
  | error fault =>
    rw [run_bind_of_error hr] at hb
    cases hb
  | ok a =>
    rw [run_bind_of_ok hr] at hb
    exact hf a (hx d a hr) _ b hb

theorem lift (x : Except Fault α) : Ensures (liftM x : Drawing α) fun a => x = .ok a :=
  fun _ _ h => h

theorem draw {x : StateM Draws α} (h : ∀ d, p ((x.run d).run.1)) : Ensures (liftM x : Drawing α) p := by
  intro d a ha
  cases ha
  exact h d

theorem mapM {f : α → Drawing β} {r : α → β → Prop} {xs : List α}
    (h : ∀ x ∈ xs, Ensures (f x) (r x)) : Ensures (xs.mapM f) (List.Forall₂ r xs) := by
  induction xs with
  | nil => exact pure .nil
  | cons x xs ih =>
    rw [List.mapM_cons]
    refine bind (h x List.mem_cons_self) ?_
    intro y hy
    refine bind (ih fun z hz => h z (List.mem_cons_of_mem x hz)) ?_
    intro ys hys
    exact pure (.cons hy hys)

end Ensures

/-- Every fault of the work has the property. -/
def FailsOnly (p : Fault → Prop) (x : Drawing α) : Prop :=
  ∀ d fault, (x.run d).1 = .error fault → p fault

namespace FailsOnly
variable {p : Fault → Prop}

theorem pure (a : α) : FailsOnly p (Pure.pure a : Drawing α) := by
  intro d fault h
  cases h

theorem bind {x : Drawing α} {f : α → Drawing β} (hx : FailsOnly p x)
    (hf : ∀ a, FailsOnly p (f a)) : FailsOnly p (x >>= f) := by
  intro d fault h
  cases hr : (x.run d).1 with
  | error found =>
    rw [run_bind_of_error hr] at h
    cases h
    exact hx d fault hr
  | ok a =>
    rw [run_bind_of_ok hr] at h
    exact hf a _ fault h

theorem lift {x : Except Fault α} (h : ∀ fault, x = .error fault → p fault) :
    FailsOnly p (liftM x : Drawing α) := fun _ fault hx => h fault hx

theorem draw (x : StateM Draws α) : FailsOnly p (liftM x : Drawing α) := by
  intro d fault h
  cases h

theorem mapM {f : α → Drawing β} (h : ∀ x, FailsOnly p (f x)) (xs : List α) :
    FailsOnly p (xs.mapM f) := by
  induction xs with
  | nil => exact pure []
  | cons x xs ih =>
    rw [List.mapM_cons]
    exact (h x).bind fun y => ih.bind fun ys => pure (y :: ys)

end FailsOnly

/-- From wherever the drawing begins, both use the same words and come to matching outcomes. -/
def Parallel (r : α → β → Prop) (x : Drawing α) (y : Drawing β) : Prop :=
  ∀ d, Matched r (x.run d).1 (y.run d).1 ∧ (x.run d).2 = (y.run d).2

namespace Parallel
variable {α' β' : Type} {r : α → β → Prop} {s : α' → β' → Prop}

theorem refl (x : Drawing α) : Parallel Eq x x := by
  intro d
  cases (x.run d).1 with
  | error fault => exact ⟨.error fault, rfl⟩
  | ok a => exact ⟨.ok rfl, rfl⟩

theorem pure {a : α} {b : β} (h : r a b) : Parallel r (Pure.pure a) (Pure.pure b) :=
  fun _ => ⟨.ok h, rfl⟩

theorem bind {x : Drawing α} {y : Drawing β} {f : α → Drawing α'} {g : β → Drawing β'}
    (h : Parallel r x y) (hfg : ∀ a b, r a b → Parallel s (f a) (g b)) :
    Parallel s (x >>= f) (y >>= g) := by
  intro d
  obtain ⟨hm, hd⟩ := h d
  generalize hx : (x.run d).1 = left at hm
  generalize hy : (y.run d).1 = right at hm
  cases hm with
  | error fault =>
    rw [run_bind_of_error hx, run_bind_of_error hy, hd]
    exact ⟨.error fault, rfl⟩
  | ok hab =>
    rw [run_bind_of_ok hx, run_bind_of_ok hy, hd]
    exact hfg _ _ hab _

end Parallel
end Solvency
