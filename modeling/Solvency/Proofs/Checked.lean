import Mathlib

/-! # Computations that may be refused

A chain of computations succeeds exactly when each link does. Lists are treated by what holds of
every member, folds by what every step appends.
-/
namespace Solvency
variable {ε α β γ : Type}

theorem bind_eq_ok {x : Except ε α} {f : α → Except ε β} {b : β} :
    x >>= f = .ok b ↔ ∃ a, x = .ok a ∧ f a = .ok b := by
  cases x with
  | error e => simp [bind, Except.bind]
  | ok a => simp [bind, Except.bind]

theorem bind_eq_error {x : Except ε α} {f : α → Except ε β} {e : ε} :
    x >>= f = .error e ↔ x = .error e ∨ ∃ a, x = .ok a ∧ f a = .error e := by
  cases x with
  | error e => simp [bind, Except.bind]
  | ok a => simp [bind, Except.bind]

theorem pure_eq_ok {a b : α} : (pure a : Except ε α) = .ok b ↔ a = b := by
  simp [pure, Except.pure]

theorem ok_bind (a : α) (f : α → Except ε β) : (.ok a : Except ε α) >>= f = f a := rfl

theorem mapError_eq_ok {δ : Type} {f : ε → δ} {x : Except ε α} {a : α} :
    x.mapError f = .ok a ↔ x = .ok a := by
  cases x with
  | error e => simp [Except.mapError]
  | ok b => simp [Except.mapError]

theorem mapError_eq_error {δ : Type} {f : ε → δ} {x : Except ε α} {d : δ} :
    x.mapError f = .error d ↔ ∃ e, x = .error e ∧ f e = d := by
  cases x with
  | error e => simp [Except.mapError]
  | ok a => simp [Except.mapError]

theorem elim_eq_ok {x : Option α} {e : ε} {a : α} :
    x.elim (.error e) .ok = (.ok a : Except ε α) ↔ x = some a := by
  cases x with
  | none => simp
  | some b => simp

theorem elim_eq_error {x : Option α} {e f : ε} (h : x.elim (.error e) .ok = (.error f : Except ε α)) :
    x = none ∧ e = f := by
  cases x with
  | none => exact ⟨rfl, Except.error.inj h⟩
  | some a => cases h

section Faults
variable {δ : Type} (g : ε → δ)

theorem mapError_pure (a : α) : (pure a : Except ε α).mapError g = pure a := rfl

theorem mapError_bind (x : Except ε α) (f : α → Except ε β) :
    (x >>= f).mapError g = x.mapError g >>= fun a => (f a).mapError g := by
  cases x <;> rfl

theorem mapError_elim (x : Option α) (e : ε) :
    (x.elim (.error e) .ok : Except ε α).mapError g = x.elim (.error (g e)) .ok := by
  cases x <;> rfl

theorem mapError_mapError {ζ : Type} (h : δ → ζ) (x : Except ε α) :
    (x.mapError g).mapError h = x.mapError (h ∘ g) := by
  cases x <;> rfl

theorem mapError_foldlM (f : β → α → Except ε β) (xs : List α) (b : β) :
    (xs.foldlM f b).mapError g = xs.foldlM (fun b x => (f b x).mapError g) b := by
  induction xs generalizing b with
  | nil => rfl
  | cons x xs ih => simp only [List.foldlM_cons, mapError_bind, ih]

theorem mapError_mapM (f : α → Except ε β) (xs : List α) :
    (xs.mapM f).mapError g = xs.mapM fun x => (f x).mapError g := by
  induction xs with
  | nil => rfl
  | cons x xs ih => simp only [List.mapM_cons, mapError_bind, mapError_pure, ih]

end Faults

theorem any_toOption {x : Except ε α} {p : α → Bool} :
    x.toOption.any p = true ↔ ∃ a, x = .ok a ∧ p a = true := by
  cases x with
  | error e => simp [Except.toOption]
  | ok a => simp [Except.toOption]

/-- What a computation is refused for. -/
def refusal? : Except ε α → Option ε
  | .error e => some e
  | .ok _ => none

@[simp] theorem refusal?_error (e : ε) : refusal? (.error e : Except ε α) = some e := rfl

@[simp] theorem refusal?_ok (a : α) : refusal? (.ok a : Except ε α) = none := rfl

theorem refusal?_eq_some {x : Except ε α} {e : ε} : refusal? x = some e ↔ x = .error e := by
  cases x with
  | error d => simp
  | ok a => simp

theorem refusal?_eq_none {x : Except ε α} : refusal? x = none ↔ ∃ a, x = .ok a := by
  cases x with
  | error e => simp
  | ok a => simp

theorem refusal?_bind {x : Except ε α} {f : α → Except ε β} {r : Option ε}
    (h : ∀ a, x = .ok a → refusal? (f a) = r) : refusal? (x >>= f) = (refusal? x).or r := by
  cases x with
  | error e => rfl
  | ok a => exact h a rfl

theorem findSome?_cons_or (f : α → Option β) (x : α) (xs : List α) :
    (x :: xs).findSome? f = (f x).or (xs.findSome? f) := by
  rw [List.findSome?_cons]
  cases f x <;> rfl

theorem findSome?_range_eq_some {f : Nat → Option α} {n : Nat} {a : α} :
    (List.range n).findSome? f = some a ↔ ∃ i < n, f i = some a ∧ ∀ j < i, f j = none := by
  induction n with
  | zero => simp
  | succ n ih =>
    have hnone : (List.range n).findSome? f = none ↔ ∀ j < n, f j = none := by
      simp only [List.findSome?_eq_none_iff, List.mem_range]
    rw [List.range_succ, List.findSome?_append, findSome?_cons_or, List.findSome?_nil,
      Option.or_none, Option.or_eq_some_iff, ih, hnone]
    constructor
    · rintro (⟨i, hi, h⟩ | ⟨hbefore, hn⟩)
      · exact ⟨i, Nat.lt_succ_of_lt hi, h⟩
      · exact ⟨n, Nat.lt_succ_self n, hn, hbefore⟩
    · rintro ⟨i, hi, ha, hbefore⟩
      rcases Nat.lt_succ_iff_lt_or_eq.mp hi with hi | rfl
      · exact .inl ⟨i, hi, ha, hbefore⟩
      · exact .inr ⟨hbefore, ha⟩

/-- A list is refused for the first member that is. -/
theorem refusal?_mapM (f : α → Except ε β) (xs : List α) :
    refusal? (xs.mapM f) = xs.findSome? fun x => refusal? (f x) := by
  induction xs with
  | nil => rfl
  | cons x xs ih =>
    have hrest (y : β) : refusal? (xs.mapM f >>= fun ys => pure (y :: ys)) =
        xs.findSome? fun x => refusal? (f x) := by
      exact (refusal?_bind fun ys _ => refusal?_ok (y :: ys)).trans (by rw [Option.or_none, ih])
    rw [List.mapM_cons, findSome?_cons_or, refusal?_bind fun y _ => hrest y]

/-- Two computations that fail with one fault, or succeed with results that are related. -/
inductive Matched (r : α → β → Prop) : Except ε α → Except ε β → Prop
  | error (e : ε) : Matched r (.error e) (.error e)
  | ok {a : α} {b : β} (h : r a b) : Matched r (.ok a) (.ok b)

theorem Matched.of_error {r : α → β → Prop} {e : ε} {y : Except ε β}
    (h : Matched r (.error e) y) : y = .error e := by
  cases h
  rfl

theorem Matched.of_ok {r : α → β → Prop} {a : α} {y : Except ε β} (h : Matched r (.ok a) y) :
    ∃ b, y = .ok b ∧ r a b := by
  cases h with
  | ok h => exact ⟨_, rfl, h⟩

theorem Matched.bind {α' β' : Type} {r : α → β → Prop} {s : α' → β' → Prop} {x : Except ε α}
    {y : Except ε β} {f : α → Except ε α'} {g : β → Except ε β'} (h : Matched r x y)
    (hfg : ∀ a b, r a b → Matched s (f a) (g b)) : Matched s (x >>= f) (y >>= g) := by
  cases h with
  | error e => exact .error e
  | ok h => exact hfg _ _ h

theorem exists_of_forall₂ {r : α → β → Prop} {xs : List α} {ys : List β}
    (h : List.Forall₂ r xs ys) {y : β} (hy : y ∈ ys) : ∃ x ∈ xs, r x y := by
  induction h with
  | nil => cases hy
  | cons hxy _ ih =>
    rcases List.mem_cons.mp hy with rfl | hy
    · exact ⟨_, List.mem_cons_self, hxy⟩
    · obtain ⟨x, hx, hr⟩ := ih hy
      exact ⟨x, List.mem_cons_of_mem _ hx, hr⟩

theorem map_eq_of_forall₂ {r : α → β → Prop} {f : α → γ} {g : β → γ}
    (h : ∀ x y, r x y → f x = g y) {xs : List α} {ys : List β} (hr : List.Forall₂ r xs ys) :
    xs.map f = ys.map g := by
  rw [← List.forall₂_eq_eq_eq, List.forall₂_map_left_iff, List.forall₂_map_right_iff]
  exact hr.imp h

theorem sum_le_sum_of_forall₂ {r : α → β → Prop} {f : α → Nat} {g : β → Nat}
    (h : ∀ x y, r x y → f x ≤ g y) {xs : List α} {ys : List β} (hr : List.Forall₂ r xs ys) :
    (xs.map f).sum ≤ (ys.map g).sum := by
  apply List.Forall₂.sum_le_sum
  rw [List.forall₂_map_left_iff, List.forall₂_map_right_iff]
  exact hr.imp h

theorem exists_map_eq_of_forall₂ {r : α → β → Prop} {p : α → γ → Prop} {g : γ → β} {xs : List α}
    {ys : List β} (hr : List.Forall₂ r xs ys) (h : ∀ x y, r x y → ∃ z, p x z ∧ g z = y) :
    ∃ zs, List.Forall₂ p xs zs ∧ zs.map g = ys := by
  induction hr with
  | nil => exact ⟨[], .nil, rfl⟩
  | cons hxy _ ih =>
    obtain ⟨z, hz, rfl⟩ := h _ _ hxy
    obtain ⟨zs, hzs, rfl⟩ := ih
    exact ⟨z :: zs, .cons hz hzs, rfl⟩

theorem of_forall₂_range {r : Nat → β → Prop} {n i : Nat} {ys : List β} {y : β}
    (h : List.Forall₂ r (List.range n) ys) (hy : ys[i]? = some y) : r i y := by
  obtain ⟨hlt, rfl⟩ := List.getElem?_eq_some_iff.mp hy
  have hi : i < (List.range n).length := by rwa [h.length_eq]
  simpa using h.get hi hlt

theorem forall₂_trans {r : α → β → Prop} {s : β → γ → Prop} {t : α → γ → Prop} {xs : List α}
    {ys : List β} {zs : List γ} (h : ∀ x, ∀ y ∈ ys, ∀ z, r x y → s y z → t x z)
    (hr : List.Forall₂ r xs ys) (hs : List.Forall₂ s ys zs) : List.Forall₂ t xs zs := by
  induction hr generalizing zs with
  | nil =>
    cases hs
    exact .nil
  | @cons _ y _ ys hxy _ ih =>
    cases hs with
    | cons hyz hrest =>
      exact .cons (h _ y List.mem_cons_self _ hxy hyz)
        (ih (fun x w hw => h x w (List.mem_cons_of_mem y hw)) hrest)

/-- Two lists that are both read off a third are related where their members are. -/
theorem forall₂_of_common {r : α → β → Prop} {s : α → γ → Prop} {t : β → γ → Prop} {xs : List α}
    {ys : List β} {zs : List γ} (h : ∀ x ∈ xs, ∀ y z, r x y → s x z → t y z)
    (hr : List.Forall₂ r xs ys) (hs : List.Forall₂ s xs zs) : List.Forall₂ t ys zs := by
  induction hr generalizing zs with
  | nil =>
    cases hs
    exact .nil
  | @cons x _ xs _ hxy _ ih =>
    cases hs with
    | cons hxz hrest =>
      exact .cons (h x List.mem_cons_self _ _ hxy hxz)
        (ih (fun w hw => h w (List.mem_cons_of_mem x hw)) hrest)

theorem mapM_eq_ok {f : α → Except ε β} {xs : List α} {ys : List β} :
    xs.mapM f = .ok ys ↔ List.Forall₂ (fun x y => f x = .ok y) xs ys := by
  induction xs generalizing ys with
  | nil =>
    rw [List.mapM_nil, pure_eq_ok, List.forall₂_nil_left_iff]
    exact eq_comm
  | cons x xs ih =>
    simp only [List.mapM_cons, bind_eq_ok, pure_eq_ok, ih, List.forall₂_cons_left_iff]
    constructor
    · rintro ⟨y, hy, zs, hz, rfl⟩
      exact ⟨y, zs, hy, hz, rfl⟩
    · rintro ⟨y, zs, hy, hz, rfl⟩
      exact ⟨y, hy, zs, hz, rfl⟩

theorem exists_of_mapM_eq_error {f : α → Except ε β} {xs : List α} {e : ε}
    (h : xs.mapM f = .error e) : ∃ x ∈ xs, f x = .error e := by
  induction xs with
  | nil => cases h
  | cons x xs ih =>
    rw [List.mapM_cons] at h
    rcases bind_eq_error.mp h with h | ⟨y, _, h⟩
    · exact ⟨x, List.mem_cons_self, h⟩
    · rcases bind_eq_error.mp h with h | ⟨ys, _, h⟩
      · obtain ⟨z, hz, hf⟩ := ih h
        exact ⟨z, List.mem_cons_of_mem x hz, hf⟩
      · cases h

/-- A fold fails at one of its steps. -/
theorem exists_of_foldlM_eq_error {f : β → α → Except ε β} {xs : List α} {b : β} {e : ε}
    (h : xs.foldlM f b = .error e) : ∃ x ∈ xs, ∃ c, f c x = .error e := by
  induction xs generalizing b with
  | nil => cases h
  | cons x xs ih =>
    rw [List.foldlM_cons] at h
    rcases bind_eq_error.mp h with h | ⟨c, _, h⟩
    · exact ⟨x, List.mem_cons_self, b, h⟩
    · obtain ⟨y, hy, d, hf⟩ := ih h
      exact ⟨y, List.mem_cons_of_mem x hy, d, hf⟩

/-- A fold whose every step appends one member to a view appends one for each member read. -/
theorem foldlM_appends {f : β → α → Except ε β} (view : β → List γ) (r : α → γ → Prop)
    (hstep : ∀ x s t, f s x = .ok t → ∃ c, r x c ∧ view t = view s ++ [c])
    {xs : List α} {a b : β} (h : xs.foldlM f a = .ok b) :
    ∃ cs, List.Forall₂ r xs cs ∧ view b = view a ++ cs := by
  induction xs generalizing a with
  | nil =>
    obtain rfl := pure_eq_ok.mp h
    exact ⟨[], .nil, (List.append_nil _).symm⟩
  | cons x xs ih =>
    rw [List.foldlM_cons] at h
    obtain ⟨s, hs, h⟩ := bind_eq_ok.mp h
    obtain ⟨c, hc, hv⟩ := hstep x a s hs
    obtain ⟨cs, hcs, hb⟩ := ih h
    exact ⟨c :: cs, .cons hc hcs, by rw [hb, hv, List.append_assoc, List.singleton_append]⟩

end Solvency
