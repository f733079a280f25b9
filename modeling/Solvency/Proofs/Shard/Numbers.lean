import Solvency.Proofs.Shard.Complete
import Solvency.Proofs.Text.Numeral

/-! # The numbers of shards

The accounts of a shard are numbered by a block of consecutive words. Shards of one size have blocks
that follow one another in the order of their ids, so that no number is given twice, in whatever
files the accounts stand.
-/
namespace Solvency.Shard

theorem of_eq_ok {id total invalid : Nat} {s : Shard} (h : Shard.of id total invalid = .ok s) :
    s.id = id ∧ s.total = total := by
  unfold Shard.of at h
  split at h
  · split at h
    · cases h
      exact ⟨rfl, rfl⟩
    · cases h
  · cases h

/-- A shard that is accepted under this id and with this size, whatever part of it is invalid. -/
def Accepted (id total : Nat) (s : Shard) : Prop := ∃ invalid, Shard.of id total invalid = .ok s

theorem Accepted.id_eq {id total : Nat} {s : Shard} (h : Accepted id total s) : s.id = id := by
  obtain ⟨_, h⟩ := h
  exact (of_eq_ok h).1

theorem Accepted.total_eq {id total : Nat} {s : Shard} (h : Accepted id total s) :
    s.total = total := by
  obtain ⟨_, h⟩ := h
  exact (of_eq_ok h).2

/-- The numbers of all places of a shard, in order. -/
def numbers (s : Shard) : List Nat := (List.range s.total).map s.number

theorem numbers_eq (s : Shard) : s.numbers = List.range' (s.id * s.total) s.total :=
  List.range'_eq_map_range.symm

theorem mem_numbers {s : Shard} {n : Nat} :
    n ∈ s.numbers ↔ s.id * s.total ≤ n ∧ n < s.id * s.total + s.total := by
  rw [numbers_eq, List.mem_range'_1]

theorem lt_of_mem_numbers {s : Shard} {n : Nat} (h : n ∈ s.numbers) : n < wordLimit :=
  (mem_numbers.mp h).2.trans s.numbers_fit

theorem nodup_numbers (s : Shard) : s.numbers.Nodup := by
  rw [numbers_eq]
  exact List.nodup_range'

/-- A number among those of shards of one size tells which shard it is from, by the quotient. -/
theorem id_of_mem_numbers {s : Shard} {n : Nat} (h : n ∈ s.numbers) : s.id = n / s.total := by
  obtain ⟨hl, hu⟩ := mem_numbers.mp h
  exact (Nat.div_eq_of_lt_le hl (by rwa [Nat.succ_mul])).symm

theorem number_injective {s s' : Shard} (ht : s.total = s'.total) {place place' : Nat}
    (hp : place < s.total) (hp' : place' < s'.total) (h : s.number place = s'.number place') :
    s.id = s'.id ∧ place = place' := by
  have hm : s.number place ∈ s.numbers := List.mem_map_of_mem (List.mem_range.mpr hp)
  have hm' : s'.number place' ∈ s'.numbers := List.mem_map_of_mem (List.mem_range.mpr hp')
  have hid : s.id = s'.id := by rw [id_of_mem_numbers hm, id_of_mem_numbers hm', h, ht]
  refine ⟨hid, ?_⟩
  unfold number at h
  rw [hid, ht] at h
  exact Nat.add_left_cancel h

variable {total : Nat}

theorem map_numbers {ids : List Nat} {shards : List Shard}
    (h : List.Forall₂ (Accepted · total) ids shards) :
    shards.map numbers = ids.map fun id => List.range' (id * total) total :=
  (map_eq_of_forall₂ (fun id s hs => by rw [numbers_eq, hs.id_eq, hs.total_eq]) h).symm

theorem flatMap_blocks (total k : Nat) :
    (List.range k).flatMap (fun id => List.range' (id * total) total) = List.range (k * total) := by
  induction k with
  | zero => rw [Nat.zero_mul]; rfl
  | succ k ih =>
    have hnext := @List.range'_append_1 0 (k * total) total
    rw [Nat.zero_add] at hnext
    rw [List.range_succ, List.flatMap_append, ih, List.flatMap_singleton, Nat.succ_mul,
      List.range_eq_range', List.range_eq_range', hnext]

/-- The blocks of the first shards leave no number out. -/
theorem flatMap_numbers {k : Nat} {shards : List Shard}
    (h : List.Forall₂ (Accepted · total) (List.range k) shards) :
    shards.flatMap numbers = List.range (k * total) := by
  rw [List.flatMap_def, map_numbers h, ← List.flatMap_def, flatMap_blocks]

theorem disjoint_numbers {s s' : Shard} (ht : s.total = s'.total) (hid : s.id ≠ s'.id) :
    s.numbers.Disjoint s'.numbers := by
  intro n h h'
  exact hid (by rw [id_of_mem_numbers h, id_of_mem_numbers h', ht])

theorem nodup_flatMap_numbers {ids : List Nat} (hids : ids.Nodup) {shards : List Shard}
    (h : List.Forall₂ (Accepted · total) ids shards) : (shards.flatMap numbers).Nodup := by
  have hmap : shards.map Shard.id = ids := by
    rw [← List.map_id ids]
    exact (map_eq_of_forall₂ (fun _ _ hs => hs.id_eq.symm) h).symm
  refine List.nodup_flatMap.mpr ⟨fun s _ => s.nodup_numbers, ?_⟩
  rw [← hmap, List.Nodup, List.pairwise_map] at hids
  refine hids.imp_of_mem ?_
  intro s s' hs hs' hne
  obtain ⟨_, _, ha⟩ := exists_of_forall₂ h hs
  obtain ⟨_, _, ha'⟩ := exists_of_forall₂ h hs'
  exact disjoint_numbers (ha.total_eq.trans ha'.total_eq.symm) hne

/-- Accounts that were drawn for a shard, in whatever market and from whatever words. -/
def DrawnFor [Arithmetic] (s : Shard) (accounts : List Account) : Prop :=
  ∃ settings m d, ((draw settings m s).run d).1 = .ok accounts

theorem index_of_drawnFor [Arithmetic] {s : Shard} {accounts : List Account}
    (h : DrawnFor s accounts) : accounts.map Account.index = s.numbers := by
  obtain ⟨settings, m, d, hd⟩ := h
  obtain ⟨listings, hr⟩ := draw_resolves settings m s d accounts hd
  rw [run_draw_of_resolve hr] at hd
  exact (map_eq_of_forall₂ (fun _ _ ha => ha.index_eq.symm) (drawFrom_placed hr s d _ hd)).symm

/-- No two accounts in files of different shards, or in one file, have a number or an id in common. -/
theorem nodup_files [Arithmetic] {ids : List Nat} (hids : ids.Nodup) {shards : List Shard}
    (h : List.Forall₂ (Accepted · total) ids shards) {files : List (List Account)}
    (hf : List.Forall₂ DrawnFor shards files) :
    (files.flatten.map Account.index).Nodup ∧ (files.flatten.map Account.id).Nodup := by
  have hfiles : shards.map numbers = files.map (List.map Account.index) := by
    refine map_eq_of_forall₂ ?_ hf
    intro s accounts hd
    exact (index_of_drawnFor hd).symm
  have hindex : files.flatten.map Account.index = shards.flatMap numbers := by
    rw [List.map_flatten, List.flatMap_def, hfiles]
  have hnodup : (files.flatten.map Account.index).Nodup := hindex ▸ nodup_flatMap_numbers hids h
  refine ⟨hnodup, ?_⟩
  show (files.flatten.map (idText ∘ Account.index)).Nodup
  rw [← List.map_map]
  exact hnodup.map idText_injective

end Solvency.Shard
