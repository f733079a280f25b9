import Solvency.Proofs.Schedule.Entry

/-! # Bracket lists are read as they were written

A list whose entries keep all rules is read as their brackets, in order. Otherwise the first entry
that breaks a rule is reported, by its own text and by the first rule that it breaks.
-/
namespace Solvency.Schedule
open Text

variable {multiplier : Nat} (row : Nat) {previous : Option Nat} {s : Schedule} {e : Entry}

/-- Each entry with the upper bound of the one before it. -/
def placedFrom (previous : Option Nat) : List Entry → List (Option Nat × Entry)
  | [] => []
  | e :: es => (previous, e) :: placedFrom (some e.upper) es

theorem map_snd_placedFrom (previous : Option Nat) (entries : List Entry) :
    (placedFrom previous entries).map Prod.snd = entries := by
  induction entries generalizing previous with
  | nil => rfl
  | cons e es ih => rw [placedFrom, List.map_cons, ih]

theorem percent_le_of_sound {entries : List Entry}
    (h : ∀ p ∈ placedFrom previous entries, p.2.Sound multiplier p.1) (he : e ∈ entries) :
    e.percent ≤ 100 := by
  rw [← map_snd_placedFrom previous entries] at he
  obtain ⟨p, hp, rfl⟩ := List.mem_map.mp he
  exact (h p hp).percent_le

theorem foldlM_readNext_of_sound (hm : 0 < multiplier) {entries : List Entry}
    (hs : s.EndsAt multiplier previous)
    (h : ∀ p ∈ placedFrom previous entries, p.2.Sound multiplier p.1) :
    ∃ t, (entries.map Entry.text).foldlM (readNext multiplier row) s = .ok t ∧
      t.brackets = s.brackets ++ entries.map (Entry.bracket multiplier) := by
  induction entries generalizing s previous with
  | nil => exact ⟨s, rfl, (List.append_nil _).symm⟩
  | cons e es ih =>
    obtain ⟨he, hes⟩ := List.forall_mem_cons.mp h
    obtain ⟨t, ht, hend, hb⟩ := readNext_of_sound row hm hs he
    obtain ⟨u, hu, hc⟩ := ih hend hes
    refine ⟨u, ?_, ?_⟩
    · rw [List.map_cons, List.foldlM_cons, ht]
      exact hu
    · rw [hc, hb, List.append_assoc, List.map_cons, List.singleton_append]

theorem foldlM_readNext_of_unsound (hm : 0 < multiplier) {entries : List Entry}
    {p : Option Nat × Entry} (hs : s.EndsAt multiplier previous)
    (h : (placedFrom previous entries).find? (fun p => ¬p.2.Sound multiplier p.1) = some p) :
    ∃ flaw, p.2.flaw? multiplier p.1 = some flaw ∧
      (entries.map Entry.text).foldlM (readNext multiplier row) s =
        .error (.bracket row (String.ofList p.2.text) flaw) := by
  induction entries generalizing s previous with
  | nil => cases h
  | cons e es ih =>
    rw [placedFrom] at h
    rw [List.map_cons, List.foldlM_cons]
    by_cases he : e.Sound multiplier previous
    · rw [List.find?_cons_of_neg (by simpa using he)] at h
      obtain ⟨t, ht, hend, _⟩ := readNext_of_sound row hm hs he
      rw [ht]
      exact ih hend h
    · rw [List.find?_cons_of_pos (by simpa using he)] at h
      obtain rfl := Option.some.inj h
      obtain ⟨flaw, hflaw⟩ := Option.ne_none_iff_exists'.mp (mt Entry.flaw?_eq_none.mp he)
      refine ⟨flaw, hflaw, ?_⟩
      rw [readNext_of_flaw row hm hs hflaw]
      rfl

/-- The text of a bracket list. -/
def listText (entries : List Entry) : String :=
  String.ofList ('[' :: (joined (entries.map Entry.text) ++ [']']))

/-- Square brackets come off a text that has none itself. -/
theorem listBody_eq {body : List Char} (h : ∀ c ∈ body, c ≠ '[' ∧ c ≠ ']') (ht : Trimmed body) :
    listBody (String.ofList ('[' :: (body ++ [']']))) = body := by
  have houter : Trimmed ('[' :: (body ++ [']'])) := by
    constructor
    · intro c hc
      cases hc
      decide
    · intro c hc
      rw [← List.cons_append, List.getLast?_append_of_ne_nil _ (by simp)] at hc
      cases hc
      decide
  have hopen : ('[' :: (body ++ [']'])).dropWhile (· == '[') = body ++ [']'] := by
    rw [List.dropWhile_cons_of_pos (by decide)]
    apply dropWhile_of_head
    intro c hc
    rcases List.mem_append.mp (List.mem_of_mem_head? hc) with hb | hb
    · simpa using (h c hb).1
    · rw [List.mem_singleton.mp hb]
      decide
  have hclose : dropEndWhile (· == ']') (body ++ [']']) = body := by
    have hlast : dropEndWhile (· == ']') body = body := by
      apply dropEndWhile_of_last
      intro c hc
      simpa using (h c (List.mem_of_getLast? hc)).2
    rw [dropEndWhile, List.reverse_append, List.reverse_singleton, List.singleton_append,
      List.dropWhile_cons_of_pos (by decide)]
    exact hlast
  rw [listBody, String.toList_ofList, houter.trim_eq, hopen, hclose, ht.trim_eq]

theorem listBody_listText (entries : List Entry) :
    listBody (listText entries) = joined (entries.map Entry.text) := by
  apply listBody_eq
  · apply forall_mem_joined
    · decide
    · decide
    · intro t ht c hc
      obtain ⟨e, _, rfl⟩ := List.mem_map.mp ht
      rcases Entry.mem_text hc with hd | rfl | rfl
      · exact ⟨Decimal.isDigit_ne hd (by decide), Decimal.isDigit_ne hd (by decide)⟩
      · decide
      · decide
  · apply trimmed_joined
    intro t ht
    obtain ⟨e, _, rfl⟩ := List.mem_map.mp ht
    exact ⟨e.text_ne_nil, e.trimmed_text⟩

theorem foldlM_readNext_trim (segments : List (List Char)) :
    (segments.map trim).foldlM (readNext multiplier row) s =
      segments.foldlM (readNext multiplier row) s := by
  have htrim : ∀ (t : Schedule) (segment : List Char),
      readNext multiplier row t (trim segment) = readNext multiplier row t segment := by
    intro t segment
    unfold readNext
    rw [(trimmed_trim segment).trim_eq]
  simp only [List.foldlM_map, htrim]

theorem read_listText_eq (multiplier row : Nat) (entries : List Entry) :
    read (listText entries) multiplier row =
      (entries.map Entry.text).foldlM (readNext multiplier row) empty := by
  rw [read, listBody_listText]
  cases entries with
  | nil => rfl
  | cons e es =>
    have hne : (e :: es).map Entry.text ≠ [] := List.cons_ne_nil _ _
    have htext : ∀ t ∈ (e :: es).map Entry.text, t ≠ [] ∧ ',' ∉ t ∧ Trimmed t := by
      intro t ht
      obtain ⟨x, _, rfl⟩ := List.mem_map.mp ht
      exact ⟨x.text_ne_nil, x.comma_not_mem_text, x.trimmed_text⟩
    have hsplit := map_trim_splitOn_joined hne fun t ht => (htext t ht).2
    split
    · rename_i hnil
      exact absurd hnil (joined_ne_nil hne fun t ht => (htext t ht).1)
    · rw [← foldlM_readNext_trim, hsplit]

/-- A list that keeps all rules is read as its brackets; of any other the first entry that breaks a
rule is reported. -/
theorem read_listText (hm : 0 < multiplier) (entries : List Entry) :
    ((∀ p ∈ placedFrom none entries, p.2.Sound multiplier p.1) →
      ∃ s, read (listText entries) multiplier row = .ok s ∧
        s.brackets.map (fun b => (b.upTo, b.percent.val)) =
          entries.map fun e => (e.upper * multiplier, e.percent)) ∧
    ∀ p, (placedFrom none entries).find? (fun p => ¬p.2.Sound multiplier p.1) = some p →
      ∃ flaw, p.2.flaw? multiplier p.1 = some flaw ∧
        read (listText entries) multiplier row =
          .error (.bracket row (String.ofList p.2.text) flaw) := by
  have hs := endsAt_empty multiplier
  constructor
  · intro h
    obtain ⟨s, hread, hb⟩ := foldlM_readNext_of_sound row hm hs h
    refine ⟨s, (read_listText_eq multiplier row entries).trans hread, ?_⟩
    rw [hb, empty, List.nil_append, List.map_map]
    apply List.map_congr_left
    intro e he
    have hpercent := percent_le_of_sound h he
    simp only [Function.comp_apply, Entry.bracket, Nat.mod_eq_of_lt (Nat.lt_succ_of_le hpercent)]
  · intro p hp
    obtain ⟨flaw, hflaw, hread⟩ := foldlM_readNext_of_unsound row hm hs hp
    exact ⟨flaw, hflaw, (read_listText_eq multiplier row entries).trans hread⟩

def gradedEntries : List Entry := [⟨0, 500000, 100⟩, ⟨500000, 1000000, 95⟩, ⟨7, 5000000, 80⟩]

/-- The bounds of the third entry are reversed; the last one breaks three rules. -/
def tangledEntries : List Entry := [⟨0, 100, 50⟩, ⟨7, 250, 40⟩, ⟨300, 240, 10⟩, ⟨9, 5, 200⟩]

theorem gradedEntries_read :
    0 < tenTo 16 ∧ (∀ p ∈ placedFrom none gradedEntries, p.2.Sound (tenTo 16) p.1) ∧
    (placedFrom none tangledEntries).find? (fun p => ¬p.2.Sound (tenTo 16) p.1) =
      some (some 250, ⟨300, 240, 10⟩) ∧
    listText tangledEntries = "[0-100:50, 7-250:40, 300-240:10, 9-5:200]" ∧
    (∃ s, read (listText gradedEntries) (tenTo 16) 2 = .ok s ∧
      s.brackets.map (fun b => (b.upTo, b.percent.val)) =
        gradedEntries.map fun e => (e.upper * tenTo 16, e.percent)) ∧
    read (listText tangledEntries) (tenTo 16) 7 =
      .error (.bracket 7 "300-240:10" .reversed) := by
  have hm : 0 < tenTo 16 := by decide
  have hsound : ∀ p ∈ placedFrom none gradedEntries, p.2.Sound (tenTo 16) p.1 := by decide
  have hfirst : (placedFrom none tangledEntries).find? (fun p => ¬p.2.Sound (tenTo 16) p.1) =
      some (some 250, ⟨300, 240, 10⟩) := by decide
  obtain ⟨flaw, hflaw, hread⟩ := (read_listText 7 hm tangledEntries).2 _ hfirst
  have hreversed : Entry.flaw? (tenTo 16) (some 250) ⟨300, 240, 10⟩ = some .reversed := by decide
  have htext : String.ofList (Entry.text ⟨300, 240, 10⟩) = "300-240:10" := by decide
  obtain rfl := Option.some.inj (hreversed.symm.trans hflaw)
  rw [htext] at hread
  exact ⟨hm, hsound, hfirst, by decide, (read_listText 2 hm gradedEntries).1 hsound, hread⟩

end Solvency.Schedule
