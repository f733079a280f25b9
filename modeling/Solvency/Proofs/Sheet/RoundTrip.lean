import Solvency.Proofs.Checked
import Solvency.Proofs.Sheet.Encoded
import Solvency.Sheet.Writer

/-! # Sheets are read as they were written

A written cell brings the scan behind a field that holds the bytes of its text, whether it had to
be quoted or not. Commas and line feeds between the cells then complete fields and records, so that
the records of a written sheet are the encoded cells it was written from.
-/
namespace Solvency.Sheet

/-- Bytes that end neither a field nor a record and open no quote. -/
def Bare (bytes : Bytes) : Prop :=
  ∀ b ∈ bytes, b ≠ comma ∧ b ≠ quotation ∧ isLineBreak b = false

theorem bare_bytesOf {cs : List Char} (h : needsQuotes cs = false) : Bare (bytesOf cs) := by
  intro b hb
  obtain ⟨c, hc, hb⟩ := List.mem_flatMap.mp hb
  have hn := List.any_eq_false.mp h c hc
  simp only [Bool.or_eq_true, beq_iff_eq, not_or] at hn
  obtain ⟨⟨⟨hcomma, hquote⟩, hreturn⟩, hfeed⟩ := hn
  refine ⟨?_, ?_, ?_⟩
  · rintro rfl
    exact hcomma (eq_of_mem_utf8EncodeChar hb (by decide) (by decide))
  · rintro rfl
    exact hquote (eq_of_mem_utf8EncodeChar hb (by decide) (by decide))
  · simp only [isLineBreak, Bool.or_eq_false_iff, beq_eq_false_iff_ne]
    constructor
    · rintro rfl
      exact hfeed (eq_of_mem_utf8EncodeChar hb (by decide) (by decide))
    · rintro rfl
      exact hreturn (eq_of_mem_utf8EncodeChar hb (by decide) (by decide))

namespace Scan

theorem stepPlain_bare {b : UInt8} (hc : b ≠ comma) (hl : isLineBreak b = false) (s : Scan) :
    s.stepPlain b = s.push .plain b := by
  rw [stepPlain, if_neg hc, hl]
  rfl

theorem foldl_plain {bytes : Bytes} (h : Bare bytes) {s : Scan} (hp : s.place = .plain) :
    bytes.foldl step s = { s with field := bytes.reverse ++ s.field } := by
  induction bytes generalizing s with
  | nil => rfl
  | cons b bs ih =>
    obtain ⟨hc, _, hl⟩ := h b List.mem_cons_self
    have hb : s.step b = s.push .plain b := by
      rw [step, hp]
      exact stepPlain_bare hc hl s
    rw [List.foldl_cons, hb, ih (fun d hd => h d (List.mem_cons_of_mem b hd)) rfl]
    simp [push, hp]

/-- Where a cell may begin; one without any character may not begin a line. -/
structure Opens (s : Scan) (bytes : Bytes) : Prop where
  empty : s.field = []
  place : s.place = .fieldStart ∨ s.place = .lineStart ∧ bytes ≠ []

/-- The scan has passed a field and nothing else since `s`. -/
structure Passed (s t : Scan) (field : Bytes) : Prop where
  field : t.field = field.reverse
  record : t.record = s.record
  records : t.records = s.records
  place : t.place = .fieldStart ∨ t.place = .plain ∨ t.place = .closed

theorem passed_bare {bytes : Bytes} (h : Bare bytes) {s : Scan} (hs : s.Opens bytes) :
    Passed s (bytes.foldl step s) bytes := by
  cases bytes with
  | nil =>
    have hp : s.place = .fieldStart := hs.place.resolve_right fun h => h.2 rfl
    exact ⟨hs.empty, rfl, rfl, Or.inl hp⟩
  | cons b bs =>
    obtain ⟨hc, hq, hl⟩ := h b List.mem_cons_self
    have hb : s.step b = s.push .plain b := by
      rcases hs.place with hp | ⟨hp, _⟩
      · simp only [step, hp, if_neg hq]
        exact stepPlain_bare hc hl s
      · simp only [step, hp, hl, if_neg hq, Bool.false_eq_true, if_false]
        exact stepPlain_bare hc hl s
    rw [List.foldl_cons, hb, foldl_plain (fun d hd => h d (List.mem_cons_of_mem b hd)) rfl]
    exact ⟨by simp [push, hs.empty], rfl, rfl, Or.inr (Or.inl rfl)⟩

theorem foldl_quoted {bytes : Bytes} (h : quotation ∉ bytes) {s : Scan} (hp : s.place = .quoted) :
    bytes.foldl step s = { s with field := bytes.reverse ++ s.field } := by
  induction bytes generalizing s with
  | nil => rfl
  | cons b bs ih =>
    obtain ⟨hb, h⟩ := not_or.mp (mt List.mem_cons.mpr h)
    have hstep : s.step b = s.push .quoted b := by
      simp only [step, hp, if_neg (Ne.symm hb)]
    rw [List.foldl_cons, hstep, ih h rfl]
    simp [push, hp]

/-- Inside quotes every character is taken as it is, a doubled quote as one. -/
theorem foldl_doubleQuote (c : Char) {s : Scan} (hp : s.place = .quoted) :
    (bytesOf (doubleQuote c)).foldl step s =
      { s with field := (String.utf8EncodeChar c).reverse ++ s.field } := by
  by_cases hc : c = '"'
  · subst hc
    obtain ⟨place, field, record, records⟩ := s
    obtain rfl := hp
    rfl
  · have hq : quotation ∉ bytesOf [c] := by
      intro hb
      rw [bytesOf_cons, bytesOf, List.flatMap_nil, List.append_nil] at hb
      exact hc (eq_of_mem_utf8EncodeChar hb (by decide) (by decide))
    rw [doubleQuote, if_neg hc, foldl_quoted hq hp, bytesOf_cons, bytesOf, List.flatMap_nil,
      List.append_nil]

theorem foldl_doubled (cs : List Char) {s : Scan} (hp : s.place = .quoted) :
    (bytesOf (cs.flatMap doubleQuote)).foldl step s =
      { s with field := (bytesOf cs).reverse ++ s.field } := by
  induction cs generalizing s with
  | nil => rfl
  | cons c cs ih =>
    rw [List.flatMap_cons, bytesOf_append, List.foldl_append, foldl_doubleQuote c hp, ih (by exact hp),
      bytesOf_cons, List.reverse_append, List.append_assoc]

theorem passed_quoted (cs : List Char) {s : Scan} (hs : s.Opens (bytesOf cs)) :
    Passed s ((bytesOf ('"' :: cs.flatMap doubleQuote ++ ['"'])).foldl step s) (bytesOf cs) := by
  have hmarks : (bytesOf ('"' :: cs.flatMap doubleQuote ++ ['"'])).foldl step s =
      ((bytesOf (cs.flatMap doubleQuote)).foldl step (s.step quotation)).step quotation := by
    rw [bytesOf_append, List.foldl_append]
    rfl
  have hopen : s.step quotation = { s with place := .quoted } := by
    rcases hs.place with hp | ⟨hp, _⟩
    · simp only [step, hp, if_true]
    · simp only [step, hp, show isLineBreak quotation = false from rfl, Bool.false_eq_true,
        if_false, if_true]
  rw [hmarks, hopen, foldl_doubled cs rfl]
  refine ⟨?_, rfl, rfl, Or.inr (Or.inr rfl)⟩
  show (bytesOf cs).reverse ++ s.field = (bytesOf cs).reverse
  rw [hs.empty, List.append_nil]

theorem passed_writeCell {text : String} {s : Scan} (hs : s.Opens (encode text)) :
    Passed s ((bytesOf (writeCell text)).foldl step s) (encode text) := by
  rw [encode_eq] at hs ⊢
  unfold writeCell
  cases hq : needsQuotes text.toList with
  | true => exact passed_quoted text.toList hs
  | false => exact passed_bare (bare_bytesOf hq) hs

theorem Passed.step_comma {s t : Scan} {field : Bytes} (h : Passed s t field) :
    t.step comma = ⟨.fieldStart, [], field :: s.record, s.records⟩ := by
  obtain ⟨place, _, _, _⟩ := t
  obtain ⟨rfl, rfl, rfl, hp⟩ := h
  have he := congrArg (fun f => (⟨.fieldStart, [], f :: s.record, s.records⟩ : Scan))
    (List.reverse_reverse field)
  rcases hp with rfl | rfl | rfl <;> exact he

theorem Passed.step_lineFeed {s t : Scan} {field : Bytes} (h : Passed s t field) :
    t.step lineFeed = ⟨.lineStart, [], [], (field :: s.record).reverse :: s.records⟩ := by
  obtain ⟨place, _, _, _⟩ := t
  obtain ⟨rfl, rfl, rfl, hp⟩ := h
  have he := congrArg (fun f => (⟨.lineStart, [], [], (f :: s.record).reverse :: s.records⟩ : Scan))
    (List.reverse_reverse field)
  rcases hp with rfl | rfl | rfl <;> exact he

end Scan

theorem writeRecord_singleton (text : String) : writeRecord [text] = writeCell text ++ ['\n'] := by
  simp [writeRecord, List.intercalate]

theorem writeRecord_cons (text next : String) (cells : List String) :
    writeRecord (text :: next :: cells) = writeCell text ++ ',' :: writeRecord (next :: cells) := by
  simp [writeRecord, List.intercalate]

/-- From the beginning of a field to the end of its record. -/
theorem Scan.foldl_writeRecord (text : String) (cells : List String) {s : Scan}
    (hs : s.Opens (encode text)) :
    (bytesOf (writeRecord (text :: cells))).foldl step s =
      ⟨.lineStart, [], [], (s.record.reverse ++ (text :: cells).map encode) :: s.records⟩ := by
  induction cells generalizing text s with
  | nil =>
    rw [writeRecord_singleton, bytesOf_append, List.foldl_append]
    have he := (passed_writeCell hs).step_lineFeed
    rw [List.reverse_cons] at he
    exact he
  | cons next cells ih =>
    rw [writeRecord_cons, bytesOf_append, List.foldl_append]
    have he := (passed_writeCell hs).step_comma
    show (bytesOf (writeRecord (next :: cells))).foldl step (step _ comma) = _
    rw [he, ih next ⟨rfl, Or.inl rfl⟩]
    simp

/-- A row whose first cell is not empty, so that its line is not taken for a blank one. -/
def Begun (row : List String) : Prop := ∃ text cells, row = text :: cells ∧ encode text ≠ []

theorem Scan.foldl_writeRecords {rows : List (List String)} (h : ∀ row ∈ rows, Begun row)
    (records : List Record) :
    (bytesOf (rows.map writeRecord).flatten).foldl step ⟨.lineStart, [], [], records⟩ =
      ⟨.lineStart, [], [], (rows.map (List.map encode)).reverse ++ records⟩ := by
  induction rows generalizing records with
  | nil => rfl
  | cons row rows ih =>
    obtain ⟨text, cells, rfl, ht⟩ := h row List.mem_cons_self
    rw [List.map_cons, List.flatten_cons, bytesOf_append, List.foldl_append,
      foldl_writeRecord text cells ⟨rfl, Or.inr ⟨rfl, ht⟩⟩,
      ih fun r hr => h r (List.mem_cons_of_mem _ hr)]
    simp

theorem records_written {rows : List (List String)} (h : ∀ row ∈ rows, Begun row)
    (hmark : withoutMark (bytesOf (rows.map writeRecord).flatten) =
      bytesOf (rows.map writeRecord).flatten) :
    records (bytesOf (rows.map writeRecord).flatten) = rows.map (List.map encode) := by
  rw [records, hmark, Scan.start, Scan.foldl_writeRecords h, List.append_nil]
  simp [Scan.finish]

theorem writeRows_eq_ok {width : Nat} {rows : List (List String)}
    (h : ∀ row ∈ rows, row.length = width) (first : Nat) :
    ((rows.zipIdx first).mapM fun (cells, row) => writeRow width cells row) =
      .ok (rows.map writeRecord) := by
  induction rows generalizing first with
  | nil => rfl
  | cons row rows ih =>
    have hrow : writeRow width row first = .ok (writeRecord row) :=
      if_pos (h row List.mem_cons_self)
    rw [List.zipIdx_cons, List.mapM_cons, ih fun r hr => h r (List.mem_cons_of_mem row hr)]
    simp only [hrow, ok_bind]
    rfl

theorem write_eq_ok {header : List String} {rows : List (List String)}
    (h : ∀ row ∈ rows, row.length = header.length) :
    write header rows = .ok (String.ofList ((header :: rows).map writeRecord).flatten) := by
  rw [write, writeRows_eq_ok h]
  rfl

theorem mapM_cell {cells : List String} (row first : Nat) :
    (((cells.map encode).zipIdx first).mapM fun (field, index) => cell row field index) =
      .ok cells := by
  induction cells generalizing first with
  | nil => rfl
  | cons text cells ih =>
    have hcell : cell row (encode text) first = .ok text := by rw [cell, decode?_encode]; rfl
    rw [List.map_cons, List.zipIdx_cons, List.mapM_cons, ih]
    simp only [hcell, ok_bind]
    rfl

/-- Encoded cells are decoded to themselves. -/
theorem cells_map_encode (row : Nat) (texts : List String) :
    cells row (texts.map encode) = .ok texts := mapM_cell row 0

end Solvency.Sheet
