import ExperimentCharts.Csv.Writer
import ExperimentCharts.Proofs.Text.Trim

namespace ExperimentCharts.Csv

namespace Scan

/-- What the reader knows of the current record, apart from where it stands in the file. -/
structure Stands (scan : Scan) (phase : Phase) (fields : List (List UInt8)) (field : List UInt8) : Prop where
  phase_eq : scan.phase = phase
  fields_eq : scan.fields = fields
  field_eq : scan.field = field

/-- The reader starts before a record. -/
theorem initial_stands (markLength : Nat) : (initial markLength).Stands .recordStart [] [] := ⟨rfl, rfl, rfl⟩

variable {scan : Scan} {phase : Phase} {fields : List (List UInt8)} {field : List UInt8} {byte : UInt8}

/-- A byte that stands for itself outside quotes makes the field bare. -/
theorem Stands.step_text (hstands : scan.Stands phase fields field)
    (hphase : phase = .recordStart ∨ phase = .fieldStart ∨ phase = .bare)
    (htext : needsQuotes [byte] = false) :
    ∃ next, scan.step byte = (next, none) ∧ next.Stands .bare fields (byte :: field) := by
  obtain ⟨rfl, rfl, rfl⟩ := hstands
  simp only [needsQuotes, List.any_cons, List.any_nil, Bool.or_false, Bool.or_eq_false_iff, beq_eq_false_iff_ne]
    at htext
  obtain ⟨⟨hcomma, hquote⟩, hbreak⟩ := htext
  refine ⟨(scan.count byte).addByte .bare byte, ?_, rfl, rfl, rfl⟩
  rcases hphase with hphase | hphase | hphase <;>
    simp [step, count, hphase, openRecord, openField, unquoted, hcomma, hquote, hbreak]

/-- A quote at the start of a field opens it. -/
theorem Stands.step_openQuote (hstands : scan.Stands phase fields field)
    (hphase : phase = .recordStart ∨ phase = .fieldStart) :
    ∃ next, scan.step quote = (next, none) ∧ next.Stands .quoted fields field := by
  obtain ⟨rfl, rfl, rfl⟩ := hstands
  refine ⟨{ scan.count quote with phase := .quoted }, ?_, rfl, rfl, rfl⟩
  rcases hphase with hphase | hphase <;>
    simp [step, count, hphase, openRecord, openField, isBreak, quote, lineFeed, carriageReturn]

/-- Inside quotes every byte but the quote stands for itself. -/
theorem Stands.step_quoted (hstands : scan.Stands .quoted fields field) (hquote : byte ≠ quote) :
    ∃ next, scan.step byte = (next, none) ∧ next.Stands .quoted fields (byte :: field) := by
  obtain ⟨hphase, rfl, rfl⟩ := hstands
  refine ⟨(scan.count byte).addByte .quoted byte, ?_, rfl, rfl, rfl⟩
  simp [step, count, hphase, hquote]

/-- A quote inside quotes may close them. -/
theorem Stands.step_closeQuote (hstands : scan.Stands .quoted fields field) :
    ∃ next, scan.step quote = (next, none) ∧ next.Stands .quoteSeen fields field := by
  obtain ⟨hphase, rfl, rfl⟩ := hstands
  refine ⟨{ scan.count quote with phase := .quoteSeen }, ?_, rfl, rfl, rfl⟩
  simp [step, count, hphase]

/-- The second of two quotes stands for one. -/
theorem Stands.step_secondQuote (hstands : scan.Stands .quoteSeen fields field) :
    ∃ next, scan.step quote = (next, none) ∧ next.Stands .quoted fields (quote :: field) := by
  obtain ⟨hphase, rfl, rfl⟩ := hstands
  refine ⟨(scan.count quote).addByte .quoted quote, ?_, rfl, rfl, rfl⟩
  simp [step, count, hphase]

/-- Outside quotes a comma ends the field, also the first field of a record that is empty so far. -/
theorem Stands.step_comma (hstands : scan.Stands phase fields field) (hphase : phase ≠ .quoted) :
    ∃ next, scan.step comma = (next, none) ∧ next.Stands .fieldStart (field.reverse :: fields) [] := by
  obtain ⟨rfl, rfl, rfl⟩ := hstands
  refine ⟨(scan.count comma).endField, ?_, rfl, rfl, rfl⟩
  cases hcase : scan.phase <;>
    simp_all [step, count, openRecord, openField, unquoted, isBreak, comma, quote, lineFeed, carriageReturn]

/-- Outside quotes a line feed ends the record, unless nothing of it was read yet. -/
theorem Stands.step_lineFeed (hstands : scan.Stands phase fields field) (hphase : phase ≠ .quoted)
    (hstarted : phase ≠ .recordStart) :
    ∃ next record, scan.step lineFeed = (next, some record) ∧ next.Stands .recordStart [] [] ∧
      record.fields = fields.reverse ++ [field.reverse] := by
  obtain ⟨rfl, rfl, rfl⟩ := hstands
  refine ⟨(scan.count lineFeed).afterRecord, (scan.count lineFeed).record, ?_, ⟨rfl, rfl, rfl⟩, ?_⟩
  · cases hcase : scan.phase <;>
      simp_all [step, count, openField, unquoted, isBreak, comma, quote, lineFeed, carriageReturn]
  · simp [record, count]

theorem records_of_step_none {next : Scan} (hstep : scan.step byte = (next, none)) (rest : List UInt8) :
    scan.records (byte :: rest) = next.records rest := by
  rw [records, hstep]

theorem records_of_step_some {next : Scan} {record : Record} (hstep : scan.step byte = (next, some record))
    (rest : List UInt8) : scan.records (byte :: rest) = record :: next.records rest := by
  rw [records, hstep]

/-- The reader goes over bytes that need no quotes. -/
theorem Stands.records_bare (hstands : scan.Stands .bare fields field) {text : List UInt8}
    (htext : needsQuotes text = false) (rest : List UInt8) :
    ∃ next : Scan, scan.records (text ++ rest) = next.records rest ∧
      next.Stands .bare fields (text.reverse ++ field) := by
  induction text generalizing scan field with
  | nil => exact ⟨scan, rfl, hstands⟩
  | cons byte text ih =>
    have hcases : needsQuotes [byte] = false ∧ needsQuotes text = false := by
      simpa [needsQuotes] using htext
    obtain ⟨middle, hstep, hmiddle⟩ := hstands.step_text (.inr (.inr rfl)) hcases.1
    obtain ⟨next, hrecords, hnext⟩ := ih hmiddle hcases.2
    refine ⟨next, ?_, ?_⟩
    · rw [List.cons_append, records_of_step_none hstep, hrecords]
    · simpa using hnext

/-- The reader goes over the inside of quotes, where each quote is doubled. -/
theorem Stands.records_quoted (hstands : scan.Stands .quoted fields field) (text rest : List UInt8) :
    ∃ next : Scan, scan.records (doubleQuotes text ++ rest) = next.records rest ∧
      next.Stands .quoted fields (text.reverse ++ field) := by
  induction text generalizing scan field with
  | nil => exact ⟨scan, rfl, hstands⟩
  | cons byte text ih =>
    by_cases hquote : byte = quote
    · subst hquote
      obtain ⟨first, hstep, hfirst⟩ := hstands.step_closeQuote
      obtain ⟨second, hstep', hsecond⟩ := hfirst.step_secondQuote
      obtain ⟨next, hrecords, hnext⟩ := ih hsecond
      refine ⟨next, ?_, by simpa using hnext⟩
      change scan.records (quote :: quote :: (doubleQuotes text ++ rest)) = _
      rw [records_of_step_none hstep, records_of_step_none hstep', hrecords]
    · obtain ⟨middle, hstep, hmiddle⟩ := hstands.step_quoted hquote
      obtain ⟨next, hrecords, hnext⟩ := ih hmiddle
      refine ⟨next, ?_, by simpa using hnext⟩
      have hdouble : doubleQuotes (byte :: text) = byte :: doubleQuotes text := by
        simp [doubleQuotes, hquote]
      rw [hdouble, List.cons_append, records_of_step_none hstep, hrecords]

/-- After a written field the reader holds its bytes and waits for what ends the field. It is still at
    the start only if the field is empty. -/
theorem Stands.records_writeField (hstands : scan.Stands phase fields [])
    (hphase : phase = .recordStart ∨ phase = .fieldStart) (text rest : List UInt8) :
    ∃ (next : Scan) (after : Phase), scan.records (writeField text ++ rest) = next.records rest ∧
      next.Stands after fields text.reverse ∧ after ≠ .quoted ∧
      (after = .recordStart → phase = .recordStart) := by
  unfold writeField
  cases hneeds : needsQuotes text with
  | true =>
    obtain ⟨opened, hopen, hopened⟩ := hstands.step_openQuote hphase
    obtain ⟨inside, hinside, hstandsInside⟩ := hopened.records_quoted text (quote :: rest)
    obtain ⟨next, hclose, hnext⟩ := hstandsInside.step_closeQuote
    refine ⟨next, .quoteSeen, ?_, by simpa using hnext, by decide, by simp⟩
    simp only [if_true, List.append_assoc, List.cons_append, List.nil_append]
    rw [records_of_step_none hopen, hinside, records_of_step_none hclose]
  | false =>
    simp only [Bool.false_eq_true, if_false]
    cases text with
    | nil =>
      refine ⟨scan, phase, rfl, hstands, ?_, id⟩
      rintro rfl
      simp at hphase
    | cons byte text =>
      have hcases : needsQuotes [byte] = false ∧ needsQuotes text = false := by
        simpa [needsQuotes] using hneeds
      obtain ⟨middle, hstep, hmiddle⟩ := hstands.step_text (hphase.imp_right .inl) hcases.1
      obtain ⟨next, hrecords, hnext⟩ := hmiddle.records_bare hcases.2 rest
      refine ⟨next, .bare, ?_, by simpa using hnext, by decide, by simp⟩
      rw [List.cons_append, records_of_step_none hstep, hrecords]

/-- Written fields up to the line feed are read as the rest of one record. -/
theorem Stands.records_lastFields (hstands : scan.Stands .fieldStart fields []) (text : List UInt8)
    (texts : List (List UInt8)) (rest : List UInt8) :
    ∃ (next : Scan) (record : Record),
      scan.records ([comma].intercalate ((text :: texts).map writeField) ++ lineFeed :: rest) =
        record :: next.records rest ∧
      next.Stands .recordStart [] [] ∧ record.fields = fields.reverse ++ text :: texts := by
  induction texts generalizing scan fields text with
  | nil =>
    obtain ⟨after, phase, hrecords, hafter, hquoted, hstart⟩ :=
      hstands.records_writeField (.inr rfl) text (lineFeed :: rest)
    obtain ⟨next, record, hstep, hnext, hfields⟩ := hafter.step_lineFeed hquoted (by
      intro hphase
      cases hstart hphase)
    refine ⟨next, record, ?_, hnext, by simpa using hfields⟩
    simp only [List.map_cons, List.map_nil, List.intercalate_singleton]
    rw [hrecords, records_of_step_some hstep]
  | cons text' texts ih =>
    obtain ⟨after, phase, hrecords, hafter, hquoted, -⟩ := hstands.records_writeField (.inr rfl) text
      (comma :: ([comma].intercalate ((text' :: texts).map writeField) ++ lineFeed :: rest))
    obtain ⟨middle, hstep, hmiddle⟩ := hafter.step_comma hquoted
    rw [List.reverse_reverse] at hmiddle
    obtain ⟨next, record, hread, hnext, hfields⟩ := ih hmiddle text'
    refine ⟨next, record, ?_, hnext, by simpa using hfields⟩
    rw [List.map_cons, List.intercalate_cons_of_ne_nil (by simp)]
    simp only [List.append_assoc, List.cons_append, List.nil_append]
    rw [hrecords, records_of_step_none hstep, hread]

/-- A written record of two fields or more is read as that record. Its first comma keeps it from being an
    empty line. -/
theorem Stands.records_writeRecord (hstands : scan.Stands .recordStart [] []) {texts : List (List UInt8)}
    (hlength : 2 ≤ texts.length) (rest : List UInt8) :
    ∃ (next : Scan) (record : Record), scan.records (writeRecord texts ++ rest) = record :: next.records rest ∧
      next.Stands .recordStart [] [] ∧ record.fields = texts := by
  match texts, hlength with
  | first :: second :: texts, _ =>
    obtain ⟨after, phase, hrecords, hafter, hquoted, -⟩ := hstands.records_writeField (.inl rfl) first
      (comma :: ([comma].intercalate ((second :: texts).map writeField) ++ lineFeed :: rest))
    obtain ⟨middle, hstep, hmiddle⟩ := hafter.step_comma hquoted
    rw [List.reverse_reverse] at hmiddle
    obtain ⟨next, record, hread, hnext, hfields⟩ := hmiddle.records_lastFields second texts rest
    refine ⟨next, record, ?_, hnext, by simpa using hfields⟩
    rw [writeRecord, List.map_cons, List.intercalate_cons_of_ne_nil (by simp)]
    simp only [List.append_assoc, List.cons_append, List.nil_append]
    rw [hrecords, records_of_step_none hstep, hread]

/-- A file of written records is read as those records, one for one. -/
theorem Stands.records_write {records : List (List String)} (hstands : scan.Stands .recordStart [] [])
    (hlength : ∀ record ∈ records, 2 ≤ record.length) :
    (scan.records (write records)).map Record.fields = records.map (List.map Text.encode) := by
  induction records generalizing scan with
  | nil => simp [write, Scan.records, hstands.phase_eq]
  | cons record records ih =>
    have hcount : 2 ≤ (record.map Text.encode).length := by simpa using hlength record List.mem_cons_self
    obtain ⟨next, found, hread, hnext, hfields⟩ := hstands.records_writeRecord hcount (write records)
    have hwrite : write (record :: records) = writeRecord (record.map Text.encode) ++ write records := rfl
    rw [hwrite, hread, List.map_cons, List.map_cons, hfields,
      ih hnext fun other hother => hlength other (List.mem_cons_of_mem _ hother)]

end Scan

theorem isBlankByte_iff (byte : UInt8) :
    isBlankByte byte = true ↔
      byte.toNat = 32 ∨ byte.toNat = 9 ∨ byte.toNat = 10 ∨ byte.toNat = 13 ∨ byte.toNat = 12 := by
  simp [isBlankByte, ← UInt8.toNat_inj, or_assoc]

/-- A blank byte in an encoded character is the whole character. -/
theorem isBlankByte_of_mem_utf8EncodeChar (c : Char) :
    ∀ byte ∈ String.utf8EncodeChar c, isBlankByte byte = Text.isBlankAscii c := by
  intro byte hbyte
  rw [Bool.eq_iff_iff, isBlankByte_iff, Text.isBlankAscii_iff]
  unfold String.utf8EncodeChar at hbyte
  dsimp only at hbyte
  change _ ↔ c.val.toNat = 32 ∨ c.val.toNat = 9 ∨ c.val.toNat = 10 ∨ c.val.toNat = 13 ∨ c.val.toNat = 12
  generalize c.val.toNat = code at *
  split at hbyte
  · rw [List.mem_singleton.mp hbyte, UInt8.toNat_ofNat', Nat.mod_eq_of_lt (by omega)]
  · -- All bytes of a longer encoding are outside ASCII.
    have hlarge : 128 ≤ byte.toNat := by
      split at hbyte <;> [skip; split at hbyte] <;>
        simp only [List.mem_cons, List.not_mem_nil, or_false] at hbyte
      · rcases hbyte with rfl | rfl <;> rw [UInt8.toNat_ofNat'] <;> omega
      · rcases hbyte with rfl | rfl | rfl <;> rw [UInt8.toNat_ofNat'] <;> omega
      · rcases hbyte with rfl | rfl | rfl | rfl <;> rw [UInt8.toNat_ofNat'] <;> omega
    omega

/-- Removing blank bytes first changes nothing in the trimmed text. -/
theorem decode_strip_encode (text : String) :
    ∃ stripped, Text.decode (Text.strip isBlankByte (Text.encode text)) = .ok stripped ∧
      Text.trim stripped = Text.trim text := by
  refine ⟨String.ofList (Text.strip Text.isBlankAscii text.toList), ?_, ?_⟩
  · have hstrip : Text.strip isBlankByte (Text.encode text) =
        Text.encode (String.ofList (Text.strip Text.isBlankAscii text.toList)) := by
      rw [Text.encode, Text.encode, String.toList_ofList]
      exact Text.strip_flatMap (fun _ => String.utf8EncodeChar_ne_nil) isBlankByte_of_mem_utf8EncodeChar _
    rw [hstrip, Text.decode_encode]
  · rw [Text.trim, Text.trim, String.toList_ofList,
      Text.strip_strip fun _ hblank => Text.isBlank_of_isBlankAscii hblank]

/-- Fields whose bytes are read as texts are trimmed one by one. -/
theorem decodeFields_map (start : Position) (index : Nat) {bytesOf : String → List UInt8}
    (hdecode : ∀ text, ∃ found, Text.decode (bytesOf text) = .ok found ∧ Text.trim found = Text.trim text)
    (texts : List String) : decodeFields start index (texts.map bytesOf) = .ok (texts.map Text.trim) := by
  induction texts generalizing index with
  | nil => rfl
  | cons text texts ih =>
    obtain ⟨found, hfound, htrim⟩ := hdecode text
    simp only [List.map_cons, decodeFields, hfound, ih, htrim]
    rfl

theorem header_of_fields {record : Record} {texts : List String}
    (hfields : record.fields = texts.map Text.encode) : header record = .ok (texts.map Text.trim) := by
  rw [header, hfields]
  exact decodeFields_map _ _ (fun text => ⟨text, Text.decode_encode text, rfl⟩) texts

/-- A row has to have the width of the header, and its fields are trimmed. -/
theorem row_of_fields {record : Record} {texts : List String}
    (hfields : record.fields = texts.map Text.encode) :
    row texts.length record = .ok (texts.map Text.trim) := by
  rw [row, if_pos (by rw [hfields, List.length_map]), hfields, List.map_map]
  exact decodeFields_map _ _ decode_strip_encode texts

theorem mapM_row_of_fields {width : Nat} {records : List Record} {rows : List (List String)}
    (hfields : records.map Record.fields = rows.map (List.map Text.encode))
    (hwidth : ∀ texts ∈ rows, texts.length = width) :
    records.mapM (row width) = .ok (rows.map (List.map Text.trim)) := by
  induction rows generalizing records with
  | nil =>
    rw [List.map_eq_nil_iff.mp hfields]
    rfl
  | cons texts rows ih =>
    obtain ⟨record, rest, rfl, hrecord, hrest⟩ := List.map_eq_cons_iff.mp hfields
    have htexts := hwidth texts List.mem_cons_self
    rw [List.mapM_cons, ← htexts, row_of_fields hrecord, htexts,
      ih hrest fun other hother => hwidth other (List.mem_cons_of_mem _ hother)]
    rfl

/-- A file that does not start with the first byte of a mark is read from its start. -/
theorem records_of_head_ne {bytes : List UInt8} (hmark : bytes.head? ≠ some 0xEF) :
    records bytes = (Scan.initial 0).records bytes := by
  unfold records
  split
  · exact absurd rfl hmark
  · rfl

/-- Records of at least two fields that all have as many as the header are read back as they were
    written, with every field trimmed. Only a byte order mark at the start of the header would be lost. -/
theorem read_write {names : List String} {rows : List (List String)} (hlength : 2 ≤ names.length)
    (hwidth : ∀ texts ∈ rows, texts.length = names.length)
    (hmark : (writeRecord (names.map Text.encode)).head? ≠ some 0xEF) :
    read (write (names :: rows)) = .ok (names.map Text.trim, rows.map (List.map Text.trim)) := by
  have hrecords : (records (write (names :: rows))).map Record.fields =
      (names :: rows).map (List.map Text.encode) := by
    rw [records_of_head_ne]
    · apply (Scan.initial_stands 0).records_write
      intro texts htexts
      rcases List.mem_cons.mp htexts with rfl | htexts
      · exact hlength
      · rw [hwidth texts htexts]
        exact hlength
    · change (writeRecord (names.map Text.encode) ++ write rows).head? ≠ _
      rwa [List.head?_append_of_ne_nil _ (by simp [writeRecord])]
  rw [List.map_cons] at hrecords
  obtain ⟨first, rest, hread, hfirst, hrest⟩ := List.map_eq_cons_iff.mp hrecords
  have hcount : first.fields.length = names.length := by rw [hfirst, List.length_map]
  rw [read, hread]
  simp only [header_of_fields hfirst, hcount, mapM_row_of_fields hrest hwidth]
  rfl

end ExperimentCharts.Csv
