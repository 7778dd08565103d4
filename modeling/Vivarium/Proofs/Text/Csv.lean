import Vivarium.Text.Csv

/-! Tables as they are written. A field stands for itself, if nothing in it is special, or in quotes, and
the writer is free to choose; records end at line breaks of either kind, any number of them. Whatever the
writer chooses, the records are read back. -/
namespace Vivarium.Csv

/-- The byte ends a line. -/
def IsBreak (b : UInt8) : Prop := b = lineFeed ∨ b = carriageReturn

instance : DecidablePred IsBreak := fun _ => inferInstanceAs (Decidable (_ ∨ _))

/-- A field inside quotes. -/
def doubled (field : List UInt8) : List UInt8 :=
  field.flatMap fun b => if b = quote then [quote, quote] else [b]

/-- The ways to write a field. -/
inductive FieldForm : List UInt8 → List UInt8 → Prop where
  | plain {field : List UInt8} : (∀ b ∈ field, b ≠ comma ∧ ¬IsBreak b) → field.head? ≠ some quote →
      FieldForm field field
  | quoted {field : List UInt8} : FieldForm field (quote :: (doubled field ++ [quote]))

/-- The ways to write a record. -/
inductive RecordForm : Record → List UInt8 → Prop where
  | last {field bytes : List UInt8} : FieldForm field bytes → RecordForm [field] bytes
  | more {field bytes rest : List UInt8} {fields : Record} : FieldForm field bytes →
      RecordForm fields rest → RecordForm (field :: fields) (bytes ++ comma :: rest)

/-- The ways to write a table. A line without a byte is no record, and the last record need not be ended. -/
inductive TableForm : List Record → List UInt8 → Prop where
  | done : TableForm [] []
  | skip {records : List Record} {b : UInt8} {bytes : List UInt8} : IsBreak b →
      TableForm records bytes → TableForm records (b :: bytes)
  | unended {record : Record} {bytes : List UInt8} : RecordForm record bytes → bytes ≠ [] →
      TableForm [record] bytes
  | row {record : Record} {records : List Record} {b : UInt8} {bytes rest : List UInt8} :
      RecordForm record bytes → bytes ≠ [] → IsBreak b → TableForm records rest →
      TableForm (record :: records) (bytes ++ b :: rest)

namespace State
variable {s : State}

/-! One byte. -/

/-- Outside of quotes a comma ends the field. -/
theorem step_comma (outside : s.mode ≠ .quoted) : s.step comma = s.endField := by
  obtain ⟨mode, records, fields, field⟩ := s
  cases mode with
  | quoted => exact absurd rfl outside
  | _ => rfl

/-- Outside of quotes, and behind the first byte of the line, a line break ends the record. -/
theorem step_break {b : UInt8} (outside : s.mode ≠ .quoted) (begun : s.mode ≠ .recordStart)
    (ends : IsBreak b) : s.step b = s.endRecord := by
  obtain ⟨mode, records, fields, field⟩ := s
  cases mode with
  | quoted => exact absurd rfl outside
  | recordStart => exact absurd rfl begun
  | _ => rcases ends with rfl | rfl <;> rfl

/-- The end of the table ends the record. -/
theorem finish_inside (begun : s.mode ≠ .recordStart) : s.finish = s.endRecord.records.reverse := by
  rw [finish]
  split
  · exact absurd ‹_› begun
  · rfl

/-! One field. -/

section
variable {records : List Record} {fields : Record} {before field : List UInt8}

theorem foldl_plain (plain : ∀ b ∈ field, b ≠ comma ∧ ¬IsBreak b) :
    field.foldl step ⟨.plain, records, fields, before⟩ =
      ⟨.plain, records, fields, field.reverse ++ before⟩ := by
  induction field generalizing before with
  | nil => rfl
  | cons b rest ih =>
    obtain ⟨⟨apart, stays⟩, others⟩ := List.forall_mem_cons.mp plain
    have next : step ⟨.plain, records, fields, before⟩ b = ⟨.plain, records, fields, b :: before⟩ := by
      simp only [step, plainByte, if_neg apart]
      exact if_neg stays
    simpa [next] using ih others

theorem foldl_quoted :
    (doubled field).foldl step ⟨.quoted, records, fields, before⟩ =
      ⟨.quoted, records, fields, field.reverse ++ before⟩ := by
  induction field generalizing before with
  | nil => rfl
  | cons b rest ih =>
    have next : (if b = quote then [quote, quote] else [b]).foldl step
        ⟨.quoted, records, fields, before⟩ = ⟨.quoted, records, fields, b :: before⟩ := by
      by_cases special : b = quote
      · subst special
        rfl
      · simp [special, step, put]
    rw [doubled, List.flatMap_cons, List.foldl_append, next]
    simpa [doubled] using ih

/-- A field is read up to its end, wherever a field can begin. -/
theorem foldl_field {bytes : List UInt8} (written : FieldForm field bytes) {mode : Mode}
    (begins : mode = .recordStart ∨ mode = .fieldStart) :
    ∃ m, bytes.foldl step ⟨mode, records, fields, []⟩ = ⟨m, records, fields, field.reverse⟩ ∧
      m ≠ .quoted ∧ (m = .recordStart → mode = .recordStart ∧ bytes = []) := by
  cases written with
  | plain plain unquoted =>
    cases field with
    | nil =>
      refine ⟨mode, rfl, ?_, fun same => ⟨same, rfl⟩⟩
      rcases begins with rfl | rfl <;> simp
    | cons b rest =>
      obtain ⟨⟨apart, stays⟩, others⟩ := List.forall_mem_cons.mp plain
      have special : b ≠ quote := fun same => unquoted (congrArg some same)
      have first : step ⟨mode, records, fields, []⟩ b = ⟨.plain, records, fields, [b]⟩ := by
        rcases begins with rfl | rfl
        · simp only [step, plainByte, if_neg special, if_neg apart]
          exact (if_neg stays).trans (if_neg stays)
        · simp only [step, plainByte, if_neg special, if_neg apart]
          exact if_neg stays
      refine ⟨.plain, ?_, by simp, by simp⟩
      rw [List.foldl_cons, first, foldl_plain others, List.reverse_cons]
  | quoted =>
    have first : step ⟨mode, records, fields, []⟩ quote = ⟨.quoted, records, fields, []⟩ := by
      rcases begins with rfl | rfl <;> rfl
    refine ⟨.quoteSeen, ?_, by simp, by simp⟩
    rw [List.foldl_cons, first, List.foldl_append, foldl_quoted, List.append_nil]
    rfl

end

/-! Records and tables. -/

theorem foldl_record (records : List Record) {record : Record} {bytes : List UInt8}
    (written : RecordForm record bytes) {mode : Mode} (begins : mode = .recordStart ∨ mode = .fieldStart) (fields : Record) :
    ∃ t : State, bytes.foldl step ⟨mode, records, fields, []⟩ = t ∧
      t.endRecord = ⟨.recordStart, (fields.reverse ++ record) :: records, [], []⟩ ∧
      t.mode ≠ .quoted ∧ (t.mode = .recordStart → mode = .recordStart ∧ bytes = []) := by
  induction written generalizing mode fields with
  | last field =>
    obtain ⟨m, read, outside, begun⟩ := foldl_field field begins
    exact ⟨_, read, by simp [endRecord, endField], outside, begun⟩
  | @more field bytes rest others written _ ih =>
    obtain ⟨m, read, outside, -⟩ := foldl_field written begins
    obtain ⟨t, read', ended, outside', begun⟩ := ih (.inr rfl) (field :: fields)
    refine ⟨t, ?_, by simpa using ended, outside', fun start => by simpa using begun start⟩
    rw [List.foldl_append, read, List.foldl_cons, step_comma outside, ← read']
    simp [endField]

/-- Reading a written table adds its records. -/
theorem foldl_table (records : List Record) {added : List Record} {bytes : List UInt8} (written : TableForm added bytes) :
    (bytes.foldl step ⟨.recordStart, records, [], []⟩).finish = records.reverse ++ added := by
  induction written generalizing records with
  | done => simp [finish]
  | @skip _ b _ ends _ ih =>
    have stays : step ⟨.recordStart, records, [], []⟩ b = ⟨.recordStart, records, [], []⟩ :=
      if_pos ends
    rw [List.foldl_cons, stays, ih records]
  | unended record nonempty =>
    obtain ⟨t, read, ended, -, begun⟩ := foldl_record records record (.inl rfl) []
    have inside : t.mode ≠ .recordStart := fun start => nonempty (begun start).2
    rw [read, finish_inside inside, ended]
    simp
  | row record nonempty ends _ ih =>
    obtain ⟨t, read, ended, outside, begun⟩ := foldl_record records record (.inl rfl) []
    have inside : t.mode ≠ .recordStart := fun start => nonempty (begun start).2
    rw [List.foldl_append, read, List.foldl_cons, step_break outside inside ends, ended, ih (_ :: records)]
    simp

end State

/-! The byte order mark. -/

/-- The bytes of a table, with a byte order mark in front or without; what is written without one must
not begin with the same byte. -/
inductive Written : List Record → List UInt8 → Prop where
  | marked {records : List Record} {bytes : List UInt8} : TableForm records bytes →
      Written records (0xEF :: 0xBB :: 0xBF :: bytes)
  | unmarked {records : List Record} {bytes : List UInt8} : TableForm records bytes →
      (∀ record ∈ records.head?, ∀ field ∈ record.head?, field.head? ≠ some 0xEF) →
      Written records bytes

theorem FieldForm.head {field bytes : List UInt8} (written : FieldForm field bytes)
    (apart : field.head? ≠ some 0xEF) : bytes.head? ≠ some 0xEF := by
  cases written with
  | plain => exact apart
  | quoted => simp [quote]

theorem RecordForm.head {record : Record} {bytes : List UInt8} (written : RecordForm record bytes)
    (apart : ∀ field ∈ record.head?, field.head? ≠ some 0xEF) : bytes.head? ≠ some 0xEF := by
  cases written with
  | last field => exact field.head (apart _ rfl)
  | @more field bytes rest fields written =>
    have first := written.head (apart _ rfl)
    cases bytes with
    | nil => simp [comma]
    | cons b bytes => exact first

theorem TableForm.head {records : List Record} {bytes : List UInt8} (written : TableForm records bytes)
    (apart : ∀ record ∈ records.head?, ∀ field ∈ record.head?, field.head? ≠ some 0xEF) :
    bytes.head? ≠ some 0xEF := by
  cases written with
  | done => simp
  | skip ends => rcases ends with rfl | rfl <;> simp [lineFeed, carriageReturn]
  | unended record => exact record.head (apart _ rfl)
  | @row _ _ _ bytes _ record nonempty =>
    have first := record.head (apart _ rfl)
    cases bytes with
    | nil => exact absurd rfl nonempty
    | cons b bytes => exact first

/-- A written table is read back. -/
theorem records_written {added : List Record} {bytes : List UInt8} (written : Written added bytes) :
    records bytes = added := by
  cases written with
  | marked table => exact State.foldl_table [] table
  | unmarked table apart =>
    have kept : dropMark bytes = bytes := by
      unfold dropMark
      split
      · exact absurd rfl (table.head apart)
      · rfl
    rw [records, kept]
    exact State.foldl_table [] table

end Vivarium.Csv
