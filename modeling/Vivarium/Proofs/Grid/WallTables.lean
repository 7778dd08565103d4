import Mathlib.Data.List.Forall2
import Vivarium.Grid.WallTable
import Vivarium.Proofs.Grid.DirectionNames
import Vivarium.Proofs.Text.Csv

/-! Tables of walls, written and read. What is written in a table comes back, whatever choices the writer
has: the order of the columns, the line breaks, the quotes, and the spelling of the directions. A table that
holds anything else is refused for the first record that is no wall, and no part of it is used. -/
namespace Vivarium

namespace WallTable

/-! Fields that are texts. -/

/-- The bytes of a text. -/
def bytesOf (text : String) : List UInt8 := text.toByteArray.data.toList

theorem utf8?_eq_some {field : List UInt8} {text : String} :
    utf8? field = some text ↔ field = bytesOf text := by
  have same : field = bytesOf text ↔ (⟨field.toArray⟩ : ByteArray) = text.toByteArray := by
    rw [bytesOf, ByteArray.ext_iff, ← Array.toList_inj]
  rw [utf8?, String.fromUTF8?, same]
  split
  · rw [Option.some.injEq, ← String.toByteArray_inj]
    rfl
  · rename_i invalid
    refine iff_of_false (by simp) fun encoded => invalid ?_
    rw [encoded]
    exact text.isValidUTF8

theorem mapM_utf8? {record : Csv.Record} {texts : List String} :
    record.mapM utf8? = some texts ↔ record = texts.map bytesOf := by
  induction record generalizing texts with
  | nil => cases texts <;> simp
  | cons field rest ih =>
    cases texts <;>
      simp [List.mapM_cons, Option.bind_eq_some_iff, utf8?_eq_some, ih]

/-! Coordinates. -/

/-- A coordinate in decimal digits. -/
def decimal (n : UInt32) : String := n.toNat.repr

theorem digit?_isDigit {c : Char} (digit : c.isDigit = true) :
    digit? 10 c = some (c.toNat - '0'.toNat) := by
  obtain ⟨low, high⟩ := Char.isDigit_iff_toNat.mp digit
  have named : '0' ≤ c ∧ c ≤ '9' := by
    rw [Char.le_def, Char.le_def, UInt32.le_iff_toNat_le, UInt32.le_iff_toNat_le]
    exact ⟨low, high⟩
  have small : c.toNat - '0'.toNat < 10 := by
    have nine : '9'.toNat = '0'.toNat + 9 := rfl
    omega
  rw [digit?, if_pos named, Option.filter_some, if_pos (decide_eq_true small)]

theorem mapM_digits {cs : List Char} (digits : ∀ c ∈ cs, c.isDigit = true) :
    cs.mapM (digit? 10) = some (cs.map fun c => c.toNat - '0'.toNat) := by
  induction cs with
  | nil => rfl
  | cons c cs ih =>
    obtain ⟨first, others⟩ := List.forall_mem_cons.mp digits
    simp [List.mapM_cons, digit?_isDigit first, ih others]

/-- Digits are read as the number that they denote. -/
theorem numeral?_digits {cs : List Char} (nonempty : cs ≠ [])
    (digits : ∀ c ∈ cs, c.isDigit = true) (fits : Nat.ofDigitChars 10 cs 0 < UInt32.size) :
    numeral? 10 cs = some (UInt32.ofNat (Nat.ofDigitChars 10 cs 0)) := by
  have unsigned : ∀ rest, cs = '+' :: rest → False := fun rest signed => by
    simp [signed] at digits
  have value : (cs.map fun c => c.toNat - '0'.toNat).foldl (fun n d => n * 10 + d) 0 =
      Nat.ofDigitChars 10 cs 0 := by
    rw [List.foldl_map, Nat.ofDigitChars_eq_foldl]
    simp only [Nat.mul_comm]
  unfold numeral?
  split
  · exact (unsigned _ rfl).elim
  · rw [if_neg (by simpa using nonempty), mapM_digits digits]
    simp only [bind, Option.bind, value]
    exact if_pos fits

theorem coordinate?_decimal (n : UInt32) : coordinate? (decimal n) = some n := by
  have digits : ∀ c ∈ (decimal n).toList, c.isDigit = true := fun c among =>
    Nat.isDigit_of_mem_toDigits (by decide) (by decide) (Nat.toList_repr ▸ among)
  have nonempty : (decimal n).toList ≠ [] := by
    rw [decimal, Nat.toList_repr]
    exact Nat.toDigits_ne_nil
  have value : Nat.ofDigitChars 10 (decimal n).toList 0 = n.toNat := by
    rw [decimal, Nat.toList_repr, Nat.ofDigitChars_ten_toDigits]
  have plain : ∀ rest, (decimal n).toList ≠ '0' :: 'x' :: rest := fun rest other => by
    simp [other] at digits
  have read := numeral?_digits nonempty digits (value ▸ n.toNat_lt_size)
  rw [value, UInt32.ofNat_toNat] at read
  rw [coordinate?]
  split
  · exact absurd ‹_› (plain _)
  · exact read

/-! Columns. -/

/-- The cell under a name, if the header names it once. -/
theorem place?_cell {names : List String} {name : String} (once : names.count name = 1) :
    ∃ i, place? names name = some i ∧ ∀ {texts : List String}, texts.length = names.length →
      ∀ t, texts[i]? = some t ↔ (name, t) ∈ names.zip texts := by
  rw [place?, if_pos once]
  induction names with
  | nil => simp at once
  | cons other names ih =>
    by_cases here : other = name
    · subst here
      have absent : ∀ (t : String) texts, (other, t) ∉ names.zip texts := fun t texts among => by
        have again := List.count_pos_iff.mpr (List.of_mem_zip among).1
        rw [List.count_cons_self] at once
        omega
      refine ⟨0, by simp [List.findIdx?_cons], fun {texts} same t => ?_⟩
      cases texts with
      | nil => simp at same
      | cons text texts => simp [absent, eq_comm]
    · obtain ⟨i, found, cell⟩ := ih (by simpa [here] using once)
      refine ⟨i + 1, by simp [List.findIdx?_cons, here, found], fun {texts} same t => ?_⟩
      cases texts with
      | nil => simp at same
      | cons text texts =>
        have same : texts.length = names.length := by simpa using same
        simpa [Ne.symm here] using cell same t

/-- The header names each of the three columns once. -/
def Headed (names : List String) : Prop :=
  ∀ name ∈ ["x", "y", "direction"], names.count name = 1

/-- What a record says under a header: the header has the three columns, the record is as wide, all its
cells are texts, and those under the columns are two coordinates and a text for the direction. -/
structure Cells (names : List String) (record : Csv.Record) (x y : UInt32) (text : String) : Prop where
  headed : Headed names
  exists_texts : ∃ texts : List String, record = texts.map bytesOf ∧ texts.length = names.length ∧
    (∃ t, ("x", t) ∈ names.zip texts ∧ coordinate? t = some x) ∧
    (∃ t, ("y", t) ∈ names.zip texts ∧ coordinate? t = some y) ∧
    ("direction", text) ∈ names.zip texts

section
variable {names : List String} {record : Csv.Record} {x y : UInt32} {text : String}

theorem place?_once {name : String} {i : Nat} (found : place? names name = some i) :
    names.count name = 1 := by
  rw [place?] at found
  split at found
  · assumption
  · cases found

theorem headed_of_columns? {columns : Columns} (found : columns? (names.map bytesOf) = some columns) :
    Headed names := by
  rw [columns?, mapM_utf8?.mpr rfl] at found
  simp only [bind, Option.bind_eq_some_iff] at found
  obtain ⟨_, foundX, _, foundY, _, foundD, -⟩ := found
  simp [Headed, place?_once foundX, place?_once foundY, place?_once foundD]

/-- Without the columns nothing is read. -/
theorem fields?_unheaded (unheaded : ¬Headed names) :
    fields? (names.map bytesOf).length (columns? (names.map bytesOf)) record = none := by
  cases found : columns? (names.map bytesOf) with
  | some columns => exact absurd (headed_of_columns? found) unheaded
  | none =>
    rw [fields?]
    split
    · rfl
    · cases record.mapM utf8? <;> rfl

theorem fields?_eq_some :
    fields? (names.map bytesOf).length (columns? (names.map bytesOf)) record = some (x, y, text) ↔
      Cells names record x y text := by
  by_cases headed : Headed names
  case neg =>
    rw [fields?_unheaded headed]
    exact iff_of_false (by simp) fun cells => headed cells.headed
  obtain ⟨atX, foundX, cellX⟩ := place?_cell (headed "x" (by simp))
  obtain ⟨atY, foundY, cellY⟩ := place?_cell (headed "y" (by simp))
  obtain ⟨atD, foundD, cellD⟩ := place?_cell (headed "direction" (by simp))
  have columns : columns? (names.map bytesOf) = some ⟨atX, atY, atD⟩ := by
    rw [columns?, mapM_utf8?.mpr rfl]
    simp [foundX, foundY, foundD]
  rw [columns, fields?]
  constructor
  · intro read
    split at read
    · cases read
    · rename_i wide
      simp only [bind, Option.bind_eq_some_iff, Option.some.injEq, exists_eq_left'] at read
      obtain ⟨texts, decoded, tx, underX, x, readX, ty, underY, y, readY, text, underD, ⟨⟩⟩ := read
      obtain rfl := mapM_utf8?.mp decoded
      have same : texts.length = names.length := by simpa using wide
      exact ⟨headed, texts, rfl, same, ⟨tx, (cellX same tx).mp underX, readX⟩,
        ⟨ty, (cellY same ty).mp underY, readY⟩, (cellD same text).mp underD⟩
  · rintro ⟨-, texts, rfl, same, ⟨tx, underX, readX⟩, ⟨ty, underY, readY⟩, underD⟩
    rw [if_neg (by simp [same]), mapM_utf8?.mpr rfl]
    rw [← cellX same] at underX
    rw [← cellY same] at underY
    rw [← cellD same] at underD
    simp [underX, underY, underD, readX, readY]

/-- A record says one thing only. -/
theorem Cells.unique {x' y' : UInt32} {text' : String} (cells : Cells names record x y text)
    (cells' : Cells names record x' y' text') : x = x' ∧ y = y' ∧ text = text' := by
  have same := (fields?_eq_some.mpr cells).symm.trans (fields?_eq_some.mpr cells')
  rwa [Option.some.injEq, Prod.mk.injEq, Prod.mk.injEq] at same

theorem fields?_eq_none :
    fields? (names.map bytesOf).length (columns? (names.map bytesOf)) record = none ↔
      ∀ x y text, ¬Cells names record x y text := by
  simp only [← fields?_eq_some, Option.eq_none_iff_forall_ne_some, Prod.forall, ne_eq]

end

/-! Rows. -/

section
variable {names : List String} {rows : List Csv.Record} {row : Nat} {record : Csv.Record} {w w' : Wall}
  {e e' : WallTableError}

/-- The record is a wall. -/
def Lists (names : List String) (record : Csv.Record) (w : Wall) : Prop :=
  ∃ text, Cells names record w.x w.y text ∧ w.direction.Spells text

/-- Why the record in a row is none. -/
def Rejects (names : List String) (row : Nat) (record : Csv.Record) (e : WallTableError) : Prop :=
  ((∀ x y text, ¬Cells names record x y text) ∧ e = .malformed) ∨
    ∃ x y text, Cells names record x y text ∧ (∀ d : Direction, ¬d.Spells text) ∧
      e = .badDirection row text

theorem Lists.unique (lists : Lists names record w) (lists' : Lists names record w') : w = w' := by
  obtain ⟨x, y, d⟩ := w
  obtain ⟨x', y', d'⟩ := w'
  obtain ⟨text, cells, spells⟩ := lists
  obtain ⟨text', cells', spells'⟩ := lists'
  obtain ⟨rfl, rfl, rfl⟩ := cells.unique cells'
  obtain rfl : d = d' := spells.unique spells'
  rfl

theorem Rejects.not_lists (rejects : Rejects names row record e) (w : Wall) :
    ¬Lists names record w := by
  rintro ⟨text, cells, spells⟩
  rcases rejects with ⟨none, -⟩ | ⟨x, y, text', cells', unspelt, -⟩
  · exact none _ _ _ cells
  · obtain ⟨-, -, rfl⟩ := cells.unique cells'
    exact unspelt _ spells

theorem Rejects.unique (rejects : Rejects names row record e) (rejects' : Rejects names row record e') :
    e = e' := by
  rcases rejects with ⟨none, rfl⟩ | ⟨x, y, text, cells, -, rfl⟩ <;>
    rcases rejects' with ⟨none', rfl⟩ | ⟨x', y', text', cells', -, rfl⟩
  · rfl
  · exact absurd cells' (none _ _ _)
  · exact absurd cells (none' _ _ _)
  · obtain ⟨-, -, rfl⟩ := cells.unique cells'
    rfl

/-- The walls of the records under a header, numbered from `row`. -/
def rowsFrom (names : List String) (row : Nat) (rows : List Csv.Record) :
    Except WallTableError (List Wall) :=
  wallsFrom (names.map bytesOf).length (columns? (names.map bytesOf)) row rows

/-- A record is a wall, or reading stops at it. -/
theorem rowsFrom_cons (names : List String) (row : Nat) (record : Csv.Record)
    (rest : List Csv.Record) :
    (∃ e, Rejects names row record e ∧ rowsFrom names row (record :: rest) = .error e) ∨
      ∃ w, Lists names record w ∧
        rowsFrom names row (record :: rest) = (rowsFrom names (row + 1) rest).map (w :: ·) := by
  rw [rowsFrom, wallsFrom]
  cases read : fields? (names.map bytesOf).length (columns? (names.map bytesOf)) record with
  | none => exact .inl ⟨_, .inl ⟨fields?_eq_none.mp read, rfl⟩, rfl⟩
  | some cells =>
    obtain ⟨x, y, text⟩ := cells
    have cells := fields?_eq_some.mp read
    cases named : Direction.ofName? text with
    | none =>
      have unspelt := Direction.ofName?_eq_none.mp named
      exact .inl ⟨_, .inr ⟨x, y, text, cells, unspelt, rfl⟩, by simp only [named]⟩
    | some d =>
      have spells := Direction.ofName?_eq_some.mp named
      exact .inr ⟨⟨x, y, d⟩, ⟨text, cells, spells⟩, by simp only [named, rowsFrom]⟩

/-- A table is read only as a whole. -/
theorem rowsFrom_eq_ok {walls : List Wall} :
    rowsFrom names row rows = .ok walls ↔ List.Forall₂ (Lists names) rows walls := by
  induction rows generalizing row walls with
  | nil => cases walls <;> simp [rowsFrom, wallsFrom]
  | cons record rest ih =>
    rcases rowsFrom_cons names row record rest with ⟨e, rejects, stops⟩ | ⟨w, lists, goes⟩
    · rw [stops]
      refine iff_of_false (by simp) fun all => ?_
      cases all with
      | cons first _ => exact rejects.not_lists _ first
    · rw [goes]
      constructor
      · intro read
        rcases others : rowsFrom names (row + 1) rest with e | walls'
        · rw [others] at read
          cases read
        · rw [others] at read
          cases read
          exact .cons lists (ih.mp others)
      · rintro (_ | ⟨first, others⟩)
        rw [ih.mpr others, lists.unique first]
        rfl

/-- Reading stops at the first record that is no wall. -/
theorem rowsFrom_eq_error :
    rowsFrom names row rows = .error e ↔
      ∃ before record after, rows = before ++ record :: after ∧
        (∀ r ∈ before, ∃ w, Lists names r w) ∧ Rejects names (row + before.length) record e := by
  induction rows generalizing row with
  | nil => simp [rowsFrom, wallsFrom]
  | cons record rest ih =>
    rcases rowsFrom_cons names row record rest with ⟨e, rejects, stops⟩ | ⟨w, lists, goes⟩
    · rw [stops]
      constructor
      · rintro ⟨⟩
        exact ⟨[], record, rest, rfl, List.forall_mem_nil _, rejects⟩
      · rintro ⟨before, other, after, parts, walls, rejects'⟩
        -- The first record that is no wall is this one, so none stands before it.
        cases before with
        | nil =>
          obtain ⟨rfl, -⟩ := List.cons.inj parts
          rw [rejects.unique rejects']
        | cons r before =>
          obtain ⟨rfl, -⟩ := List.cons.inj parts
          obtain ⟨w, lists⟩ := walls _ List.mem_cons_self
          exact absurd lists (rejects.not_lists w)
    · have passes : rowsFrom names row (record :: rest) = .error e ↔
          rowsFrom names (row + 1) rest = .error e := by
        rw [goes]
        cases rowsFrom names (row + 1) rest <;> simp [Except.map]
      rw [passes, ih]
      constructor
      · rintro ⟨before, other, after, rfl, walls, rejects⟩
        refine ⟨record :: before, other, after, rfl, List.forall_mem_cons.mpr ⟨⟨w, lists⟩, walls⟩, ?_⟩
        rwa [List.length_cons, ← Nat.add_assoc, Nat.add_right_comm]
      · rintro ⟨before, other, after, parts, walls, rejects⟩
        cases before with
        | nil =>
          obtain ⟨rfl, -⟩ := List.cons.inj parts
          exact absurd lists (rejects.not_lists w)
        | cons r before =>
          obtain ⟨-, rfl⟩ := List.cons.inj parts
          refine ⟨before, other, after, rfl, (List.forall_mem_cons.mp walls).2, ?_⟩
          rwa [List.length_cons, ← Nat.add_assoc, Nat.add_right_comm] at rejects

/-! Tables. -/

/-- A wall as it is written: the coordinates in decimal digits and the direction in any spelling, each in
its column. What stands in other columns does not matter. -/
structure Row (names : List String) (w : Wall) (texts : List String) : Prop where
  width : texts.length = names.length
  x : ("x", decimal w.x) ∈ names.zip texts
  y : ("y", decimal w.y) ∈ names.zip texts
  direction : ∃ text, ("direction", text) ∈ names.zip texts ∧ w.direction.Spells text

theorem Row.lists {texts : List String} (row : Row names w texts) (headed : Headed names) :
    Lists names (texts.map bytesOf) w := by
  obtain ⟨text, under, spells⟩ := row.direction
  exact ⟨text, ⟨headed, texts, rfl, row.width, ⟨_, row.x, coordinate?_decimal w.x⟩,
    ⟨_, row.y, coordinate?_decimal w.y⟩, under⟩, spells⟩

theorem headed_of_perm (perm : names.Perm ["x", "y", "direction"]) : Headed names := by
  intro name among
  rw [perm.count_eq]
  simp only [List.mem_cons, List.not_mem_nil, or_false] at among
  rcases among with rfl | rfl | rfl <;> decide

end

/-- Reading a written table. Walls that are written down under a header with the three columns come back
in order, whatever the order of the columns, the line breaks, the quotes and the spellings. A table is read
only if each of its records is a wall, and is otherwise refused for the first that is none: a record that
cannot be read at all, or one whose direction is no spelling of any; then its number, counted from one, and
the text are reported. -/
theorem tables_exact {names : List String} {rows : List Csv.Record} {bytes : List UInt8}
    (written : Csv.Written (names.map bytesOf :: rows) bytes) :
    (∀ walls texts, Headed names → rows = texts.map (List.map bytesOf) →
      List.Forall₂ (Row names) walls texts → read bytes = .ok walls) ∧
    (∀ walls, read bytes = .ok walls ↔ List.Forall₂ (Lists names) rows walls) ∧
    (∀ e, read bytes = .error e ↔ ∃ before record after, rows = before ++ record :: after ∧
      (∀ r ∈ before, ∃ w, Lists names r w) ∧ Rejects names (before.length + 1) record e) ∧
    ∀ row text, (WallTableError.badDirection row text).message? = some
      s!"wall list parse error: row {row}: invalid direction {Text.quoted text}, expected N, E, S or W" := by
  have step : read bytes = rowsFrom names 1 rows := by
    rw [read, Csv.records_written written, rowsFrom]
  have whole : ∀ walls, read bytes = .ok walls ↔ List.Forall₂ (Lists names) rows walls := by
    intro walls
    rw [step, rowsFrom_eq_ok]
  refine ⟨?_, whole, fun e => ?_, fun _ _ => rfl⟩
  · rintro walls texts headed rfl all
    rw [whole, List.forall₂_map_left_iff]
    exact all.flip.imp fun _ _ row => row.lists headed
  · simp only [step, rowsFrom_eq_error, Nat.add_comm 1]

/-- Two walls, of which one has its direction in quotes, under columns in another order and with line
breaks of several kinds. -/
theorem tables_exact_two_walls :
    let names := ["direction", "y", "x"]
    let texts := [[" North ", "0", "7"], ["w", "2", "4294967295"]]
    let bytes := bytesOf "direction,y,x\r\n\" North \",0,7\r\n\nw,2,4294967295"
    Headed names ∧ Csv.Written (names.map bytesOf :: texts.map (List.map bytesOf)) bytes ∧
      read bytes = .ok [⟨7, 0, .north⟩, ⟨4294967295, 2, .west⟩] := by
  intro names texts bytes
  have headed : Headed names := headed_of_perm (by decide)
  have plain : ∀ text ∈ ["direction", "y", "x", "0", "7", "w", "2", "4294967295"],
      (∀ b ∈ bytesOf text, b ≠ Csv.comma ∧ ¬Csv.IsBreak b) ∧
        (bytesOf text).head? ≠ some Csv.quote := by decide +kernel
  have field : ∀ text ∈ ["direction", "y", "x", "0", "7", "w", "2", "4294967295"],
      Csv.FieldForm (bytesOf text) (bytesOf text) := fun text among =>
    .plain (plain text among).1 (plain text among).2
  have header : Csv.RecordForm (names.map bytesOf)
      (bytesOf "direction" ++ Csv.comma :: (bytesOf "y" ++ Csv.comma :: bytesOf "x")) :=
    .more (field _ (by simp)) (.more (field _ (by simp)) (.last (field _ (by simp))))
  have first : Csv.RecordForm ([" North ", "0", "7"].map bytesOf)
      ((Csv.quote :: (Csv.doubled (bytesOf " North ") ++ [Csv.quote])) ++
        Csv.comma :: (bytesOf "0" ++ Csv.comma :: bytesOf "7")) :=
    .more .quoted (.more (field _ (by simp)) (.last (field _ (by simp))))
  have second : Csv.RecordForm (["w", "2", "4294967295"].map bytesOf)
      (bytesOf "w" ++ Csv.comma :: (bytesOf "2" ++ Csv.comma :: bytesOf "4294967295")) :=
    .more (field _ (by simp)) (.more (field _ (by simp)) (.last (field _ (by simp))))
  have table := Csv.TableForm.row header (by simp) (.inr rfl) (.skip (.inl rfl)
    (.row first (by simp) (.inr rfl) (.skip (.inl rfl) (.skip (.inl rfl)
      (.unended second (by simp))))))
  have written : Csv.Written (names.map bytesOf :: texts.map (List.map bytesOf)) bytes := by
    refine .unmarked (Eq.mp (congrArg _ ?_) table) ?_
    · decide +kernel
    · decide +kernel
  refine ⟨headed, written, (tables_exact written).1 _ texts headed rfl ?_⟩
  refine .cons ⟨rfl, by decide +kernel, by decide +kernel, " North ", by decide, ?_⟩
    (.cons ⟨rfl, by decide +kernel, by decide +kernel, "w", by decide, ?_⟩ .nil)
  · exact ⟨[' '], "North".toList, [' '], by decide, by simp [Text.isBlank], .inr (by decide)⟩
  · exact ⟨[], ['w'], [], by decide, by simp, .inl (by decide)⟩

end WallTable
end Vivarium
