/-!
Tables of comma separated fields, read byte by byte. A field may be quoted from its first byte on;
inside quotes a doubled quote stands for one, and what follows the closing quote belongs to the
field. A record ends at a line feed or a carriage return, and empty lines are no records. An open
quote runs to the end of the table.
-/
namespace Vivarium.Csv

/-- A record is the list of its fields, as bytes. -/
abbrev Record := List (List UInt8)

/-- What the next byte belongs to. -/
inductive Mode where
  | recordStart | fieldStart | plain | quoted | quoteSeen

/-- What has been read: complete records, the fields of the open record and the bytes of the open
field, each latest first. -/
structure State where
  mode : Mode
  records : List Record
  fields : Record
  field : List UInt8

def lineFeed : UInt8 := 10
def carriageReturn : UInt8 := 13
def quote : UInt8 := 34
def comma : UInt8 := 44

namespace State

def start : State := ⟨.recordStart, [], [], []⟩

def endField (s : State) : State :=
  { s with mode := .fieldStart, fields := s.field.reverse :: s.fields, field := [] }

def endRecord (s : State) : State :=
  let s := s.endField
  { s with mode := .recordStart, records := s.fields.reverse :: s.records, fields := [] }

def put (s : State) (mode : Mode) (b : UInt8) : State := { s with mode, field := b :: s.field }

/-- A byte that is not special in any way here: it ends the field or the record, or joins the field. -/
def plainByte (s : State) (b : UInt8) : State :=
  if b = comma then s.endField
  else if b = lineFeed ∨ b = carriageReturn then s.endRecord
  else s.put .plain b

def step (s : State) (b : UInt8) : State :=
  match s.mode with
  | .recordStart =>
    if b = lineFeed ∨ b = carriageReturn then s
    else if b = quote then { s with mode := .quoted }
    else s.plainByte b
  | .fieldStart => if b = quote then { s with mode := .quoted } else s.plainByte b
  | .plain => s.plainByte b
  | .quoted => if b = quote then { s with mode := .quoteSeen } else s.put .quoted b
  | .quoteSeen => if b = quote then s.put .quoted b else s.plainByte b

/-- The records in order, the one that the end of the table closes included. -/
def finish (s : State) : List Record :=
  match s.mode with
  | .recordStart => s.records.reverse
  | _ => s.endRecord.records.reverse

end State

/-- A byte order mark in front is no part of the table. -/
def dropMark : List UInt8 → List UInt8
  | 0xEF :: 0xBB :: 0xBF :: rest => rest
  | bytes => bytes

def records (bytes : List UInt8) : List Record :=
  ((dropMark bytes).foldl State.step .start).finish

end Vivarium.Csv
