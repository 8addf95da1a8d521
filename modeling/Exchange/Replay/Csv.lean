import Exchange.Text.WhiteSpace

/-!
# CSV records

A CSV text is read as records of fields, separated by commas and ended by `LF`, `CR` or
`CR LF`. Blank lines are skipped. A field that starts with a double quote runs to the next lone
double quote, holding commas and line ends, with `""` standing for one quote; anything after its
closing quote up to the next comma or line end is kept as it stands. A quote anywhere else is an
ordinary character. An unclosed quote ends at the end of the text. A byte-order mark at the very
start is dropped.

Each field is trimmed of Unicode white space. Each record remembers where it starts, as a line
number from 1 and a byte offset from 0, for error messages: the position right after the previous
record's line end.
-/

namespace Exchange

/-- One record and where it starts. -/
structure CsvRecord where
  fields : List String
  line : Nat
  byte : Nat
  deriving DecidableEq, Repr

namespace Csv

/-- A field's text, trimmed of white space at both ends. -/
def trimField (cs : List Char) : String := String.ofList (trimWhiteSpace cs)

/-- Where the reader stands inside a record. -/
inductive Mode where
  /-- Between records, skipping blank lines. -/
  | between
  /-- At the start of a field. -/
  | fieldStart
  /-- Inside an unquoted field. -/
  | plain
  /-- Inside a quoted field. -/
  | quoted
  /-- Right after a quote inside a quoted field. -/
  | afterQuote
  deriving DecidableEq, Repr

/-- The reader's state: the record being read and the records done, newest first. -/
structure State where
  mode : Mode := .between
  field : List Char := []
  fields : List String := []
  line : Nat := 1
  byte : Nat := 0
  startLine : Nat := 1
  startByte : Nat := 0
  done : List CsvRecord := []

namespace State

def endField (s : State) : State :=
  { s with fields := trimField s.field.reverse :: s.fields, field := [], mode := .fieldStart }

def endRecord (s : State) : State :=
  let s := s.endField
  { s with done := ⟨s.fields.reverse, s.startLine, s.startByte⟩ :: s.done, fields := [],
           mode := .between }

def push (s : State) (c : Char) (mode : Mode) : State := { s with field := c :: s.field, mode }

def isLineEnd (c : Char) : Bool := c = '\n' || c = '\r'

/-- Takes one character, before the position moves past it. -/
def take (s : State) (c : Char) : State :=
  match s.mode with
  | .between =>
    if isLineEnd c then s
    else if c = '"' then { s with mode := .quoted }
    else if c = ',' then { s with mode := .fieldStart }.endField
    else s.push c .plain
  | .fieldStart =>
    if c = '"' then { s with mode := .quoted }
    else if c = ',' then s.endField
    else if isLineEnd c then s.endRecord
    else s.push c .plain
  | .plain =>
    if c = ',' then s.endField
    else if isLineEnd c then s.endRecord
    else s.push c .plain
  | .quoted => if c = '"' then { s with mode := .afterQuote } else s.push c .quoted
  | .afterQuote =>
    if c = '"' then s.push c .quoted
    else if c = ',' then s.endField
    else if isLineEnd c then s.endRecord
    else s.push c .plain

/-- Moves the position past a character; a record that ended starts the next one here. -/
def advance (s : State) (c : Char) (ended : Bool) : State :=
  let line := if c = '\n' then s.line + 1 else s.line
  let byte := s.byte + c.utf8Size
  if ended then { s with line, byte, startLine := line, startByte := byte }
  else { s with line, byte }

def step (s : State) (c : Char) : State :=
  let t := s.take c
  t.advance c (t.done.length != s.done.length)

/-- Ends the text: a record in progress is complete. -/
def finish (s : State) : List CsvRecord :=
  (if s.mode = .between then s else s.endRecord).done.reverse

end State

/-- The records of a CSV text. -/
def records (text : String) : List CsvRecord :=
  let cs := match text.toList with
    | '\uFEFF' :: rest => rest
    | cs => cs
  let start : State := { byte := text.utf8ByteSize - (String.ofList cs).utf8ByteSize }
  (cs.foldl State.step { start with startByte := start.byte }).finish

end Csv

end Exchange
