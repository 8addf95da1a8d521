import Exchange.Replay.Csv
import Exchange.Replay.Timestamp
import Exchange.Number.Decimal
import Exchange.Number.Nearest
import Exchange.Wire.Record
import Exchange.Text.Printable
import Exchange.Number.Integer

/-!
# Replay rows

A replay source is a CSV table of client requests with a header naming its columns:
`timestamp`, `kind`, `client_id`, `ticker_id`, `order_id`, `side`, `price` and `qty`, in any
order; other columns are ignored. `timestamp`, `price` and `qty` may be missing or empty; the
other five must be there. Every row must have as many fields as the header.

Numbers: ids and quantities are unsigned decimals (a leading `+` allowed, leading zeros too) or
hexadecimal after `0x`, read as `parseInteger` reads them. A price is read by its shape: `true`
and `false` are refused; a text that reads as a 64-bit integer is that integer; a larger integer
is refused; a text that reads as a double is that double, written out in shortest form and read
back as a decimal (so infinities and NaN are refused); anything else is read as a decimal
directly.

Each row then becomes a request. The kind is `NEW` or `CANCEL` in any case; the side is `buy` or
`bid`, `sell` or `ask` in any case, or empty for a cancel. A price is converted to ticks by
dividing by the tick size, which must be positive, and the quotient must be a whole number that
fits a price (the largest price is the invalid one). A cancel may leave price and quantity out;
a new order may not. Rows are numbered by line, the first after the header being line 2.
-/

namespace Exchange

/-- Why a replay source cannot be read. -/
inductive ReplayError where
  /-- A row that does not make a request: its line and why. -/
  | row (line : Nat) (message : String)
  /-- A table that is not of the expected shape, with the reader's message. -/
  | source (message : String)
  /-- An arithmetic fault while converting a price. -/
  | fault (f : Fault)
  deriving Repr

def ReplayError.message : ReplayError → String
  | .row line m => s!"replay row {line}: {m}"
  | .source m => s!"replay source error: {m}"
  | .fault f => f.message

/-- A request read from a row, with the row's timestamp. -/
structure ReplayEntry where
  timestamp : Option Timestamp
  request : Request
  deriving Repr

namespace Replay

/-! ## Integers -/

/-- Reads an unsigned field below `2^bits`: hexadecimal after `0x`, decimal otherwise. -/
def unsignedField (text : String) (bits : Nat) : Except String Nat :=
  let hi : Int := Int.pow 2 bits - 1
  let read := match text.toList with
    | '0' :: 'x' :: rest => parseInteger (String.ofList rest) 16 0 hi
    | _ => parseInteger text 10 0 hi
  read.map Int.toNat

/-! ## Prices -/

/-- A text as a debugging quote: in double quotes, with quotes, backslashes, the common control
characters and the characters of `isEscapedInQuote` escaped. -/
def quoted (s : String) : String :=
  let esc (c : Char) : List Char :=
    if c = '"' then ['\\', '"']
    else if c = '\\' then ['\\', '\\']
    else if c = '\n' then ['\\', 'n']
    else if c = '\r' then ['\\', 'r']
    else if c = '\t' then ['\\', 't']
    else if c = '\x00' then ['\\', '0']
    else if isEscapedInQuote c then
      "\\u".toList ++ '\x7b' :: (Nat.toDigits 16 c.toNat) ++ ['\x7d']
    else [c]
  String.ofList ('"' :: s.toList.flatMap esc ++ ['"'])

def expectedDecimal : String := "expected a Decimal type representing a fixed-point number"

/-- The text of a double with a point, as error messages quote it. -/
def floatWithPoint (x : Float) : String :=
  let t := floatText x
  if x.isNaN || x.isInf || t.any (· == '.') then t else t ++ ".0"

/-- Reads a price by its shape. -/
def priceField (text : String) : Except String Decimal :=
  let asInt (lo hi : Int) := (parseInteger text 10 lo hi).toOption
  if text = "true" || text = "false" then
    .error s!"invalid type: boolean `{text}`, {expectedDecimal}"
  else
    match asInt 0 (Int.pow 2 64 - 1) with
    | some v => .ok (Decimal.ofInt v)
    | none =>
      match asInt (-(Int.pow 2 63)) (Int.pow 2 63 - 1) with
      | some v => .ok (Decimal.ofInt v)
      | none =>
        match asInt 0 (Int.pow 2 128 - 1), asInt (-(Int.pow 2 127)) (Int.pow 2 127 - 1) with
        | some v, _ => .error s!"invalid type: integer `{v}` as u128, {expectedDecimal}"
        | none, some v => .error s!"invalid type: integer `{v}` as i128, {expectedDecimal}"
        | none, none =>
          match parseFloat? text with
          | some x =>
            match Decimal.parse (floatText x) with
            | .ok d => .ok d
            | .error _ => .error s!"invalid value: floating point `{floatWithPoint x}`, {expectedDecimal}"
          | none =>
            match Decimal.parse text with
            | .ok d => .ok d
            | .error _ => .error s!"invalid value: string {quoted text}, {expectedDecimal}"

/-! ## Rows -/

/-- The columns a row is read from. -/
structure Row where
  timestamp : Option Timestamp := none
  kind : Option String := none
  clientId : Option Nat := none
  tickerId : Option Nat := none
  orderId : Option Nat := none
  side : Option String := none
  price : Option Decimal := none
  qty : Option Nat := none
  /-- The known columns read so far. -/
  seen : List String := []

/-- Why a field does not read: the column it is in, when the reader knows it, and why. -/
structure FieldError where
  column : Option Nat
  message : String

/-- Sets one column of a row from its field. -/
def setColumn (r : Row) (column : Nat) (name value : String) : Except FieldError Row :=
  let atColumn {α : Type} (e : Except String α) : Except FieldError α := e.mapError (⟨some column, ·⟩)
  let loose {α : Type} (e : Except String α) : Except FieldError α := e.mapError (⟨none, ·⟩)
  let optional {α : Type} (read : String → Except FieldError α) : Except FieldError (Option α) :=
    if value.isEmpty then .ok none else (read value).map some
  let r := { r with seen := name :: r.seen }
  if name = "timestamp" then do
    let t ← optional fun v => loose ((Timestamp.parse v).mapError TimeError.message)
    return { r with timestamp := t }
  else if name = "kind" then .ok { r with kind := some value }
  else if name = "client_id" then do return { r with clientId := some (← atColumn (unsignedField value 32)) }
  else if name = "ticker_id" then do return { r with tickerId := some (← atColumn (unsignedField value 32)) }
  else if name = "order_id" then do return { r with orderId := some (← atColumn (unsignedField value 64)) }
  else if name = "side" then .ok { r with side := some value }
  else if name = "price" then do
    return { r with price := ← optional fun v => loose (priceField v) }
  else if name = "qty" then do
    return { r with qty := ← optional fun v => atColumn (unsignedField v 32) }
  else .ok r

/-- The names of the columns a row is read from. -/
def knownColumns : List String :=
  ["timestamp", "kind", "client_id", "ticker_id", "order_id", "side", "price", "qty"]

/-- A required column, or the error of its absence. -/
def required {α : Type} (name : String) : Option α → Except FieldError α
  | some v => .ok v
  | none => .error ⟨none, s!"missing field `{name}`"⟩

/-- A decoded row: the request's raw parts. -/
structure RawRequest where
  timestamp : Option Timestamp
  kind : String
  clientId : Nat
  tickerId : Nat
  orderId : Nat
  side : String
  price : Option Decimal
  qty : Option Nat

/-- Reads a record under the header's names. -/
def decode (header : List String) (fields : List String) : Except FieldError RawRequest := do
  let cells := (List.range fields.length).zip (header.zip fields)
  let row ← cells.foldlM (fun (r : Row) (i, name, value) =>
    if knownColumns.contains name && r.seen.contains name then
      .error ⟨none, s!"duplicate field `{name}`"⟩
    else setColumn r i name value) {}
  return { timestamp := row.timestamp, kind := ← required "kind" row.kind,
           clientId := ← required "client_id" row.clientId,
           tickerId := ← required "ticker_id" row.tickerId,
           orderId := ← required "order_id" row.orderId, side := ← required "side" row.side,
           price := row.price, qty := row.qty }

/-! ## Requests -/

/-- A price in ticks of `tick`, by the decimal division `div`. -/
def toTicksWith (div : Decimal → Decimal → Except Fault Decimal) (line : Nat) (price tick : Decimal) :
    Except ReplayError Int := do
  if tick.isNonPositive then
    throw (.row line s!"tick size must be positive, got {tick.toText}")
  let ticks ← (div price tick).mapError ReplayError.fault
  if !ticks.isWhole then
    throw (.row line s!"price {price.toText} is not a multiple of tick size {tick.toText}")
  match ticks.toInt64? with
  | some t => if t = Int.pow 2 63 - 1 then throw (.row line s!"price {price.toText} out of range") else return t
  | none => throw (.row line s!"price {price.toText} out of range")

/-- A price in ticks of `tick`. -/
def toTicks (line : Nat) (price tick : Decimal) : Except ReplayError Int :=
  toTicksWith Decimal.div line price tick

/-- The request a decoded row stands for. -/
def RawRequest.toRequest (r : RawRequest) (line : Nat) (tick : Decimal) : Except ReplayError Request := do
  let upper := r.kind.map Char.toUpper
  let kind : RequestKind ←
    if upper = "NEW" then pure .new
    else if upper = "CANCEL" then pure .cancel
    else throw (.row line s!"unknown request kind '{upper}'")
  let lower := r.side.map Char.toLower
  let side : Side ←
    if lower = "buy" || lower = "bid" then pure .buy
    else if lower = "sell" || lower = "ask" then pure .sell
    else if lower.isEmpty && kind = .cancel then pure .invalid
    else throw (.row line s!"unknown side '{lower}'")
  let price : Int ← match r.price with
    | some p => toTicks line p tick
    | none => if kind = .cancel then pure noPrice.toInt else throw (.row line "NEW without a price")
  let qty : Nat ← match r.qty with
    | some q => pure q
    | none => if kind = .cancel then pure noQty.toNat else throw (.row line "NEW without a quantity")
  return { kind, clientId := r.clientId.toUInt32, tickerId := r.tickerId.toUInt32,
           orderId := r.orderId.toUInt64, side, price := Int64.ofInt price, qty := qty.toUInt32 }

/-- A field's own message: its column, when known, and why it does not read. -/
def FieldError.text (e : FieldError) : String :=
  match e.column with
  | some c => s!"field {c}: {e.message}"
  | none => e.message

/-- The reader's message for a field that does not read, at a record. -/
def deserializeError (index : Nat) (rec : CsvRecord) (e : FieldError) : String :=
  s!"CSV deserialize error: record {index} (line: {rec.line}, byte: {rec.byte}): {e.text}"

/-- The reader's message for a record of the wrong length. -/
def lengthError (index : Nat) (rec : CsvRecord) (expected : Nat) : String :=
  s!"CSV error: record {index} (line: {rec.line}, byte: {rec.byte}): found record with " ++
  s!"{rec.fields.length} fields, but the previous record has {expected} fields"

/-- Reads the rows after the header, the first of them being record `index`. -/
def readRows (header : List String) (tick : Decimal) (index : Nat) :
    List CsvRecord → Except ReplayError (List ReplayEntry)
  | [] => .ok []
  | rec :: rest => do
    if rec.fields.length ≠ header.length then
      throw (.source (lengthError index rec header.length))
    let raw ← (decode header rec.fields).mapError fun e =>
      .source (deserializeError index rec e)
    let request ← raw.toRequest (index + 1) tick
    let entries ← readRows header tick (index + 1) rest
    return { timestamp := raw.timestamp, request } :: entries

end Replay

/-- Reads the requests of a replay source, with prices in ticks of `tick`. -/
def readReplay (text : String) (tick : Decimal) : Except ReplayError (List ReplayEntry) :=
  match Csv.records text with
  | [] => .ok []
  | header :: rows => Replay.readRows header.fields tick 1 rows

end Exchange
