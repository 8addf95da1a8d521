/-!
# Identifiers, sentinels and sides

Every identifier of the exchange is a fixed-width word, as it travels on the wire: order ids and
queue priorities are 64-bit, tickers, clients and quantities 32-bit, prices signed 64-bit ticks.
The largest value of each width is its *sentinel*: it means "no such thing" and is written
`INVALID` in text. A `Side` is a buy, a sell, or the invalid side that an empty record carries.
-/

namespace Exchange

/-- Order identifiers. -/
abbrev OrderId := UInt64
/-- Instrument identifiers; a ticker indexes one order book. -/
abbrev TickerId := UInt32
/-- Participant identifiers. -/
abbrev ClientId := UInt32
/-- Time priority inside a price level: smaller is older. -/
abbrev Priority := UInt64
/-- Prices, in ticks. -/
abbrev Price := Int64
/-- Quantities. -/
abbrev Qty := UInt32

/-- The order id that names no order. -/
def noOrder : OrderId := 18446744073709551615
/-- The ticker that names no instrument. -/
def noTicker : TickerId := 4294967295
/-- The client that names no participant. -/
def noClient : ClientId := 4294967295
/-- The priority of a record that rests nowhere. -/
def noPriority : Priority := 18446744073709551615
/-- The price of a record that has none. -/
def noPrice : Price := 9223372036854775807
/-- The quantity of a record that has none. -/
def noQty : Qty := 4294967295

/-- A word type whose largest value is the sentinel "none". -/
class Sentinel (α : Type) where
  /-- Whether a value is the sentinel. -/
  isSentinel : α → Bool
  /-- Decimal digits of a value. -/
  digits : α → String

instance : Sentinel UInt64 := ⟨fun x => x == 18446744073709551615, fun x => toString x.toNat⟩
instance : Sentinel UInt32 := ⟨fun x => x == 4294967295, fun x => toString x.toNat⟩
instance : Sentinel Int64 := ⟨fun x => x == 9223372036854775807, fun x => toString x.toInt⟩

/-- Decimal text of a field, where the sentinel reads `INVALID`. -/
def fieldText {α : Type} [Sentinel α] (x : α) : String :=
  if Sentinel.isSentinel x then "INVALID" else Sentinel.digits x

/-- The side of an order. -/
inductive Side where
  | buy
  | sell
  | invalid
  deriving DecidableEq, Repr, Inhabited

namespace Side

/-- A buy or a sell. -/
def isValid : Side → Bool
  | invalid => false
  | _ => true

/-- The side an order trades against. -/
def opposite : Side → Side
  | buy => sell
  | sell => buy
  | invalid => invalid

/-- The sign of a position change: a buy adds, a sell removes. -/
def sign : Side → Int
  | buy => 1
  | sell => -1
  | invalid => 0

/-- The wire byte: a signed byte 1, -1 or 0. -/
def tag : Side → UInt8
  | buy => 1
  | sell => 255
  | invalid => 0

/-- The side a wire byte names. -/
def ofTag? : UInt8 → Option Side
  | 1 => some buy
  | 255 => some sell
  | 0 => some invalid
  | _ => none

/-- The label in text. -/
def label : Side → String
  | buy => "BUY"
  | sell => "SELL"
  | invalid => "INVALID"

/-- The side a label names. -/
def ofLabel? : String → Option Side
  | "BUY" => some buy
  | "SELL" => some sell
  | "INVALID" => some invalid
  | _ => none

theorem ofTag?_tag (s : Side) : ofTag? s.tag = some s := by
  cases s <;> rfl

theorem tag_of_ofTag? {b : UInt8} {s : Side} (h : ofTag? b = some s) : s.tag = b := by
  revert h
  unfold ofTag?
  split <;> intro h <;> cases h <;> rfl

theorem ofLabel?_label (s : Side) : ofLabel? s.label = some s := by
  cases s <;> rfl

end Side

end Exchange
