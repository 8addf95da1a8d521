import Exchange.Config.Toml.Document
import Exchange.Net.Address
import Exchange.Trading.Risk
import Exchange.Engine

/-!
# The configuration

A `Config` sizes the engine, places the market data sockets, sets per-ticker risk limits and
chooses the logging. Every setting has a default, so the empty document is a configuration.

A TOML document is read into it setting by setting. A table fills a structure by key, ignoring
keys it does not know; an array fills it by position, in the order the fields are declared, the
missing ones keeping their defaults; a date-time fills it with its defaults. Numbers must fit
their setting: sizes are non-negative, `max_orders` and `max_price_levels` fit 32 bits, ports 16
bits; a float setting also takes an integer. Anything else is a malformed document.

A configuration read this way is then checked: every size must be non-zero, the pool sizes must
stay below the 32-bit maximum, and there may be no more risk entries than tickers.
-/

namespace Exchange

/-- Sizing and placement of the matching engine. -/
structure EngineConfig where
  maxTickers : Nat := 8
  maxOrders : Nat := 1048576
  maxPriceLevels : Nat := 256
  maxPendingRequests : Nat := 262144
  maxClientUpdates : Nat := 262144
  maxMarketUpdates : Nat := 262144
  coreId : Option Nat := none
  deriving DecidableEq, Repr

/-- The two market data sockets and the core of their thread. -/
structure MarketDataConfig where
  coreId : Option Nat := none
  snapshot : SocketConfig := {}
  incremental : SocketConfig := {}
  deriving DecidableEq, Repr

/-- The log filter and the log file; standard error when there is none. -/
structure LogConfig where
  level : String := "info"
  file : Option String := none
  deriving DecidableEq, Repr

/-- Everything the program is configured with. -/
structure Config where
  engine : EngineConfig := {}
  marketData : MarketDataConfig := {}
  /-- Risk limits by ticker number. -/
  risk : List RiskLimits := []
  logging : LogConfig := {}

/-- The engine sizes a configuration asks for. -/
def EngineConfig.sizes (e : EngineConfig) : EngineSizes :=
  { maxTickers := e.maxTickers, maxOrders := e.maxOrders, maxPriceLevels := e.maxPriceLevels,
    maxPendingRequests := e.maxPendingRequests, maxClientUpdates := e.maxClientUpdates,
    maxMarketUpdates := e.maxMarketUpdates }

/-- Whether a configuration equals the default one, which has no risk limits. -/
def Config.isDefault (c : Config) : Bool :=
  c.engine == {} && c.marketData == {} && c.logging == {} && c.risk.isEmpty

namespace Settings

open Toml

/-- How a value sets one field of a structure. -/
abbrev Setter (α : Type) := α → Value → Except String α

/-- Fills a structure from a value: a table by key, an array by position, a date-time not at all. -/
def record {α : Type} (dflt : α) (fields : List (String × Setter α)) : Value → Except String α
  | .table entries =>
    entries.foldlM (fun acc (k, v) =>
      match fields.lookup k with
      | some set => set acc v
      | none => .ok acc) dflt
  | .array items => (fields.zip items).foldlM (fun acc ((_, set), v) => set acc v) dflt
  | .datetime _ => .ok dflt
  | _ => .error "invalid type: expected a table"

/-- A non-negative integer no larger than `max`. -/
def natUpTo (max : Nat) : Value → Except String Nat
  | .int i => if 0 ≤ i ∧ i ≤ max then .ok i.toNat else .error s!"invalid value: {i}"
  | _ => .error "invalid type: expected an integer"

def int64 : Value → Except String Int64
  | .int i => .ok (Int64.ofInt i)
  | _ => .error "invalid type: expected an integer"

def float : Value → Except String Float
  | .float x => .ok x
  | .int i => .ok (Nearest.ofDecimal (i < 0) i.natAbs 0)
  | _ => .error "invalid type: expected a float"

def bool : Value → Except String Bool
  | .bool b => .ok b
  | _ => .error "invalid type: expected a boolean"

def string : Value → Except String String
  | .str s => .ok s
  | _ => .error "invalid type: expected a string"

def list {α : Type} (item : Value → Except String α) : Value → Except String (List α)
  | .array items => items.mapM item
  | _ => .error "invalid type: expected an array"

def usize : Value → Except String Nat := natUpTo (Nat.pow 2 64 - 1)
def u32 : Value → Except String Nat := natUpTo (Nat.pow 2 32 - 1)
def u16 : Value → Except String Nat := natUpTo (Nat.pow 2 16 - 1)

def engine : Value → Except String EngineConfig :=
  record {}
    [("max_tickers", fun c v => return { c with maxTickers := ← usize v }),
     ("max_orders", fun c v => return { c with maxOrders := ← u32 v }),
     ("max_price_levels", fun c v => return { c with maxPriceLevels := ← u32 v }),
     ("max_pending_requests", fun c v => return { c with maxPendingRequests := ← usize v }),
     ("max_client_updates", fun c v => return { c with maxClientUpdates := ← usize v }),
     ("max_market_updates", fun c v => return { c with maxMarketUpdates := ← usize v }),
     ("core_id", fun c v => return { c with coreId := some (← usize v) })]

def socket : Value → Except String SocketConfig :=
  record {}
    [("ip", fun c v => return { c with ip := ← string v }),
     ("iface", fun c v => return { c with iface := ← string v }),
     ("port", fun c v => return { c with port := ← u16 v }),
     ("is_udp", fun c v => return { c with isUdp := ← bool v }),
     ("is_listening", fun c v => return { c with isListening := ← bool v }),
     ("needs_timestamp", fun c v => return { c with needsTimestamp := ← bool v })]

def marketData : Value → Except String MarketDataConfig :=
  record {}
    [("core_id", fun c v => return { c with coreId := some (← usize v) }),
     ("snapshot", fun c v => return { c with snapshot := ← socket v }),
     ("incremental", fun c v => return { c with incremental := ← socket v })]

def risk : Value → Except String RiskLimits :=
  record {}
    [("max_order_size", fun c v => return { c with maxOrderSize := (← u32 v).toUInt32 }),
     ("max_position", fun c v => return { c with maxPosition := ← int64 v }),
     ("max_loss", fun c v => return { c with maxLoss := ← float v })]

def logging : Value → Except String LogConfig :=
  record {}
    [("level", fun c v => return { c with level := ← string v }),
     ("file", fun c v => return { c with file := some (← string v) })]

def config : Value → Except String Config :=
  record {}
    [("engine", fun c v => return { c with engine := ← engine v }),
     ("market_data", fun c v => return { c with marketData := ← marketData v }),
     ("risk", fun c v => return { c with risk := ← list risk v }),
     ("logging", fun c v => return { c with logging := ← logging v })]

end Settings

namespace Config

/-- Refuses sizings the engine cannot run with. -/
def validate (c : Config) : Except ConfigError Unit := do
  let e := c.engine
  if e.maxTickers = 0 then throw (.invalid "engine.max_tickers must be non-zero")
  let sizes := [("max_orders", e.maxOrders), ("max_price_levels", e.maxPriceLevels),
    ("max_pending_requests", e.maxPendingRequests), ("max_client_updates", e.maxClientUpdates),
    ("max_market_updates", e.maxMarketUpdates)]
  for (name, value) in sizes do
    if value = 0 then throw (.invalid s!"engine.{name} must be non-zero")
  if e.maxOrders = Nat.pow 2 32 - 1 ∨ e.maxPriceLevels = Nat.pow 2 32 - 1 then
    throw (.invalid "engine pool capacity must be below u32::MAX")
  if c.risk.length > e.maxTickers then
    throw (.invalid s!"{c.risk.length} risk entries for {e.maxTickers} tickers")

/-- Reads and checks a configuration document. -/
def ofToml (text : String) : Except ConfigError Config := do
  let doc ← (Toml.parse text).mapError ConfigError.malformed
  let c ← (Settings.config doc).mapError ConfigError.malformed
  c.validate
  return c

end Config

end Exchange
