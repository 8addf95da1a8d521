import Exchange.Book.Matching
import Exchange.Book.Digest
import Exchange.Ring

/-!
# The matching engine

An `Engine` owns one book per ticker, numbered from 0, and three rings: requests come in on one,
answers to participants and public updates go out on the other two. Processing a request routes
it to its ticker's book and writes each event to its ring as it happens, so the events of a
request that stops with a fault are the ones emitted before it. A request for a ticker the engine
does not trade, or of the invalid kind, is a fault.

Polling processes pending requests oldest first, up to a limit, and releases each one only once
it is processed.
-/

namespace Exchange

/-- The sizes of the engine's books and rings. -/
structure EngineSizes where
  maxTickers : Nat
  maxOrders : Nat
  maxPriceLevels : Nat
  maxPendingRequests : Nat
  maxClientUpdates : Nat
  maxMarketUpdates : Nat
  deriving DecidableEq, Repr

/-- Books for each ticker and the rings that connect them to participants and the feed. -/
structure Engine where
  books : Array Book
  requests : Ring Request
  responses : Ring Response
  updates : Ring Update

namespace Engine

/-- Books of the given ticker numbers. -/
def createBooks (maxOrders maxLevels : Nat) : List Nat → Except Fault (List Book)
  | [] => .ok []
  | t :: ts => do
    let b ← Book.create t.toUInt32 maxOrders maxLevels
    return b :: (← createBooks maxOrders maxLevels ts)

/-- An engine with empty books and rings; a ring or pool of no slots is a fault. -/
def create (s : EngineSizes) : Except Fault Engine := do
  let requests ← Ring.create s.maxPendingRequests
  let responses ← Ring.create s.maxClientUpdates
  let updates ← Ring.create s.maxMarketUpdates
  let books ← createBooks s.maxOrders s.maxPriceLevels (List.range s.maxTickers)
  return { books := books.toArray, requests, responses, updates }

/-- The book of a ticker. -/
def book? (e : Engine) (t : TickerId) : Option Book := e.books[t.toNat]?

def tickerCount (e : Engine) : Nat := e.books.size

/-- Writes one event to its ring. -/
def emit (e : Engine) : Event → Except Fault Engine
  | .response r => return { e with responses := ← e.responses.push r }
  | .update u => return { e with updates := ← e.updates.push u }

/-- Writes events in order; on a fault, the engine as it was when the fault struck. -/
def emitAll (e : Engine) : List Event → Engine × Option Fault
  | [] => (e, none)
  | ev :: evs =>
    match e.emit ev with
    | .ok e' => e'.emitAll evs
    | .error f => (e, some f)

/-- Processes one request: the engine after it, or as far as it got before a fault. -/
def process (e : Engine) (r : Request) : Engine × Option Fault :=
  match e.books[r.tickerId.toNat]? with
  | none => (e, some (.unknownTicker r))
  | some b =>
    let store (b' : Book) (e' : Engine) : Engine :=
      { e' with books := e'.books.set! r.tickerId.toNat b' }
    match r.kind with
    | .new =>
      let o := b.add r.clientId r.orderId r.side r.price r.qty
      match e.emitAll o.events with
      | (e', some f) => (e', some f)
      | (e', none) =>
        match o.result with
        | .ok b' => (store b' e', none)
        | .error f => (e', some f)
    | .cancel =>
      let (evs, b') := b.cancel r.clientId r.orderId
      match e.emitAll evs with
      | (e', some f) => (e', some f)
      | (e', none) => (store b' e', none)
    | .invalid => (e, some (.invalidRequestKind r))

/-- Processes up to `max` pending requests, oldest first, looking at most `fuel` times.
Returns how many were processed. -/
def pollUpTo (e : Engine) (max : Nat) : (fuel : Nat) → Nat × Engine × Option Fault
  | 0 => (0, e, none)
  | fuel + 1 =>
    if max = 0 then (0, e, none)
    else
      match e.requests.peek with
      | none => (0, e, none)
      | some r =>
        match e.process r with
        | (e', some f) => (0, e', some f)
        | (e', none) =>
          match e'.requests.commitRead with
          | .error f => (0, e', some f)
          | .ok rq =>
            let (n, e2, f) := pollUpTo { e' with requests := rq } (max - 1) fuel
            (n + 1, e2, f)

/-- Processes up to `max` pending requests. -/
def pollBatch (e : Engine) (max : Nat) : Nat × Engine × Option Fault :=
  e.pollUpTo max e.requests.len

/-- Processes every pending request. -/
def poll (e : Engine) : Nat × Engine × Option Fault :=
  e.pollUpTo e.requests.len e.requests.len

/-- Takes every answer and update written so far, oldest first. -/
def drainOutput (e : Engine) : List Response × List Update × Engine :=
  let (rs, responses) := e.responses.drain
  let (us, updates) := e.updates.drain
  (rs, us, { e with responses, updates })

/-- Runs requests one after another, as the engine's own thread does while its outputs are read:
each request is queued, processed, and its events taken before the next. Returns everything
emitted, in order, and stops at the first fault, with the events emitted before it. -/
def runRequests (e : Engine) : List Request → List Response × List Update × Engine × Option Fault
  | [] => ([], [], e, none)
  | r :: rs =>
    let queued : Except Fault Engine := do return { e with requests := ← e.requests.push r }
    match queued with
    | .error f => ([], [], e, some f)
    | .ok e =>
      let (_, e, f) := e.pollBatch 1
      let (out, ups, e) := e.drainOutput
      match f with
      | some f => (out, ups, e, some f)
      | none =>
        let (out', ups', e, f) := e.runRequests rs
        (out ++ out', ups ++ ups', e, f)

/-- The fingerprint of all books: SipHash-1-3 over each book's fingerprint, in ticker order. -/
def digest (e : Engine) : UInt64 :=
  SipHash.hash 0 0 (e.books.toList.flatMap fun b => u64Bytes b.digest)

/-- The engine's state in one line: its books and its request reader. -/
def describe (e : Engine) : String :=
  let books := ", ".intercalate (e.books.toList.map Book.describe)
  s!"MatchingEngine \x7b books: [{books}], incoming: {e.requests.readerText} \x7d"

end Engine

end Exchange
