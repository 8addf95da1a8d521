import Exchange.Replay.Rows
import Exchange.Replay.Arguments
import Exchange.Config.Logging
import Exchange.Engine

/-!
# The replay program

The replay program runs a CSV file of client requests through the matching engine and prints a
summary. It takes the input path, an optional configuration path (the defaults apply without
one), a tick size (`0.01` unless given) and a book depth (5 unless given), and goes through these
steps, stopping at the first that fails:

1. load the configuration: `loading <path>`, caused by the configuration error;
2. start logging: `initialising logging`;
3. read the tick size as a decimal: `invalid tick size '<t>'`;
4. read the requests: `reading <path>`, caused by the replay error;
5. refuse a request for a ticker the engine does not trade:
   `request for ticker T but only N configured`;
6. run every request through the engine, counting the answers and updates by kind.

The summary gives the number of requests, the counts by kind in name order, and, for each book
that still holds orders, its best levels on the sell side and then the buy side, at most `depth`
(and at most 16) of each. A fault stops the program.

The program reads files and opens the log through a `ReplayHost`, so that the same steps serve a
real file system and a recorded one. `runCommand` reads the command line first (`ReplayArgs`); a
command line that is not understood ends the program with a usage error.
-/

namespace Exchange

/-- The text of a missing file's error. -/
def noSuchFile : String := "No such file or directory (os error 2)"

/-- What the program reads from: files by path, and whether a log file opens. -/
structure ReplayHost where
  /-- The contents of a file, or why it cannot be read. -/
  fileText : String → Except String String
  /-- Why a log file cannot be opened for appending, if it cannot. -/
  openLog : String → Option String

/-- How the program ends. -/
inductive ExitStatus where
  /-- It returns this exit code. -/
  | code (n : Nat)
  /-- The command line is not understood: the program prints why and exits with 2. -/
  | usage (message : String)
  /-- A fault stops the program, which exits with 101. -/
  | panic (f : Fault)

/-- The code the program exits with. -/
def ExitStatus.exitCode : ExitStatus → Nat
  | .code n => n
  | .usage _ => 2
  | .panic _ => 101

/-- What the program does: its summary lines, or the error it stops with and the chain of
causes under it. The summary's first two lines come before the timing lines that a run on a real
machine adds. -/
structure ReplayOutcome where
  status : ExitStatus
  /-- The number of requests run. -/
  requests : Nat := 0
  stdout : List String := []
  error : Option String := none
  causes : List String := []

namespace ReplayProgram

/-- Pads a text with blanks on the right to `width` characters. -/
def padRight (s : String) (width : Nat) : String :=
  s ++ String.ofList (List.replicate (width - s.length) ' ')

/-- Pads a text with blanks on the left to `width` characters. -/
def padLeft (s : String) (width : Nat) : String :=
  String.ofList (List.replicate (width - s.length) ' ') ++ s

/-- Counts labels, in name order. -/
def tally (labels : List String) : List (String × Nat) :=
  let add (acc : List (String × Nat)) (l : String) : List (String × Nat) :=
    if acc.any (·.1 == l) then acc.map fun (k, n) => if k == l then (k, n + 1) else (k, n)
    else acc ++ [(l, 1)]
  (labels.foldl add []).mergeSort fun a b => a.1 ≤ b.1

def tallyLines (counts : List (String × Nat)) : List String :=
  counts.map fun (k, n) => s!"  {padRight k 16} {padLeft (toString n) 10}"

/-- The lines of one book: its heading and its best levels on each side. -/
def bookLines (b : Book) (depth : Nat) : List String :=
  let side (s : Side) : List String :=
    ((b.top s 16).take depth).map fun (price, qty, count) =>
      s!"  {padRight s.label 4} {padLeft (toString price.toInt) 12} {padLeft (toString qty) 10} ({count} orders)"
  ["", s!"Ticker {b.ticker.toNat} ({b.orderCount} resting orders)"] ++ side .sell ++ side .buy

/-- The summary after a run. -/
def summary (requests : Nat) (responses : List Response) (updates : List Update) (e : Engine)
    (depth : Nat) : List String :=
  ["=== Replay Summary ===", s!"Requests:   {requests}", "", "Responses:"] ++
  tallyLines (tally (responses.map (·.kind.label))) ++
  ["Market updates:"] ++ tallyLines (tally (updates.map (·.kind.label))) ++
  (e.books.toList.filter (!·.isEmpty)).flatMap (bookLines · depth)

/-- Stops with an error and its causes. -/
def fail (error : String) (causes : List String) : ReplayOutcome :=
  { status := .code 1, error := some error, causes }

/-- The causes under a configuration error. -/
def configCauses : ConfigError → List String
  | .invalid m => [(ConfigError.invalid m).message]
  | .malformed d => [(ConfigError.malformed d).message, d]

/-- The causes under a replay error. -/
def replayCauses : ReplayError → List String
  | .row line m => [(ReplayError.row line m).message]
  | .source m => [(ReplayError.source m).message, m]
  | .fault f => [f.message]

/-- The first request for a ticker beyond the configured ones. -/
def unknownTicker (entries : List ReplayEntry) (tickers : Nat) : Option Request :=
  (entries.find? fun e => tickers ≤ e.request.tickerId.toNat).map (·.request)

/-- Runs the program. -/
def run (host : ReplayHost) (args : ReplayArgs) : ReplayOutcome :=
  let loaded : Except (String × List String) Config :=
    match args.config with
    | none => .ok {}
    | some path =>
      match host.fileText path with
      | .error reason =>
        .error (s!"loading {path}",
          [(ConfigError.invalid s!"cannot read config file {path}: {reason}").message])
      | .ok text => (Config.ofToml text).mapError fun e => (s!"loading {path}", configCauses e)
  match loaded with
  | .error (e, causes) => fail e causes
  | .ok config =>
    match config.logging.start host.openLog with
    | .error f => { status := .panic f }
    | .ok (.error e) => fail "initialising logging" [e.toConfigError.message]
    | .ok (.ok ()) =>
      match Decimal.parse args.tickSize with
      | .error m => fail s!"invalid tick size '{args.tickSize}'" [m]
      | .ok tick =>
        match host.fileText args.input with
        | .error reason => fail s!"reading {args.input}" [s!"I/O error: {reason}", reason]
        | .ok text =>
          match readReplay text tick with
          | .error (.fault f) => { status := .panic f }
          | .error e => fail s!"reading {args.input}" (replayCauses e)
          | .ok entries =>
            match unknownTicker entries config.engine.maxTickers with
            | some r =>
              fail s!"request for ticker {r.tickerId.toNat} but only {config.engine.maxTickers} configured" []
            | none =>
              match Engine.create config.engine.sizes with
              | .error f => { status := .panic f }
              | .ok e =>
                match e.runRequests (entries.map (·.request)) with
                | (_, _, _, some f) => { status := .panic f }
                | (responses, updates, e, none) =>
                  { status := .code 0, requests := entries.length,
                    stdout := summary entries.length responses updates e args.depth }

/-- Reads the command line, then runs the program. -/
def runCommand (host : ReplayHost) (argv : List String) : ReplayOutcome :=
  match ReplayArgs.parse argv with
  | .error m => { status := .usage m }
  | .ok args => run host args

end ReplayProgram

end Exchange
