import Exchange.Replay.Program

/-!
# The replay command

`replay --input <csv> [--config <toml>] [--tick-size <t>] [--depth <n>]` runs the replay
program on the real file system. It reads the files the program may ask for, opens the log file
the configuration names, runs the program, and prints its summary with the elapsed time and the
throughput after the request count, or its error with the chain of causes on standard error.
-/

namespace Exchange.ReplayCommand

/-- The error number of a system error code, which may come negated. -/
def errno (code : UInt32) : Nat :=
  if code.toNat < Nat.pow 2 31 then code.toNat else Nat.pow 2 32 - code.toNat

/-- The reason an operating-system call failed, as the system states it. -/
def reason : IO.Error → String
  | .noFileOrDirectory _ code _ => s!"No such file or directory (os error {errno code})"
  | .permissionDenied _ code _ => s!"Permission denied (os error {errno code})"
  | .alreadyExists _ code _ => s!"File exists (os error {errno code})"
  | e => toString e

/-- The contents of a file, or the reason it cannot be read. -/
def load (path : String) : IO (Except String String) := do
  try return .ok (← IO.FS.readFile path)
  catch e => return .error (reason e)

/-- Opens a log file for appending; the reason it cannot be opened, if it cannot. -/
def openLog (path : String) : IO (Option String) := do
  try
    let _ ← IO.FS.Handle.mk path .append
    return none
  catch e => return some (reason e)

/-- A duration in the largest unit that keeps a whole part, trailing zeros dropped. -/
def durationText (nanos : Nat) : String :=
  let (unit, scale) :=
    if nanos ≥ 1000000000 then ("s", 1000000000)
    else if nanos ≥ 1000000 then ("ms", 1000000)
    else if nanos ≥ 1000 then ("µs", 1000)
    else ("ns", 1)
  let whole := nanos / scale
  let frac := (toString (nanos % scale + scale)).toList.drop 1
  let frac := (frac.reverse.dropWhile (· = '0')).reverse
  toString whole ++ (if frac.isEmpty then "" else "." ++ String.ofList frac) ++ unit

/-- A rate with two decimals. -/
def rateText (count nanos : Nat) : String :=
  let hundredths := count * 100 * 1000000000 / max nanos 1
  let cents := String.ofList ((toString (hundredths % 100 + 100)).toList.drop 1)
  s!"{hundredths / 100}.{cents} req/sec"

end Exchange.ReplayCommand

open Exchange Exchange.ReplayCommand in
def main (argv : List String) : IO UInt32 := do
  match ReplayArgs.parse argv with
  | .error m =>
    IO.eprintln s!"error: {m}"
    return (ExitStatus.usage m).exitCode.toUInt32
  | .ok args =>
    let inputText ← load args.input
    let configText ← match args.config with
      | some p => load p
      | none => pure (.error noSuchFile)
    let logFile : Option String := match args.config, configText with
      | some _, .ok text => (Config.ofToml text).toOption.bind (·.logging.file)
      | _, _ => none
    let logAnswer ← match logFile with
      | some p => openLog p
      | none => pure none
    let host : ReplayHost :=
      { fileText := fun p =>
          if p = args.input then inputText
          else if args.config = some p then configText
          else .error noSuchFile
        openLog := fun _ => logAnswer }
    let start ← IO.monoNanosNow
    let outcome := ReplayProgram.run host args
    match outcome.status with
    | .panic f =>
      IO.eprintln s!"thread 'main' panicked:\n{f.message}"
      return (ExitStatus.panic f).exitCode.toUInt32
    | .usage m =>
      IO.eprintln s!"error: {m}"
      return (ExitStatus.usage m).exitCode.toUInt32
    | .code n =>
      let elapsed := (← IO.monoNanosNow) - start
      let requests := outcome.requests
      let timing := [s!"Elapsed:    {durationText elapsed}",
                     s!"Throughput: {rateText requests elapsed}"]
      for line in outcome.stdout.take 2 ++ (if outcome.stdout.isEmpty then [] else timing) ++
          outcome.stdout.drop 2 do
        IO.println line
      match outcome.error with
      | none => pure ()
      | some e =>
        IO.eprintln s!"Error: {e}"
        unless outcome.causes.isEmpty do
          IO.eprintln "\nCaused by:"
          for (c, i) in outcome.causes.zip (List.range outcome.causes.length) do
            IO.eprintln (if outcome.causes.length = 1 then s!"    {c}" else s!"    {i}: {c}")
      return n.toUInt32
