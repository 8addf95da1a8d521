import Exchange.Number.Integer

/-!
# The replay program's command line

`replay --input <csv> [--config <toml>] [--tick-size <t>] [--depth <n>]`, with `-i` and `-c` as
short names of the first two. A long option may carry its value after `=`; otherwise the value
is the next word, which must not look like an option: a word that starts with `-`, other than
`-` alone, is never taken as a value, so `--tick-size -1` lacks its value. The depth is an
unsigned integer. An option given twice keeps its last value.

`ReplayArgs.parse` answers the arguments, or the usage error to print.
-/

namespace Exchange

/-- The program's arguments. -/
structure ReplayArgs where
  input : String
  config : Option String := none
  tickSize : String := "0.01"
  depth : Nat := 5
  deriving DecidableEq, Repr

namespace ReplayArgs

/-- The options, by long name, with their short names and the placeholders of their values. -/
def options : List (String × Option String × String) :=
  [("input", some "-i", "<INPUT>"), ("config", some "-c", "<CONFIG>"),
   ("tick-size", none, "<TICK_SIZE>"), ("depth", none, "<DEPTH>")]

/-- An option as usage errors name it. -/
def label (name : String) : String :=
  match options.find? (·.1 == name) with
  | some (_, _, value) => s!"--{name} {value}"
  | none => s!"--{name}"

/-- The option a word names, by its long name, with the value written after `=` if any. -/
def optionOf? (word : String) : Option (String × Option String) :=
  let byShort := options.find? fun (_, short, _) => short == some word
  match byShort with
  | some (name, _, _) => some (name, none)
  | none =>
    match word.toList with
    | '-' :: '-' :: rest =>
      let (name, value) := rest.span (· ≠ '=')
      let name := String.ofList name
      let value : Option String := match value with
        | [] => none
        | _ :: v => some (String.ofList v)
      if options.any (·.1 == name) then some (name, value) else none
    | _ => none

/-- Whether a word stands for an option rather than a value. -/
def looksLikeOption (word : String) : Bool :=
  word.startsWith "-" && word != "-"

/-- Sets an option's value. -/
def set (args : ReplayArgs) (name value : String) : Except String ReplayArgs :=
  if name = "input" then .ok { args with input := value }
  else if name = "config" then .ok { args with config := some value }
  else if name = "tick-size" then .ok { args with tickSize := value }
  else
    match parseInteger value 10 0 (Int.pow 2 64 - 1) with
    | .ok d => .ok { args with depth := d.toNat }
    | .error m => .error s!"invalid value '{value}' for '{label name}': {m}"

/-- Reads the words after the program's name; `hasInput` says whether the input was named. -/
def parseFrom (args : ReplayArgs) (hasInput : Bool) : List String → Except String ReplayArgs
  | [] =>
    if hasInput then .ok args
    else .error "the following required arguments were not provided:\n  --input <INPUT>"
  | word :: rest =>
    match optionOf? word with
    | none => .error s!"unexpected argument '{word}' found"
    | some (name, some value) => do
      parseFrom (← args.set name value) (hasInput || name = "input") rest
    | some (name, none) =>
      match rest with
      | value :: more =>
        if looksLikeOption value then
          .error s!"a value is required for '{label name}' but none was supplied"
        else do parseFrom (← args.set name value) (hasInput || name = "input") more
      | [] => .error s!"a value is required for '{label name}' but none was supplied"

/-- Reads the command line after the program's name. -/
def parse (argv : List String) : Except String ReplayArgs :=
  parseFrom { input := "" } false argv

end ReplayArgs

end Exchange
