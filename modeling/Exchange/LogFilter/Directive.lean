import Exchange.LogFilter.Pattern
import Exchange.Number.Integer
import Exchange.Number.Nearest
import Exchange.Fault

/-!
# Log filters

A log filter says which log records are written. Its text is a list of directives separated by
commas, empty ones skipped. A directive is one of

* a level alone: a number from 0 (`off`) to 5 (`trace`), or a level's name in any case;
* a target, optionally followed by `=level`: a first character that is a letter, a digit, `-`,
  `:` or `_`, then anything up to `=` or `[`;
* a span in brackets after the target or in place of it, `[name]` or `[name{field,...}]` with
  field filters in braces, optionally followed by `=level`.

A field filter is a name, or `name=value`, where the value is `true` or `false`, an integer, a
double, or else a pattern that must compile (`Pattern.check`). A level that is left out means
`trace`.

A directive is read without the white space at both ends, one character at a time, and its
pieces are cut at the byte positions where the reader stands. Those positions are counted in the
trimmed directive but cut from the directive as written, so with white space in front every piece
is shifted to the left by the bytes of that white space. Where such a cut falls inside a
character, reading stops the process (`Fault.cutInsideChar`); otherwise the shifted pieces are
read like any others.
-/

namespace Exchange

/-! ## Levels -/

/-- The most detailed level that a filter lets through. -/
inductive LevelFilter where
  | off
  | error
  | warn
  | info
  | debug
  | trace
  deriving DecidableEq, Repr

/-- The level of a number from 0 (`off`) to 5 (`trace`). -/
def LevelFilter.ofNat? : Nat → Option LevelFilter
  | 0 => some .off
  | 1 => some .error
  | 2 => some .warn
  | 3 => some .info
  | 4 => some .debug
  | 5 => some .trace
  | _ => none

/-- Reads a level: an unsigned integer from 0 to 5, or a level's name in any ASCII case. The
empty text is `error`. -/
def LevelFilter.ofText? (s : String) : Option LevelFilter :=
  let byNumber : Option LevelFilter := match parseInteger s 10 0 (Int.pow 2 64 - 1) with
    | .ok n => LevelFilter.ofNat? n.toNat
    | .error _ => none
  byNumber.orElse fun _ =>
    let word := s.toLower
    if s.isEmpty then some .error
    else if word = "off" then some .off
    else if word = "error" then some .error
    else if word = "warn" then some .warn
    else if word = "info" then some .info
    else if word = "debug" then some .debug
    else if word = "trace" then some .trace
    else none

/-! ## Field filters -/

/-- What a field's value is compared with. -/
inductive ValueMatch where
  | bool (b : Bool)
  | unsigned (n : Nat)
  | signed (n : Int)
  | float (x : Float)
  /-- A regular expression, which compiles. -/
  | pattern (text : String)
  deriving Repr

/-- Reads a value, trying in turn `true` or `false`, an unsigned and a signed 64-bit integer, a
double, and last a pattern, which must compile. -/
def ValueMatch.read (s : String) : Except Pattern.PatternError ValueMatch :=
  if s = "true" then .ok (.bool true)
  else if s = "false" then .ok (.bool false)
  else
    match parseInteger s 10 0 (Int.pow 2 64 - 1) with
    | .ok n => .ok (.unsigned n.toNat)
    | .error _ =>
      match parseInteger s 10 (-Int.pow 2 63) (Int.pow 2 63 - 1) with
      | .ok n => .ok (.signed n)
      | .error _ =>
        match parseFloat? s with
        | some x => .ok (.float x)
        | none => (Pattern.check s).map fun () => .pattern s

/-- A field filter: a field's name, and what its value is compared with, if anything. -/
structure FieldMatch where
  name : String
  value : Option ValueMatch
  deriving Repr

/-- Reads a field filter: the name up to the first `=`, and the value from there up to the next
`=` or the end. -/
def FieldMatch.read (s : String) : Except Pattern.PatternError FieldMatch :=
  match s.splitOn "=" with
  | name :: value :: _ => do return { name, value := some (← ValueMatch.read value) }
  | _ => .ok { name := s, value := none }

/-! ## Directives -/

/-- One directive of a filter. -/
structure Directive where
  target : Option String := none
  span : Option String := none
  fields : List FieldMatch := []
  level : LevelFilter := .trace
  deriving Repr

/-- Why a filter text is refused. -/
inductive FilterError where
  /-- A directive that is not of the grammar. -/
  | directive
  /-- A level that is neither a number from 0 to 5 nor a level's name. -/
  | level
  /-- A field filter whose pattern does not compile. -/
  | field (e : Pattern.PatternError)
  deriving DecidableEq, Repr

def FilterError.message : FilterError → String
  | .directive => "invalid filter directive"
  | .level =>
    "error parsing level filter: expected one of \"off\", \"error\", \"warn\", \"info\", " ++
    "\"debug\", \"trace\", or a number 0-5"
  | .field e => s!"invalid field filter: {e.message}"

/-- Why a filter text gives no filter: it is refused, or reading it stops the process. -/
inductive FilterFailure where
  | refused (e : FilterError)
  | fault (f : Fault)
  deriving DecidableEq, Repr

/-! ## Cutting at bytes -/

/-- The characters of a text, each with the byte at which it starts, counting from `pos`. -/
def byteStartsFrom (pos : Nat) : List Char → List (Nat × Char)
  | [] => []
  | c :: rest => (pos, c) :: byteStartsFrom (pos + c.utf8Size) rest

/-- The characters of a text, each with the byte at which it starts. -/
def byteStarts (cs : List Char) : List (Nat × Char) := byteStartsFrom 0 cs

/-- The character that byte `i` falls inside, past its first byte: the character, its first byte
and the byte after it. -/
def straddled? (cs : List Char) (i : Nat) : Option (Char × Nat × Nat) :=
  (byteStarts cs).findSome? fun (pos, c) =>
    if pos < i && i < pos + c.utf8Size then some (c, pos, pos + c.utf8Size) else none

/-- The piece of a text from byte `lo` up to byte `hi`, or the fault of a cut inside a character,
the start checked first. -/
def cutBytes (cs : List Char) (lo hi : Nat) : Except Fault String :=
  match straddled? cs lo, straddled? cs hi with
  | some (c, first, past), _ => .error (.cutInsideChar true lo c first past)
  | none, some (c, first, past) => .error (.cutInsideChar false hi c first past)
  | none, none =>
    .ok (String.ofList ((byteStarts cs).filterMap fun (pos, c) =>
      if lo ≤ pos && pos < hi then some c else none))

/-! ## Reading a directive -/

/-- Where the reading of a directive stands. -/
inductive Stage where
  /-- Nothing read yet. -/
  | start
  /-- A level or a target, begun at this byte. -/
  | word (start : Nat)
  /-- A span's name, begun at this byte. -/
  | span (start : Nat)
  /-- A field filter, begun at this byte. -/
  | field (start : Nat)
  /-- Past the field filters' closing brace; the span's `]` must follow. -/
  | fields
  /-- Past a span; only `=` may follow. -/
  | target
  /-- A level, begun at this byte. -/
  | level (start : Nat)
  deriving DecidableEq, Repr

namespace Directive

def refuse {α : Type} (e : FilterError) : Except FilterFailure α := .error (.refused e)

/-- The piece of the directive as written between two byte positions. -/
def cut (text : List Char) (lo hi : Nat) : Except FilterFailure String :=
  (cutBytes text lo hi).mapError .fault

/-- Reads the character `c`, which stands at byte `i` of the trimmed directive. -/
def step (text : List Char) (i : Nat) (c : Char) (d : Directive) :
    Stage → Except FilterFailure (Directive × Stage)
  | .start =>
    if c = '[' then .ok (d, .span (i + 1))
    else if c = '-' || c = ':' || c = '_' || isAlphanumeric c then .ok (d, .word i)
    else refuse .directive
  | .word s =>
    if c = '=' || c = '[' then do
      let t ← cut text s i
      return ({ d with target := some t }, if c = '=' then .level (i + 1) else .span (i + 1))
    else .ok (d, .word s)
  | .span s =>
    if c = ']' then do
      let t ← cut text s i
      return ({ d with span := some t }, .target)
    else if c = '{' then do
      let t ← cut text s i
      return ({ d with span := if t.isEmpty then none else some t }, .field (i + 1))
    else .ok (d, .span s)
  | .field s =>
    if c = '}' then do
      let t ← cut text s i
      if t.isEmpty then refuse .directive
      else
        match FieldMatch.read t with
        | .ok m => return ({ d with fields := d.fields ++ [m] }, .fields)
        | .error e => refuse (.field e)
    else .ok (d, .field s)
  | .fields => if c = ']' then .ok (d, .target) else refuse .directive
  | .target => if c = '=' then .ok (d, .level (i + 1)) else refuse .directive
  | .level s => .ok (d, .level s)

/-- Ends the reading where it stands. -/
def finish (text : List Char) (d : Directive) : Stage → Except FilterFailure Directive
  | .word s => do
    let t ← cut text s (String.ofList text).utf8ByteSize
    if t.isEmpty then return { d with target := none }
    match LevelFilter.ofText? t with
    | some l => return { d with level := l, target := none }
    | none => return { d with target := some t }
  | .level s => do
    let t ← cut text s (String.ofList text).utf8ByteSize
    if t.isEmpty then return d
    match LevelFilter.ofText? t with
    | some l => return { d with level := l }
    | none => refuse .level
  | .target => .ok d
  | _ => refuse .directive

/-- Reads the characters of the trimmed directive, the first of them at byte `i`. -/
def walk (text : List Char) : List Char → Nat → Directive → Stage → Except FilterFailure Directive
  | [], _, d, st => d.finish text st
  | c :: rest, i, d, st => do
    let (d, st) ← d.step text i c st
    walk text rest (i + c.utf8Size) d st

/-- Reads a directive, which holds no comma. -/
def parse (text : String) : Except FilterFailure Directive :=
  walk text.toList (trimWhiteSpace text.toList) 0 {} .start

end Directive

/-- A log filter: its directives in the order written. -/
structure LogFilter where
  directives : List Directive
  deriving Repr

/-- Reads a filter: the directives between commas, empty ones skipped, up to the first that is
refused or stops the process. -/
def LogFilter.parse (text : String) : Except FilterFailure LogFilter := do
  let texts := (text.splitOn ",").filter fun t => !t.isEmpty
  return { directives := ← texts.mapM Directive.parse }

end Exchange
