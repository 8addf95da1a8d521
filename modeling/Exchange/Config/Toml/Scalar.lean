import Exchange.Number.Nearest

/-!
# TOML scalars

The lexical layer of TOML 1.0: whitespace, comments and newlines, keys, the four kinds of
strings, integers, floats and date-times. Each reader takes the characters at the current
position and answers what it read with the characters after it, or why the text is not TOML.

Numbers and date-times are read as one token, the longest run of letters, digits and `_ + - . :`,
which the grammar must use up entirely: whatever could follow a number in valid TOML is outside
that set, so a token with characters left over is never valid.

A float that overflows to positive infinity is rejected, while one that overflows to negative
infinity is kept; `inf` and `nan` must be written out.
-/

namespace Exchange.Toml

/-- A value of a TOML document. Date-times keep their text. -/
inductive Value where
  | str (s : String)
  | int (i : Int)
  | float (x : Float)
  | bool (b : Bool)
  | datetime (text : String)
  | array (items : List Value)
  | table (entries : List (String × Value))
  deriving Inhabited

/-- What a reader answers: the thing read and the characters after it. -/
abbrev Parse (α : Type) := Except String (α × List Char)

/-! ## Characters -/

def isWs (c : Char) : Bool := c = ' ' || c = '\t'

def isNonAscii (c : Char) : Bool := 0x80 ≤ c.toNat

def inRange (c : Char) (lo hi : Nat) : Bool := lo ≤ c.toNat && c.toNat ≤ hi

def isBareKeyChar (c : Char) : Bool := c.isAlphanum || c = '_' || c = '-'

/-- Characters a basic string may hold without an escape. -/
def isBasicChar (c : Char) : Bool :=
  isWs c || c = '!' || inRange c 0x23 0x5B || inRange c 0x5D 0x7E || isNonAscii c

/-- Characters a literal string may hold. -/
def isLiteralChar (c : Char) : Bool :=
  c = '\t' || inRange c 0x20 0x26 || inRange c 0x28 0x7E || isNonAscii c

/-- Characters a comment may hold. -/
def isCommentChar (c : Char) : Bool := c = '\t' || inRange c 0x20 0x7E || isNonAscii c

/-- Characters of a number or date-time token. -/
def isTokenChar (c : Char) : Bool :=
  c.isAlphanum || c = '_' || c = '+' || c = '-' || c = '.' || c = ':'

def skipWs (cs : List Char) : List Char := cs.dropWhile isWs

/-- The characters after a newline (`LF` or `CR LF`) at the start, if there is one. -/
def newline? : List Char → Option (List Char)
  | '\n' :: rest => some rest
  | '\r' :: '\n' :: rest => some rest
  | _ => none

/-- Skips a comment, if one starts here, up to the end of its line. -/
def skipComment : List Char → Except String (List Char)
  | '#' :: rest =>
    let (body, after) := rest.span fun c => c ≠ '\n' && c ≠ '\r'
    if body.all isCommentChar then .ok after else .error "invalid character in comment"
  | cs => .ok cs

/-- Skips blanks, comments and newlines, as between the items of an array. -/
def skipTrivia : List Char → Nat → Except String (List Char)
  | cs, 0 => .ok cs
  | cs, fuel + 1 => do
    let cs ← skipComment (skipWs cs)
    match newline? cs with
    | some rest => skipTrivia rest fuel
    | none => .ok cs

/-! ## Strings -/

def hexDigitValue (c : Char) : Option Nat :=
  if c.isDigit then some (c.toNat - '0'.toNat)
  else if inRange c 0x61 0x66 then some (c.toNat - 0x61 + 10)
  else if inRange c 0x41 0x46 then some (c.toNat - 0x41 + 10)
  else none

/-- The value of hexadecimal digits. -/
def hexValue (ds : List Char) : Option Nat :=
  ds.foldlM (fun n c => (hexDigitValue c).map (16 * n + ·)) 0

/-- The character of a code point, if it is a Unicode scalar value. -/
def scalar? (n : Nat) : Option Char :=
  if n < 0xD800 ∨ (0xE000 ≤ n ∧ n ≤ 0x10FFFF) then some (Char.ofNat n) else none

/-- Reads an escape sequence after its backslash. -/
def escape : List Char → Parse Char
  | 'b' :: rest => .ok ('\x08', rest)
  | 't' :: rest => .ok ('\t', rest)
  | 'n' :: rest => .ok ('\n', rest)
  | 'f' :: rest => .ok ('\x0c', rest)
  | 'r' :: rest => .ok ('\r', rest)
  | '"' :: rest => .ok ('"', rest)
  | '\\' :: rest => .ok ('\\', rest)
  | 'u' :: rest => unicode 4 rest
  | 'U' :: rest => unicode 8 rest
  | _ => .error "invalid escape"
where
  unicode (n : Nat) (cs : List Char) : Parse Char :=
    if cs.length < n then .error "short unicode escape"
    else
      match (hexValue (cs.take n)).bind scalar? with
      | some c => .ok (c, cs.drop n)
      | none => .error "invalid unicode escape"

/-- The body of a basic string after its opening quote. -/
def basicBody (acc : List Char) : List Char → Nat → Parse String
  | _, 0 => .error "string too long"
  | [], _ + 1 => .error "unterminated string"
  | '"' :: rest, _ + 1 => .ok (String.ofList acc.reverse, rest)
  | '\\' :: rest, fuel + 1 =>
    match escape rest with
    | .ok (c, rest) => basicBody (c :: acc) rest fuel
    | .error e => .error e
  | c :: rest, fuel + 1 =>
    if isBasicChar c then basicBody (c :: acc) rest fuel else .error "invalid character in string"

/-- The body of a literal string after its opening apostrophe. -/
def literalBody (cs : List Char) : Parse String :=
  let (body, rest) := cs.span isLiteralChar
  match rest with
  | '\'' :: after => .ok (String.ofList body, after)
  | _ => .error "unterminated literal string"

/-- The length of the run of a character at the start. -/
def runLength (q : Char) (cs : List Char) : Nat := (cs.takeWhile (· = q)).length

/-- Drops a newline right after the opening delimiter of a multi-line string. -/
def trimFirstNewline (cs : List Char) : List Char := (newline? cs).getD cs

/-- Skips blanks and newlines; a carriage return counts only before a line feed. -/
def skipBlankLines : List Char → List Char
  | ' ' :: rest => skipBlankLines rest
  | '\t' :: rest => skipBlankLines rest
  | '\n' :: rest => skipBlankLines rest
  | '\r' :: '\n' :: rest => skipBlankLines rest
  | cs => cs

/-- Skips the blanks and newlines after a line-ending backslash, if there is one. -/
def lineEndingBackslash? (cs : List Char) : Option (List Char) :=
  (newline? (skipWs cs)).map skipBlankLines

/-- The body of a multi-line string after its opening delimiter: `q` is its quote character,
escapes are read when `escapes`. A run of three to five quotes closes it, keeping all but three. -/
def multiBody (q : Char) (escapes : Bool) (acc : List Char) : List Char → Nat → Parse String
  | _, 0 => .error "string too long"
  | [], _ + 1 => .error "unterminated string"
  | c :: rest, fuel + 1 =>
    if c = q then
      let n := runLength q (c :: rest)
      let after := (c :: rest).drop n
      if n < 3 then multiBody q escapes (List.replicate n q ++ acc) after fuel
      else if n ≤ 5 then .ok (String.ofList (acc.reverse ++ List.replicate (n - 3) q), after)
      else .error "too many quotes"
    else if c = '\\' && escapes then
      match lineEndingBackslash? rest with
      | some after => multiBody q escapes acc after fuel
      | none =>
        match escape rest with
        | .ok (e, after) => multiBody q escapes (e :: acc) after fuel
        | .error e => .error e
    else
      match newline? (c :: rest) with
      | some after => multiBody q escapes ('\n' :: acc) after fuel
      | none =>
        let ok := if escapes then isBasicChar c else isLiteralChar c
        if ok then multiBody q escapes (c :: acc) rest fuel else .error "invalid character in string"

/-- Reads a string of any of the four kinds. -/
def string : List Char → Parse String
  | '"' :: '"' :: '"' :: rest =>
    let body := trimFirstNewline rest
    multiBody '"' true [] body (body.length + 1)
  | '"' :: rest => basicBody [] rest (rest.length + 1)
  | '\'' :: '\'' :: '\'' :: rest =>
    let body := trimFirstNewline rest
    multiBody '\'' false [] body (body.length + 1)
  | '\'' :: rest => literalBody rest
  | _ => .error "expected a string"

/-! ## Keys -/

/-- Reads one key: bare, or a one-line basic or literal string. -/
def simpleKey : List Char → Parse String
  | '"' :: rest => basicBody [] rest (rest.length + 1)
  | '\'' :: rest => literalBody rest
  | cs =>
    let (name, rest) := cs.span isBareKeyChar
    if name.isEmpty then .error "expected a key" else .ok (String.ofList name, rest)

/-- Arrays and inline tables nest fewer than this many deep, and a dotted key has fewer than
this many parts. -/
def nestingLimit : Nat := 80

/-- Reads a dotted key, blanks allowed around the dots. -/
def dottedKey : List Char → Nat → Parse (List String)
  | _, 0 => .error "key too long"
  | cs, fuel + 1 =>
    match simpleKey cs with
    | .error e => .error e
    | .ok (k, rest) =>
      match skipWs rest with
      | '.' :: more => (dottedKey (skipWs more) fuel).map fun (ks, after) => (k :: ks, after)
      | _ => .ok ([k], rest)

/-! ## Numbers -/

/-- Reads `D *(D | _ D)` for digits `D`: the digits without underscores, and the rest. -/
def digitRun (isD : Char → Bool) : List Char → Option (List Char × List Char)
  | c :: rest => if isD c then let (ds, r) := more rest; some (c :: ds, r) else none
  | [] => none
where
  more : List Char → List Char × List Char
    | '_' :: c :: rest =>
      if isD c then let (ds, r) := more rest; (c :: ds, r) else ([], '_' :: c :: rest)
    | c :: rest => if isD c then let (ds, r) := more rest; (c :: ds, r) else ([], c :: rest)
    | [] => ([], [])

/-- Splits off a leading sign. -/
def sign (cs : List Char) : Bool × List Char :=
  match cs with
  | '+' :: rest => (false, rest)
  | '-' :: rest => (true, rest)
  | _ => (false, cs)

/-- Reads a decimal integer part: an optional sign, then `0` or digits without a leading zero. -/
def decInt (cs : List Char) : Option (Bool × List Char × List Char) :=
  let (negative, body) := sign cs
  match body with
  | '0' :: rest => some (negative, ['0'], rest)
  | _ => (digitRun Char.isDigit body).map fun (ds, rest) => (negative, ds, rest)

def digitsValue (base : Nat) (ds : List Char) : Nat :=
  ds.foldl (fun n c => base * n + ((hexDigitValue c).getD 0)) 0

/-- The bounds of a 64-bit signed integer. -/
def fitsI64 (i : Int) : Bool := -(Int.pow 2 63) ≤ i && i < Int.pow 2 63

/-- Reads a whole token as an integer: decimal, or `0x`, `0o`, `0b` with their digits. -/
def integer? (tok : List Char) : Option Int :=
  let radix (base : Nat) (isD : Char → Bool) (cs : List Char) : Option Int :=
    match digitRun isD cs with
    | some (ds, []) =>
      let v : Int := digitsValue base ds
      if fitsI64 v then some v else none
    | _ => none
  match tok with
  | '0' :: 'x' :: rest => radix 16 (fun c => (hexDigitValue c).isSome) rest
  | '0' :: 'o' :: rest => radix 8 (fun c => inRange c 0x30 0x37) rest
  | '0' :: 'b' :: rest => radix 2 (fun c => c = '0' || c = '1') rest
  | _ =>
    match decInt tok with
    | some (negative, ds, []) =>
      let v : Int := digitsValue 10 ds
      let v := if negative then -v else v
      if fitsI64 v then some v else none
    | _ => none

/-- Reads an exponent after its `e`: an optional sign and digits, leading zeros allowed. -/
def exponentPart (cs : List Char) : Option (Int × List Char) :=
  let (negative, body) := sign cs
  (digitRun Char.isDigit body).map fun (ds, rest) =>
    let v : Int := digitsValue 10 ds
    (if negative then -v else v, rest)

/-- Reads a whole token as a float. -/
def float? (tok : List Char) : Option Float :=
  let (negative, body) := sign tok
  if body = ['i', 'n', 'f'] then some (Nearest.infinity negative)
  else if body = ['n', 'a', 'n'] then some Nearest.nan
  else
    match decInt tok with
    | none => none
    | some (negative, whole, rest) =>
      let exponentOnly (e : Char) (expText : List Char) : Option Int :=
        if e = 'e' || e = 'E' then
          match exponentPart expText with
          | some (x, []) => some x
          | _ => none
        else none
      let parts : Option (List Char × Int) :=
        match rest with
        | '.' :: more =>
          match digitRun Char.isDigit more with
          | none => none
          | some (frac, []) => some (frac, 0)
          | some (frac, e :: expText) => (exponentOnly e expText).map (frac, ·)
        | e :: expText => (exponentOnly e expText).map ([], ·)
        | [] => none
      match parts with
      | none => none
      | some (frac, x) =>
        let v := Nearest.ofDecimal negative (digitsValue 10 (whole ++ frac)) (x - frac.length)
        if v.isInf && !negative then none else some v

/-! ## Date-times -/

/-- Reads exactly `n` decimal digits. -/
def fixedDigits (n : Nat) (cs : List Char) : Option (Nat × List Char) :=
  let ds := cs.take n
  if ds.length = n && ds.all Char.isDigit then some (digitsValue 10 ds, cs.drop n) else none

def isLeapYear (y : Nat) : Bool := y % 4 == 0 && (y % 100 != 0 || y % 400 == 0)

def daysInMonth (y m : Nat) : Nat :=
  if m = 2 then (if isLeapYear y then 29 else 28)
  else if m = 4 ∨ m = 6 ∨ m = 9 ∨ m = 11 then 30 else 31

/-- Reads a date `YYYY-MM-DD` with a real month and day. -/
def date? (cs : List Char) : Option (List Char) := do
  let (y, cs) ← fixedDigits 4 cs
  let cs ← match cs with | '-' :: r => some r | _ => none
  let (m, cs) ← fixedDigits 2 cs
  let cs ← match cs with | '-' :: r => some r | _ => none
  let (d, cs) ← fixedDigits 2 cs
  if 1 ≤ m ∧ m ≤ 12 ∧ 1 ≤ d ∧ d ≤ daysInMonth y m then some cs else none

/-- Reads a time `HH:MM:SS` with optional fraction. -/
def time? (cs : List Char) : Option (List Char) := do
  let (h, cs) ← fixedDigits 2 cs
  let cs ← match cs with | ':' :: r => some r | _ => none
  let (m, cs) ← fixedDigits 2 cs
  let cs ← match cs with | ':' :: r => some r | _ => none
  let (s, cs) ← fixedDigits 2 cs
  let cs ← match cs with
    | '.' :: r =>
      let (ds, after) := r.span Char.isDigit
      if ds.isEmpty then none else some after
    | r => some r
  if h ≤ 23 ∧ m ≤ 59 ∧ s ≤ 60 then some cs else none

/-- Reads an offset `Z` or `±HH:MM`. -/
def offset? : List Char → Option (List Char)
  | 'Z' :: rest => some rest
  | 'z' :: rest => some rest
  | c :: rest =>
    if c = '+' || c = '-' then do
      let (h, cs) ← fixedDigits 2 rest
      let cs ← match cs with | ':' :: r => some r | _ => none
      let (m, cs) ← fixedDigits 2 cs
      if h ≤ 23 ∧ m ≤ 59 then some cs else none
    else none
  | [] => none

/-- Reads a time with an optional offset, using up the whole token. -/
def timeWithOffset (tok : List Char) : Bool :=
  match time? tok with
  | some [] => true
  | some rest => offset? rest == some []
  | none => false

/-- Whether a token starts like a date, `DDDD-`. -/
def looksLikeDate (tok : List Char) : Bool :=
  (tok.take 4).all Char.isDigit && tok.length ≥ 5 && tok[4]? == some '-'

/-- Whether a token starts like a time, `DD:`. -/
def looksLikeTime (tok : List Char) : Bool :=
  (tok.take 2).all Char.isDigit && tok.length ≥ 3 && tok[2]? == some ':'

/-- Reads a date-time whose date token is `tok`; a time may follow a blank after it. -/
def dateTime (tok rest : List Char) : Parse String :=
  match date? tok with
  | none => .error "invalid date"
  | some [] =>
    match rest with
    | ' ' :: more =>
      let (timeTok, after) := more.span isTokenChar
      if looksLikeTime timeTok then
        if timeWithOffset timeTok then .ok (String.ofList (tok ++ ' ' :: timeTok), after)
        else .error "invalid time"
      else .ok (String.ofList tok, rest)
    | _ => .ok (String.ofList tok, rest)
  | some (d :: timeTok) =>
    if (d = 'T' || d = 't') && timeWithOffset timeTok then .ok (String.ofList tok, rest)
    else .error "invalid date-time"

/-- Reads a number or date-time. -/
def numberOrDate (cs : List Char) : Parse Value :=
  let (tok, rest) := cs.span isTokenChar
  if looksLikeDate tok then
    (dateTime tok rest).map fun (text, rest) => (.datetime text, rest)
  else if looksLikeTime tok then
    match time? tok with
    | some [] => .ok (.datetime (String.ofList tok), rest)
    | _ => .error "invalid time"
  else
    match float? tok with
    | some x => .ok (.float x, rest)
    | none =>
      match integer? tok with
      | some i => .ok (.int i, rest)
      | none => .error "invalid number"

end Exchange.Toml
