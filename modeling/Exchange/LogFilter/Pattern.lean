import Exchange.Text.Alphanumeric
import Exchange.Text.WhiteSpace

/-!
# Patterns of field filters

A field filter may compare a field's value with a regular expression, which is compiled into a
deterministic automaton over the bytes of UTF-8 text, with no Unicode data at hand.
`Pattern.check` decides whether an expression compiles.

The syntax is the usual one: alternation `|`; groups `( )`, non-capturing with `?:`, named with
`?P<name>` or `?<name>`, or carrying flags as in `(?i)` and `(?-u:...)`; the repetitions `?`,
`*`, `+`, `{m}`, `{m,}` and `{m,n}`, each of them lazy with a `?` after it; classes in brackets
with ranges, ASCII classes such as `[:alpha:]`, nested classes and the set operations `&&`, `--`
and `~~`; and escapes. The flags are `i` (either case), `m`, `s`, `U`, `R`, `u` (characters
rather than bytes, on at first) and `x` (blanks and `#` comments between the parts are skipped).

An expression is refused (`PatternError.malformed`) when

* it is not of the syntax: a group never closed or never opened, a repetition of nothing or of a
  flag setting, a class never closed, a range that runs backwards, an unknown escape, a
  back-reference (a digit after the backslash), look-around, a flag twice or unknown, a group name
  that is empty, badly formed or used twice, counts that are missing, run backwards or overflow
  32 bits;
* its tree nests deeper than `nestLimit`: groups, repetitions, alternations of two branches or
  more, sequences of two parts or more, classes, unions of two items or more inside classes and
  set operations each count one level;
* it needs Unicode data: the classes `\d`, `\s`, `\w` and their capitals, `\p` and `\P`, and
  matching in either case, all with `u` on;
* it can match bytes that are not UTF-8, with `u` off: the dot, negated classes (and `\D`, `\S`,
  `\W`), and characters above 127 in a class or written `\xHH`.

An expression that passes all of that but asks for a word boundary with `u` on (`\b`, `\B`, `\<`,
`\>`, `\b{start}` and the like) is refused too (`PatternError.unicodeWordBoundary`): an automaton
over bytes cannot test where Unicode words begin.
-/

namespace Exchange.Pattern

/-- Why an expression does not compile. -/
inductive PatternError where
  /-- Not of the syntax, nested too deeply, in need of Unicode data, or matching bytes that are
  not UTF-8. -/
  | malformed
  /-- A word boundary in the Unicode sense. -/
  | unicodeWordBoundary
  deriving DecidableEq, Repr

def PatternError.message : PatternError → String
  | .malformed => "error building NFA"
  | .unicodeWordBoundary =>
    "unsupported regex feature for DFAs: cannot build DFAs for regexes with Unicode word " ++
    "boundaries; switch to ASCII word boundaries, or heuristically enable Unicode word " ++
    "boundaries or use a different regex engine"

/-- The deepest an expression's tree may nest. -/
def nestLimit : Nat := 250

/-- The flags that decide how the rest of a group is read and checked. The other flags change
what an expression matches, never whether it compiles. -/
structure Flags where
  /-- Letters match in either case (`i`). -/
  caseless : Bool := false
  /-- Classes, the dot and literals are of characters rather than bytes (`u`). -/
  unicode : Bool := true
  /-- Blanks and `#` comments between the parts are skipped (`x`). -/
  spaced : Bool := false
  deriving DecidableEq, Repr

/-- Turns a flag letter on or off; `none` for a letter that is no flag. -/
def Flags.set (f : Flags) (letter : Char) (on : Bool) : Option Flags :=
  if letter = 'i' then some { f with caseless := on }
  else if letter = 'u' then some { f with unicode := on }
  else if letter = 'x' then some { f with spaced := on }
  else if letter = 'm' || letter = 's' || letter = 'U' || letter = 'R' then some f
  else none

/-! ## Characters -/

/-- Characters that a backslash makes literal. -/
def isMeta (c : Char) : Bool :=
  "\\.+*?()|[]\x7b\x7d^$#&-~".toList.contains c

/-- Characters that stand for themselves after a backslash: the metacharacters and every other
ASCII character except letters, digits, `<` and `>`. -/
def isEscapable (c : Char) : Bool :=
  isMeta c || (c.toNat < 0x80 && !c.isAlphanum && c ≠ '<' && c ≠ '>')

def isHexDigit (c : Char) : Bool :=
  c.isDigit || ('a' ≤ c && c ≤ 'f') || ('A' ≤ c && c ≤ 'F')

/-- The value of hexadecimal digits. -/
def hexValue (ds : List Char) : Nat :=
  ds.foldl (fun n c => 16 * n + (digitValue c)) 0
where
  digitValue (c : Char) : Nat :=
    if c.isDigit then c.toNat - '0'.toNat
    else if c ≤ 'F' then c.toNat - 'A'.toNat + 10
    else c.toNat - 'a'.toNat + 10

/-- The character of a code point, unless it is a surrogate or beyond the last one. -/
def scalar? (n : Nat) : Option Char :=
  if n < 0xD800 || (0xDFFF < n && n < 0x110000) then some (Char.ofNat n) else none

/-- The names of the ASCII classes. -/
def asciiClassNames : List String :=
  ["alnum", "alpha", "ascii", "blank", "cntrl", "digit", "graph", "lower", "print", "punct",
   "space", "upper", "word", "xdigit"]

/-- Skips blanks and `#` comments, each to the end of its line, when `spaced`; `comment` says that
a comment is open. -/
def skipBlankFrom (spaced : Bool) (comment : Bool) : List Char → List Char
  | [] => []
  | c :: rest =>
    if comment then skipBlankFrom spaced (c ≠ '\n') rest
    else if spaced && isWhiteSpace c then skipBlankFrom spaced false rest
    else if spaced && c = '#' then skipBlankFrom spaced true rest
    else c :: rest

/-- Skips blanks and comments when `spaced`. -/
def skipBlank (spaced : Bool) (cs : List Char) : List Char :=
  skipBlankFrom spaced false cs

theorem length_skipBlankFrom_le (spaced comment : Bool) (cs : List Char) :
    (skipBlankFrom spaced comment cs).length ≤ cs.length := by
  induction cs generalizing comment with
  | nil => simp [skipBlankFrom]
  | cons c rest ih =>
    simp only [skipBlankFrom]
    split
    · exact Nat.le_succ_of_le (ih _)
    · split
      · exact Nat.le_succ_of_le (ih _)
      · split
        · exact Nat.le_succ_of_le (ih _)
        · exact Nat.le_refl _

theorem length_skipBlank_le (spaced : Bool) (cs : List Char) :
    (skipBlank spaced cs).length ≤ cs.length :=
  length_skipBlankFrom_le spaced false cs

/-- The character after a `-` in a class, as the reader peeks at it to tell a range from a
literal `-`: with `spaced`, the first character that is no blank, no `#` and not inside a
comment, or else the very next one. -/
def peekAfter (spaced : Bool) (cs : List Char) : Option Char :=
  if spaced then (firstKept cs false).orElse fun _ => cs.head? else cs.head?
where
  firstKept : List Char → Bool → Option Char
    | [], _ => none
    | c :: rest, comment =>
      if isWhiteSpace c then firstKept rest comment
      else if !comment && c = '#' then firstKept rest true
      else some c

/-! ## Counts of repetitions -/

/-- Reads digits, with blanks between them when `spaced`. -/
def countDigits (spaced : Bool) (acc : List Char) (cs : List Char) : List Char × List Char :=
  match cs with
  | c :: rest =>
    if c.isDigit then countDigits spaced (c :: acc) (skipBlank spaced rest)
    else (acc.reverse, cs)
  | [] => (acc.reverse, [])
termination_by cs.length
decreasing_by
  have := length_skipBlank_le spaced rest
  simp only [List.length_cons]
  omega

/-- Skips white space, and with `spaced` the comments after it. -/
def skipWhite (spaced : Bool) (cs : List Char) : List Char :=
  match cs with
  | c :: rest => if isWhiteSpace c then skipWhite spaced (skipBlank spaced rest) else cs
  | [] => []
termination_by cs.length
decreasing_by
  have := length_skipBlank_le spaced rest
  simp only [List.length_cons]
  omega

/-- Reads a count of a repetition: white space, digits, white space. The count is `none` without
a digit or past 32 bits. -/
def readCount (spaced : Bool) (cs : List Char) : Option Nat × List Char :=
  let (ds, rest) := countDigits spaced [] (cs.dropWhile isWhiteSpace)
  let value := ds.foldl (fun n c => 10 * n + (c.toNat - '0'.toNat)) 0
  (if ds.isEmpty || Nat.pow 2 32 ≤ value then none else some value, skipWhite spaced rest)

/-- Reads the bounds of a counted repetition after its `{`, through its `}` and a `?` that makes
it lazy; answers the rest. -/
def readBounds (spaced : Bool) (cs : List Char) : Except PatternError (List Char) := do
  let cs := skipBlank spaced cs
  if cs.isEmpty then throw .malformed
  let (lo, cs) := readCount spaced cs
  let (ok, cs) : Bool × List Char := match cs with
    | ',' :: rest =>
      match skipBlank spaced rest with
      | '}' :: after => (lo.isSome, '}' :: after)
      | [] => (false, [])
      | more =>
        let (hi, after) := readCount spaced more
        match lo, hi with
        | some l, some h => (l ≤ h, after)
        | _, _ => (false, after)
    | rest => (lo.isSome, rest)
  match ok, cs with
  | true, '}' :: rest =>
    match skipBlank spaced rest with
    | '?' :: after => pure after
    | after => pure after
  | _, _ => throw .malformed

/-! ## Escapes -/

/-- What a backslash escape, or a single character, stands for. -/
inductive Atom where
  /-- A character; `byte` when written as two hexadecimal digits (`\xHH`), which with `u` off
  stand for one byte. -/
  | char (c : Char) (byte : Bool)
  /-- An assertion; `word` for the kinds of word boundary. -/
  | assertion (word : Bool)
  /-- A Perl class `\d`, `\s`, `\w`, or with `negated` its capital. -/
  | perlClass (negated : Bool)
  /-- The dot: any character but a line feed. -/
  | any
  deriving DecidableEq, Repr

/-- Reads the digits in braces after `\x{`: hexadecimal digits up to `}`, blanks skipped before
each of them. -/
def braceDigits (spaced : Bool) (acc : List Char) (cs : List Char) :
    Option (List Char × List Char) :=
  match cs with
  | [] => none
  | c :: rest =>
    if c = '}' then some (acc.reverse, skipBlank spaced rest)
    else if isHexDigit c then braceDigits spaced (c :: acc) (skipBlank spaced rest)
    else none
termination_by cs.length
decreasing_by
  have := length_skipBlank_le spaced rest
  simp only [List.length_cons]
  omega

/-- Reads `n` more hexadecimal digits, the first of them at the head of `cs`. -/
def fixedDigits (spaced : Bool) : Nat → List Char → List Char → Option (List Char × List Char)
  | 0, acc, cs => some (acc.reverse, cs)
  | n + 1, acc, c :: rest =>
    if !isHexDigit c then none
    else if n = 0 then some ((c :: acc).reverse, skipBlank spaced rest)
    else fixedDigits spaced n (c :: acc) (skipBlank spaced rest)
  | _ + 1, _, [] => none

/-- Reads the code point after `\x`, `\u` or `\U`: `width` digits, or any number of them in
braces. -/
def readHex (spaced : Bool) (width : Nat) (byte : Bool) (cs : List Char) :
    Except PatternError (Atom × List Char) :=
  match skipBlank spaced cs with
  | [] => .error .malformed
  | '{' :: rest =>
    match braceDigits spaced [] (skipBlank spaced rest) with
    | some (ds, after) =>
      match ds.isEmpty, scalar? (hexValue ds) with
      | false, some c => .ok (.char c false, after)
      | _, _ => .error .malformed
    | none => .error .malformed
  | digits =>
    match fixedDigits spaced width [] digits with
    | some (ds, after) =>
      match scalar? (hexValue ds) with
      | some c => .ok (.char c byte, after)
      | none => .error .malformed
    | none => .error .malformed

/-- Whether a character may stand in the name of a special word boundary. -/
def isBoundaryNameChar (c : Char) : Bool :=
  ('a' ≤ c && c ≤ 'z') || ('A' ≤ c && c ≤ 'Z') || c = '-'

/-- Reads the name of a special word boundary. -/
def boundaryName (spaced : Bool) (acc : List Char) (cs : List Char) : List Char × List Char :=
  match cs with
  | c :: rest =>
    if isBoundaryNameChar c then boundaryName spaced (c :: acc) (skipBlank spaced rest)
    else (acc.reverse, cs)
  | [] => (acc.reverse, [])
termination_by cs.length
decreasing_by
  have := length_skipBlank_le spaced rest
  simp only [List.length_cons]
  omega

/-- After `\b`: a braced name `start`, `end`, `start-half` or `end-half` makes a special word
boundary. A brace followed by anything but a name's character is left to be read as a counted
repetition of the boundary. -/
def afterWordBoundary (spaced : Bool) (cs : List Char) : Except PatternError (Atom × List Char) :=
  match cs with
  | '{' :: more =>
    match skipBlank spaced more with
    | [] => .error .malformed
    | c :: rest =>
      if !isBoundaryNameChar c then .ok (.assertion true, cs)
      else
        match boundaryName spaced [] (c :: rest) with
        | (name, '}' :: after) =>
          if ["start", "end", "start-half", "end-half"].contains (String.ofList name) then
            .ok (.assertion true, after)
          else .error .malformed
        | _ => .error .malformed
  | _ => .ok (.assertion true, cs)

/-- Reads an escape after its backslash. `\p` and `\P` are refused outright: they need Unicode
data whatever follows them. -/
def readEscape (spaced : Bool) (cs : List Char) : Except PatternError (Atom × List Char) :=
  match cs with
  | [] => .error .malformed
  | c :: rest =>
    if c.isDigit || c = 'p' || c = 'P' then .error .malformed
    else if c = 'x' then readHex spaced 2 true rest
    else if c = 'u' then readHex spaced 4 false rest
    else if c = 'U' then readHex spaced 8 false rest
    else if c = 'd' || c = 's' || c = 'w' then .ok (.perlClass false, rest)
    else if c = 'D' || c = 'S' || c = 'W' then .ok (.perlClass true, rest)
    else if isEscapable c then .ok (.char c false, rest)
    else if c = 'a' then .ok (.char '\x07' false, rest)
    else if c = 'f' then .ok (.char '\x0C' false, rest)
    else if c = 't' then .ok (.char '\t' false, rest)
    else if c = 'n' then .ok (.char '\n' false, rest)
    else if c = 'r' then .ok (.char '\r' false, rest)
    else if c = 'v' then .ok (.char '\x0B' false, rest)
    else if c = 'A' || c = 'z' then .ok (.assertion false, rest)
    else if c = 'b' then afterWordBoundary spaced rest
    else if c = 'B' || c = '<' || c = '>' then .ok (.assertion true, rest)
    else .error .malformed

/-! ## Classes -/

/-- Reads an ASCII class after its `[`: `:name:]` or `:^name:]`. Answers whether it is negated and
the rest, or `none` when the text is no ASCII class and the `[` opens a nested class. -/
def asciiClass? (cs : List Char) : Option (Bool × List Char) :=
  match cs with
  | ':' :: rest =>
    let (negated, rest) : Bool × List Char := match rest with
      | '^' :: r => (true, r)
      | r => (false, r)
    match rest.span (· ≠ ':') with
    | (name, ':' :: ']' :: after) =>
      if asciiClassNames.contains (String.ofList name) then some (negated, after) else none
    | _ => none
  | _ => none

/-- Reads leading `-`, which stand for themselves; answers how many and the rest, or `none` at
the end of the text. -/
def leadingDashes (spaced : Bool) (n : Nat) (cs : List Char) : Option (Nat × List Char) :=
  match cs with
  | '-' :: rest =>
    match h : skipBlank spaced rest with
    | [] => none
    | next :: more => leadingDashes spaced (n + 1) (next :: more)
  | _ => some (n, cs)
termination_by cs.length
decreasing_by
  have := length_skipBlank_le spaced rest
  rw [h] at this
  simp only [List.length_cons] at this ⊢
  omega

/-- Reads the start of a class after its `[`: a `^` that negates it, then any `-` and a first
`]`, which stand for themselves. Answers whether it is negated, how many items were read, and the
rest. -/
def classHeader (spaced : Bool) (cs : List Char) : Except PatternError (Bool × Nat × List Char) :=
  match skipBlank spaced cs with
  | [] => .error .malformed
  | first :: more =>
    let (negated, cs) : Bool × List Char := match first with
      | '^' => (true, skipBlank spaced more)
      | _ => (false, first :: more)
    match leadingDashes spaced 0 cs with
    | none => .error .malformed
    | some (n, ']' :: rest) =>
      if n = 0 then
        match skipBlank spaced rest with
        | [] => .error .malformed
        | after => .ok (negated, 1, after)
      else .ok (negated, n, ']' :: rest)
    | some (_, []) => .error .malformed
    | some (n, rest) => .ok (negated, n, rest)

/-- Whether a class can be built with these flags: folding cases needs Unicode data, and with
`u` off the complement of a class holds bytes above 127. -/
def classAllowed (flags : Flags) (negated : Bool) : Bool :=
  !(flags.unicode && flags.caseless) && (flags.unicode || !negated)

/-- Whether a character may stand in a class: with `u` off only ASCII may. -/
def classCharAllowed (flags : Flags) (c : Char) : Bool :=
  flags.unicode || c.toNat < 0x80

/-- Reads one item of a class: an escape or a character. -/
def classAtom (flags : Flags) (cs : List Char) : Except PatternError (Atom × List Char) :=
  match cs with
  | '\\' :: rest => do
    let (a, rest) ← readEscape flags.spaced rest
    match a with
    | .char c _ => if classCharAllowed flags c then pure (a, rest) else throw .malformed
    | .perlClass negated =>
      if flags.unicode || negated then throw .malformed else pure (a, rest)
    | .assertion _ | .any => throw .malformed
  | c :: rest => if classCharAllowed flags c then .ok (.char c false, rest) else .error .malformed
  | [] => .error .malformed

/-- Reads an item of a class that may be a range `a-z`; a `-` before `]` or before another `-`
stands for itself. -/
def classRange (flags : Flags) (cs : List Char) : Except PatternError (List Char) := do
  let (first, rest) ← classAtom flags cs
  match skipBlank flags.spaced rest with
  | [] => throw .malformed
  | '-' :: after =>
    let next := peekAfter flags.spaced after
    if next = some ']' || next = some '-' then pure ('-' :: after)
    else
      match skipBlank flags.spaced after with
      | [] => throw .malformed
      | more =>
        let (last, rest) ← classAtom flags more
        match first, last with
        | .char lo _, .char hi _ => if hi < lo then throw .malformed else pure rest
        | _, _ => throw .malformed
  | rest => pure rest

/-! ## Heights -/

/-- The height of a node over children of these heights; a node of one child is that child, and
a node of none is empty. -/
def nodeHeight (hs : List Nat) : Nat :=
  match hs with
  | [] => 0
  | [h] => h
  | _ => hs.foldr max 0 + 1

/-- The height of a class's set: its last union, under the set operation before it if any. -/
def setHeight (lhs : Option Nat) (items : List Nat) : Nat :=
  match lhs with
  | none => nodeHeight items
  | some l => max l (nodeHeight items) + 1

/-- Reads the items of a class, after its header, through its `]`. `items` are the heights of
the current union's items and `lhs` the height of the set before the last set operation.
Answers the height of the class and the rest after it. -/
def readClassItems : Nat → Flags → List Nat → Option Nat → List Char →
    Except PatternError (Nat × List Char)
  | 0, _, _, _, _ => .error .malformed
  | fuel + 1, flags, items, lhs, cs =>
    match skipBlank flags.spaced cs with
    | [] => .error .malformed
    | '[' :: rest =>
      match asciiClass? rest with
      | some (negated, after) =>
        if classAllowed flags negated then readClassItems fuel flags (0 :: items) lhs after
        else .error .malformed
      | none => do
        let (negated, n, body) ← classHeader flags.spaced rest
        if !classAllowed flags negated then throw .malformed
        let (h, after) ← readClassItems fuel flags (List.replicate n 0) none body
        readClassItems fuel flags (h :: items) lhs after
    | ']' :: rest => .ok (setHeight lhs items + 1, rest)
    | '&' :: '&' :: rest => readClassItems fuel flags [] (some (setHeight lhs items)) rest
    | '-' :: '-' :: rest => readClassItems fuel flags [] (some (setHeight lhs items)) rest
    | '~' :: '~' :: rest => readClassItems fuel flags [] (some (setHeight lhs items)) rest
    | more => do
      let after ← classRange flags more
      readClassItems fuel flags (0 :: items) lhs after

/-- Reads a class after its `[`; answers its height and the rest. -/
def readClass (fuel : Nat) (flags : Flags) (cs : List Char) : Except PatternError (Nat × List Char) := do
  let (negated, n, body) ← classHeader flags.spaced cs
  if !classAllowed flags negated then throw .malformed
  readClassItems fuel flags (List.replicate n 0) none body

/-! ## Groups and sequences -/

/-- What reading has found besides the tree: the names of the named groups, and whether a word
boundary in the Unicode sense was asked for. -/
structure Found where
  names : List String := []
  unicodeWord : Bool := false
  deriving Repr

/-- A part of a sequence: how deeply its tree nests, and whether it sets flags, which cannot be
repeated. -/
structure Part where
  height : Nat
  setsFlags : Bool := false
  deriving Repr

/-- Reads a group's name after `?P<` or `?<`, through its `>`: a letter or `_` first, then
letters, digits, `_`, `.`, `[` and `]`. -/
def readName (cs : List Char) : Option (String × List Char) :=
  match cs.span (· ≠ '>') with
  | (name, '>' :: rest) =>
    match name with
    | [] => none
    | first :: more =>
      let inner (c : Char) : Bool := c = '_' || c = '.' || c = '[' || c = ']' || isAlphanumeric c
      if (first = '_' || isAlphabetic first) && more.all inner then some (String.ofList name, rest)
      else none
  | _ => none

/-- Reads the flags of a group after its `?`, up to and past a `:` (the group goes on) or a `)`
(the flags hold for the rest of the enclosing group). `seen` are the letters read, `negated` says
a `-` was read, and `dangling` that nothing followed it yet. -/
def readFlags (f : Flags) (seen : List Char) (negated dangling : Bool) :
    List Char → Except PatternError (Flags × Bool × List Char)
  | [] => .error .malformed
  | c :: rest =>
    if c = ':' || c = ')' then
      if dangling || (c = ')' && seen.isEmpty && !negated) then .error .malformed
      else .ok (f, c = ':', rest)
    else if c = '-' then
      if negated then .error .malformed else readFlags f seen true true rest
    else if seen.contains c then .error .malformed
    else
      match f.set c (!negated) with
      | some f' => readFlags f' (c :: seen) negated false rest
      | none => .error .malformed

/-- What follows a `(`. -/
inductive Head where
  /-- Flags that hold for the rest of the enclosing group. -/
  | setFlags (flags : Flags) (rest : List Char)
  /-- A group, read with these flags. -/
  | opens (flags : Flags) (found : Found) (rest : List Char)

/-- Reads what follows a `(`. -/
def groupHead (flags : Flags) (found : Found) (cs : List Char) : Except PatternError Head :=
  match skipBlank flags.spaced cs with
  | '?' :: '=' :: _ => .error .malformed
  | '?' :: '!' :: _ => .error .malformed
  | '?' :: '<' :: '=' :: _ => .error .malformed
  | '?' :: '<' :: '!' :: _ => .error .malformed
  | '?' :: 'P' :: '<' :: rest => named rest
  | '?' :: '<' :: rest => named rest
  | '?' :: rest => do
    let (flags', goesOn, after) ← readFlags flags [] false false rest
    if goesOn then pure (.opens flags' found after) else pure (.setFlags flags' after)
  | rest => .ok (.opens flags found rest)
where
  named (cs : List Char) : Except PatternError Head :=
    match readName cs with
    | some (name, rest) =>
      if found.names.contains name then .error .malformed
      else .ok (.opens flags { found with names := name :: found.names } rest)
    | none => .error .malformed

/-- Checks an atom outside classes against the flags, and notes a Unicode word boundary. -/
def atomAllowed (flags : Flags) (found : Found) : Atom → Except PatternError Found
  | .char c byte =>
    if flags.unicode && flags.caseless then .error .malformed
    else if !flags.unicode && byte && 0x80 ≤ c.toNat then .error .malformed
    else .ok found
  | .assertion word => .ok { found with unicodeWord := found.unicodeWord || (word && flags.unicode) }
  | .perlClass negated => if flags.unicode || negated then .error .malformed else .ok found
  | .any => if flags.unicode then .ok found else .error .malformed

/-- Reads the branches of a group, or of the whole expression, up to the group's `)` or the end
of the text, with `flags` in force. `parts` are the parts of the current branch, last first, and
`branches` the heights of the branches before it. Answers the height of what was read, what was
found, and the rest, which is empty or starts with `)`. -/
def readBranches : Nat → Flags → Found → List Part → List Nat → List Char →
    Except PatternError (Nat × Found × List Char)
  | 0, _, _, _, _, _ => .error .malformed
  | fuel + 1, flags, found, parts, branches, cs =>
    let sequence := nodeHeight (parts.map (·.height))
    let height := if branches.isEmpty then sequence else nodeHeight (sequence :: branches)
    match skipBlank flags.spaced cs with
    | [] => .ok (height, found, [])
    | ')' :: rest => .ok (height, found, ')' :: rest)
    | '|' :: rest => readBranches fuel flags found [] (sequence :: branches) rest
    | '(' :: rest => do
      match ← groupHead flags found rest with
      | .setFlags flags' after =>
        readBranches fuel flags' found ({ height := 0, setsFlags := true } :: parts) branches after
      | .opens inner found' after =>
        let (h, found', after) ← readBranches fuel inner found' [] [] after
        match after with
        | ')' :: more => readBranches fuel flags found' ({ height := h + 1 } :: parts) branches more
        | _ => throw .malformed
    | '[' :: rest => do
      let (h, after) ← readClass fuel flags rest
      readBranches fuel flags found ({ height := h } :: parts) branches after
    | '{' :: rest =>
      match parts with
      | p :: more =>
        if p.setsFlags then .error .malformed
        else do
          let after ← readBounds flags.spaced rest
          readBranches fuel flags found ({ height := p.height + 1 } :: more) branches after
      | [] => .error .malformed
    | c :: rest =>
      if c = '?' || c = '*' || c = '+' then
        match parts with
        | p :: more =>
          if p.setsFlags then .error .malformed
          else
            let after := match rest with
              | '?' :: r => r
              | r => r
            readBranches fuel flags found ({ height := p.height + 1 } :: more) branches after
        | [] => .error .malformed
      else do
        let (atom, after) ← match c with
          | '\\' => readEscape flags.spaced rest
          | '.' => pure (Atom.any, rest)
          | '^' => pure (Atom.assertion false, rest)
          | '$' => pure (Atom.assertion false, rest)
          | _ => pure (Atom.char c false, rest)
        let found ← atomAllowed flags found atom
        readBranches fuel flags found ({ height := 0 } :: parts) branches after

/-- Checks whether an expression compiles. -/
def check (text : String) : Except PatternError Unit :=
  let cs := text.toList
  match readBranches (cs.length + 1) {} {} [] [] cs with
  | .error e => .error e
  | .ok (height, found, rest) =>
    if !rest.isEmpty || nestLimit < height then .error .malformed
    else if found.unicodeWord then .error .unicodeWordBoundary
    else .ok ()

end Exchange.Pattern
