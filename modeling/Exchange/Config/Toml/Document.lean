import Exchange.Config.Toml.Scalar

/-!
# TOML documents

A document is read expression by expression: key/value pairs, `[table]` headers and
`[[array-of-tables]]` headers, each ending its line. Tables are built as they are read, and each
table remembers how it came to be, which decides what may still be added to it:

- a table named by a header is *explicit*; a header may not name it again, and dotted keys may
  not reach into it;
- a table that only lies on the path of a header is *implicit*; a later header may make it
  explicit;
- a table made by a dotted key is implicit and *dotted*; more dotted keys may extend it, a header
  may not define it, though it may define tables under it;
- a value, an inline table among them, is sealed: nothing may be added to it.

Pairs go to the table of the last header (the newest element, for an array of tables), or to the
root before any header. Inline tables follow the same rules among their own keys. Defining a key
twice is an error, and so are values nested `nestingLimit` deep and keys of that many parts.
-/

namespace Exchange.Toml

/-- A table entry while the document is read. -/
inductive Node where
  | leaf (v : Value)
  | table (implicit dotted : Bool) (entries : List (String × Node))
  | tables (items : List (List (String × Node)))
  deriving Inhabited

/-- The entries of a table being read. -/
abbrev Entries := List (String × Node)

/-- Sets a key: in place if it is there, at the end if not. -/
def put (es : Entries) (k : String) (n : Node) : Entries :=
  if es.any (·.1 == k) then es.map fun (k', n') => if k' == k then (k', n) else (k', n')
  else es ++ [(k, n)]

/-- Walks a key path from a table, creating implicit tables where the path is new, and replaces
the table the path ends at with `f`, which also learns whether that table is dotted. Paths of
dotted keys (`dotted`) may not enter explicit tables; any path goes into the newest element of
an array of tables; no path goes into a value. -/
def walk (f : Bool → Entries → Except String Entries) (dotted : Bool) :
    Entries → Bool → List String → Except String Entries
  | es, isDotted, [] => f isDotted es
  | es, _, k :: ks =>
    match es.lookup k with
    | none => do
      let child ← walk f dotted [] dotted ks
      return put es k (.table true dotted child)
    | some (.leaf _) => .error s!"cannot extend value {k}"
    | some (.table imp dot ces) =>
      if dotted && !imp then .error s!"duplicate key {k}"
      else do
        let child ← walk f dotted ces dot ks
        return put es k (.table imp dot child)
    | some (.tables items) =>
      match items.getLast? with
      | none => .error s!"empty array of tables {k}"
      | some last => do
        let child ← walk f dotted last false ks
        return put es k (.tables (items.dropLast ++ [child]))

/-- Defines a key of a table, reached by the dotted key path `ks`: a dotted path must end in a
dotted table, an empty one in a table that is not. -/
def insertKey (k : String) (n : Node) (viaDots : Bool) (isDotted : Bool) (es : Entries) :
    Except String Entries :=
  if isDotted != viaDots then .error s!"duplicate key {k}"
  else if (es.lookup k).isSome then .error s!"duplicate key {k}"
  else .ok (es ++ [(k, n)])

/-- Names a table with a `[header]`. -/
def defineTable (k : String) (_ : Bool) (es : Entries) : Except String Entries :=
  match es.lookup k with
  | none => .ok (put es k (.table false false []))
  | some (.table true false ces) => .ok (put es k (.table false false ces))
  | some _ => .error s!"duplicate table {k}"

/-- Starts a new element of an array of tables with a `[[header]]`. -/
def appendTable (k : String) (_ : Bool) (es : Entries) : Except String Entries :=
  match es.lookup k with
  | none => .ok (put es k (.tables [[]]))
  | some (.tables items) => .ok (put es k (.tables (items ++ [[]])))
  | some _ => .error s!"duplicate key {k}"

/-- Defines the pair `ks.k = n` in a table. -/
def assign (es : Entries) (isDotted : Bool) (ks : List String) (k : String) (n : Node) :
    Except String Entries :=
  walk (insertKey k n !ks.isEmpty) true es isDotted ks

mutual
/-- The value a table entry stands for. -/
def Node.freeze : Node → Value
  | .leaf v => v
  | .table _ _ es => .table (freezeEntries es)
  | .tables items => .array (freezeTables items)

def freezeEntries : List (String × Node) → List (String × Value)
  | [] => []
  | (k, n) :: rest => (k, n.freeze) :: freezeEntries rest

def freezeTables : List (List (String × Node)) → List Value
  | [] => []
  | es :: rest => .table (freezeEntries es) :: freezeTables rest
end

/-- The last key of a path and the path before it. -/
def splitLast (ks : List String) : Option (List String × String) :=
  ks.getLast?.map fun k => (ks.dropLast, k)

/-- Reads a dotted key of fewer than `nestingLimit` parts. -/
def keyPath (cs : List Char) : Except String (List String × List Char) := do
  let (ks, rest) ← dottedKey cs (cs.length + 1)
  if nestingLimit ≤ ks.length then throw "key nested too deep"
  return (ks, rest)

/-- Reads `key = ` up to the value. -/
def keyAndEquals (cs : List Char) : Except String (List String × List Char) := do
  let (ks, rest) ← keyPath cs
  match skipWs rest with
  | '=' :: more => return (ks, skipWs more)
  | _ => throw "expected ="

mutual
/-- Reads a value that lies inside `depth` arrays and inline tables. -/
def value : Nat → Nat → List Char → Parse Value
  | 0, _, _ => .error "value too long"
  | fuel + 1, depth, cs =>
    match cs with
    | '"' :: _ => (string cs).map fun (s, rest) => (.str s, rest)
    | '\'' :: _ => (string cs).map fun (s, rest) => (.str s, rest)
    | 't' :: 'r' :: 'u' :: 'e' :: rest => .ok (.bool true, rest)
    | 'f' :: 'a' :: 'l' :: 's' :: 'e' :: rest => .ok (.bool false, rest)
    | '[' :: rest =>
      if nestingLimit ≤ depth + 1 then .error "value nested too deep"
      else arrayItems fuel (depth + 1) [] rest
    | '{' :: rest =>
      if nestingLimit ≤ depth + 1 then .error "value nested too deep"
      else inlineItems fuel (depth + 1) [] true rest
    | c :: _ =>
      if c.isDigit || c = '+' || c = '-' || c = 'i' || c = 'n' then numberOrDate cs
      else .error "expected a value"
    | [] => .error "expected a value"

/-- Reads the items of an array after its `[` or after a comma; the array lies `depth` deep. -/
def arrayItems : Nat → Nat → List Value → List Char → Parse Value
  | 0, _, _, _ => .error "value too long"
  | fuel + 1, depth, acc, cs =>
    match skipTrivia cs (cs.length + 1) with
    | .error e => .error e
    | .ok (']' :: rest) => .ok (.array acc.reverse, rest)
    | .ok cs =>
      match value fuel depth cs with
      | .error e => .error e
      | .ok (v, rest) =>
        match skipTrivia rest (rest.length + 1) with
        | .error e => .error e
        | .ok (',' :: more) => arrayItems fuel depth (v :: acc) more
        | .ok (']' :: more) => .ok (.array (v :: acc).reverse, more)
        | .ok _ => .error "expected , or ]"

/-- Reads the pairs of an inline table after its `{` or after a comma; the table lies `depth`
deep. -/
def inlineItems : Nat → Nat → Entries → Bool → List Char → Parse Value
  | 0, _, _, _, _ => .error "value too long"
  | fuel + 1, depth, es, first, cs =>
    match skipWs cs with
    | '}' :: rest =>
      if first then .ok (.table [], rest) else .error "trailing comma in inline table"
    | cs =>
      match keyAndEquals cs with
      | .error e => .error e
      | .ok (path, cs) =>
        match splitLast path, value fuel depth cs with
        | none, _ => .error "expected a key"
        | _, .error e => .error e
        | some (ks, k), .ok (v, rest) =>
          match assign es false ks k (.leaf v) with
          | .error e => .error e
          | .ok es =>
            match skipWs rest with
            | ',' :: more => inlineItems fuel depth es false more
            | '}' :: more => .ok (.table (freezeEntries es), more)
            | _ => .error "expected , or \x7d"
end

/-- Ends an expression: blanks, an optional comment, then a newline or the end. -/
def endOfLine (cs : List Char) : Except String (List Char) := do
  match ← skipComment (skipWs cs) with
  | [] => return []
  | rest =>
    match newline? rest with
    | some after => return after
    | none => throw "expected a newline"

/-- The document read so far: its root table and the path of the last header. -/
structure Reader where
  root : Entries := []
  header : List String := []

namespace Reader

/-- Applies a header: `define` says what happens to its last key. -/
def enter (r : Reader) (path : List String)
    (define : String → Bool → Entries → Except String Entries) : Except String Reader :=
  match splitLast path with
  | none => .error "empty header"
  | some (ks, k) => do
    let root ← walk (define k) false r.root false ks
    return { root, header := path }

/-- Defines a pair in the table of the last header. -/
def pair (r : Reader) (path : List String) (v : Value) : Except String Reader :=
  match splitLast path with
  | none => .error "empty key"
  | some (ks, k) => do
    let root ← walk (fun d es => assign es d ks k (.leaf v)) false r.root false r.header
    return { r with root }

/-- Reads a header's key and its closing brackets. -/
def headerKey (cs : List Char) (close : List Char) : Except String (List String × List Char) := do
  let (path, rest) ← keyPath (skipWs cs)
  let rest := skipWs rest
  if rest.take close.length == close then return (path, rest.drop close.length)
  else throw "unclosed header"

/-- Reads the expressions of a document, at most `fuel` of them. -/
def expressions (r : Reader) (cs : List Char) : Nat → Except String Reader
  | 0 => .error "document too long"
  | fuel + 1 =>
    match skipWs cs with
    | [] => .ok r
    | '[' :: '[' :: rest => do
      let (path, rest) ← headerKey rest [']', ']']
      let r ← r.enter path appendTable
      r.expressions (← endOfLine rest) fuel
    | '[' :: rest => do
      let (path, rest) ← headerKey rest [']']
      let r ← r.enter path defineTable
      r.expressions (← endOfLine rest) fuel
    | cs =>
      if cs.head? == some '#' || (newline? cs).isSome then do
        r.expressions (← endOfLine cs) fuel
      else do
        let (path, rest) ← keyAndEquals cs
        let (v, rest) ← value (rest.length + 2) 0 rest
        let r ← r.pair path v
        r.expressions (← endOfLine rest) fuel

end Reader

/-- Reads a TOML document as its root table. -/
def parse (text : String) : Except String Value := do
  let cs := match text.toList with
    | '\uFEFF' :: rest => rest
    | cs => cs
  let r ← ({} : Reader).expressions cs (cs.length + 1)
  return .table (freezeEntries r.root)

end Exchange.Toml
