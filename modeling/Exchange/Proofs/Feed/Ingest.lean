import Exchange.Feed.Session

/-!
# Reading a feed's bytes record by record

A feed's bytes are read in 48-byte records: the `i`-th record of a byte string is its slice
`[48 i, 48 i + 48)`, and `stampedRecords` keeps the whole slices that read as stamped updates, in
order, dropping those that do not. What follows the last whole slice is the partial record
(`leftover`): the last `len mod 48` bytes.

Handling a byte string (`Consumer.onBytes`) hands the consumer its records in order and reports
the bytes of the whole slices (`Consumer.onBytes_eq`). Records do not care where the string was cut:
the records of `xs ++ ys` are those of `xs`, then those of the partial record of `xs` followed by
`ys` (`stampedRecords_append`). So a buffer that keeps the partial record of each receive and
puts the next receive after it (`ingest`) hands on, over any cutting of a stream into receives,
the records of the whole stream, and keeps its last `len mod 48` bytes (`ingestAll_eq`). A drain of
the receive loop is one such receive (`Consumer.drainFeed_eq`).
-/

namespace Exchange

/-- The records of a byte string: its whole 48-byte slices, in order, that read as a stamped
update. -/
def stampedRecords (bs : List UInt8) : List Stamped :=
  (List.range (bs.length / Stamped.wireSize)).filterMap fun i =>
    (Stamped.ofBytes ((bs.drop (i * Stamped.wireSize)).take Stamped.wireSize)).toOption

/-- The bytes after the last whole 48-byte slice: a record not yet complete. -/
def leftover (bs : List UInt8) : List UInt8 :=
  bs.drop (bs.length / Stamped.wireSize * Stamped.wireSize)

section Records

variable {bs : List UInt8} {n : Nat}

theorem lt_of_slices_zero (hn : bs.length / Stamped.wireSize = 0) : bs.length < Stamped.wireSize := by
  simp only [Stamped.wireSize] at hn ⊢
  omega

theorem slices_succ (hn : bs.length / Stamped.wireSize = n + 1) :
    Stamped.wireSize ≤ bs.length ∧ (bs.drop Stamped.wireSize).length / Stamped.wireSize = n := by
  simp only [List.length_drop, Stamped.wireSize] at hn ⊢
  omega

theorem stampedRecords_of_lt (h : bs.length < Stamped.wireSize) : stampedRecords bs = [] := by
  simp [stampedRecords, Nat.div_eq_of_lt h]

theorem stampedRecords_of_le (h : Stamped.wireSize ≤ bs.length) :
    stampedRecords bs = match Stamped.ofBytes (bs.take Stamped.wireSize) with
      | .ok m => m :: stampedRecords (bs.drop Stamped.wireSize)
      | .error _ => stampedRecords (bs.drop Stamped.wireSize) := by
  have hn : bs.length / Stamped.wireSize = (bs.drop Stamped.wireSize).length / Stamped.wireSize + 1 := by
    simp only [List.length_drop, Stamped.wireSize] at h ⊢
    omega
  have hslice : ∀ i, (bs.drop ((i + 1) * Stamped.wireSize)).take Stamped.wireSize =
      ((bs.drop Stamped.wireSize).drop (i * Stamped.wireSize)).take Stamped.wireSize := by
    intro i
    rw [List.drop_drop, Nat.succ_mul, Nat.add_comm]
  unfold stampedRecords
  rw [hn, List.range_succ_eq_map, List.filterMap_cons, List.filterMap_map]
  simp only [Nat.zero_mul, List.drop_zero, Function.comp_def, Nat.succ_eq_add_one, hslice]
  cases Stamped.ofBytes (bs.take Stamped.wireSize) <;> rfl

theorem leftover_of_lt (h : bs.length < Stamped.wireSize) : leftover bs = bs := by
  simp [leftover, Nat.div_eq_of_lt h]

theorem leftover_of_le (h : Stamped.wireSize ≤ bs.length) :
    leftover bs = leftover (bs.drop Stamped.wireSize) := by
  simp only [leftover, List.drop_drop, List.length_drop]
  congr 1
  simp only [Stamped.wireSize] at h ⊢
  omega

theorem leftover_eq (bs : List UInt8) :
    leftover bs = bs.drop (bs.length - bs.length % Stamped.wireSize) := by
  have := Nat.div_add_mod bs.length Stamped.wireSize
  simp only [leftover, Stamped.wireSize] at this ⊢
  congr 1
  omega

theorem length_leftover (bs : List UInt8) :
    (leftover bs).length = bs.length % Stamped.wireSize := by
  rw [leftover_eq, List.length_drop]
  have := Nat.mod_le bs.length Stamped.wireSize
  omega

/-- **Records do not care where a stream is cut.** The records of `xs ++ ys` are those of `xs`,
then those of what `xs` leaves of a record followed by `ys`. -/
theorem stampedRecords_append (xs ys : List UInt8) :
    stampedRecords (xs ++ ys) = stampedRecords xs ++ stampedRecords (leftover xs ++ ys) := by
  -- induction on the number of whole slices of `xs`
  induction hn : xs.length / Stamped.wireSize generalizing xs with
  | zero =>
    have hlt := lt_of_slices_zero hn
    rw [stampedRecords_of_lt hlt, leftover_of_lt hlt, List.nil_append]
  | succ n ih =>
    obtain ⟨hle, hrest⟩ := slices_succ hn
    have hxy : Stamped.wireSize ≤ (xs ++ ys).length := by simp; omega
    rw [stampedRecords_of_le hxy, stampedRecords_of_le hle, leftover_of_le hle,
      List.take_append_of_le_length hle, List.drop_append_of_le_length hle, ih _ hrest]
    cases Stamped.ofBytes (xs.take Stamped.wireSize) <;> rfl

theorem leftover_append (xs ys : List UInt8) : leftover (xs ++ ys) = leftover (leftover xs ++ ys) := by
  induction hn : xs.length / Stamped.wireSize generalizing xs with
  | zero =>
    have hlt := lt_of_slices_zero hn
    rw [leftover_of_lt hlt]
  | succ n ih =>
    obtain ⟨hle, hrest⟩ := slices_succ hn
    have hxy : Stamped.wireSize ≤ (xs ++ ys).length := by simp; omega
    rw [leftover_of_le hxy, leftover_of_le hle, List.drop_append_of_le_length hle, ih _ hrest]

end Records

/-! ## Handling the records -/

namespace Consumer

/-- Handles records of a feed in order, stopping at the first fault. -/
def handleFeed (c : Consumer) (feed : FeedKind) (ms : List Stamped) : Except Fault Consumer :=
  ms.foldlM (fun c m => c.onMessage feed m) c

@[simp] theorem handleFeed_nil (c : Consumer) (feed : FeedKind) : c.handleFeed feed [] = .ok c := rfl

theorem handleFeed_cons (c : Consumer) (feed : FeedKind) (m : Stamped) (ms : List Stamped) :
    c.handleFeed feed (m :: ms) = (c.onMessage feed m >>= fun c => c.handleFeed feed ms) := rfl

theorem handleFeed_append (c : Consumer) (feed : FeedKind) (ms ms' : List Stamped) :
    c.handleFeed feed (ms ++ ms') = (c.handleFeed feed ms >>= fun c => c.handleFeed feed ms') := by
  simp [handleFeed, List.foldlM_append]

theorem onRecords_eq {feed : FeedKind} : ∀ (n : Nat) {c : Consumer} {bs : List UInt8},
    bs.length / Stamped.wireSize = n → c.onRecords feed bs n = c.handleFeed feed (stampedRecords bs)
  | 0, c, bs, hn => by
    simp [onRecords, stampedRecords_of_lt (lt_of_slices_zero hn)]
  | n + 1, c, bs, hn => by
    obtain ⟨hle, hrest⟩ := slices_succ hn
    rw [onRecords, if_neg (Nat.not_lt.2 hle), stampedRecords_of_le hle]
    cases Stamped.ofBytes (bs.take Stamped.wireSize) with
    | ok m =>
      simp only [handleFeed_cons]
      congr 1
      funext c'
      exact onRecords_eq n hrest
    | error e => exact onRecords_eq n hrest

/-- **Handling bytes.** The consumer handles the records of the string in order, skipping the
slices that do not read, and reports the bytes of all whole slices, read or not. -/
theorem onBytes_eq (c : Consumer) (feed : FeedKind) (bs : List UInt8) :
    c.onBytes feed bs = (c.handleFeed feed (stampedRecords bs)).map
      fun c' => (bs.length / Stamped.wireSize * Stamped.wireSize, c') := by
  simp only [onBytes, onRecords_eq _ rfl]
  cases c.handleFeed feed (stampedRecords bs) <;> rfl

end Consumer

/-! ## A buffer that carries the partial record -/

/-- A feed buffer holding `buf` receives `bytes`: it hands on the records of the two together and
keeps the partial record after them. A receive of nothing hands on nothing. -/
def ingest (buf bytes : List UInt8) : List Stamped × List UInt8 :=
  if bytes.isEmpty then ([], buf) else (stampedRecords (buf ++ bytes), leftover (buf ++ bytes))

/-- A feed buffer receives the chunks one after another. -/
def ingestAll (buf : List UInt8) : List (List UInt8) → List Stamped × List UInt8
  | [] => ([], buf)
  | bytes :: chunks =>
    let (ms, buf') := ingest buf bytes
    let (ms', buf'') := ingestAll buf' chunks
    (ms ++ ms', buf'')

theorem ingest_of_lt {buf bytes : List UInt8} (h : buf.length < Stamped.wireSize) :
    ingest buf bytes = (stampedRecords (buf ++ bytes), leftover (buf ++ bytes)) := by
  unfold ingest
  split
  · rename_i hb
    rw [List.isEmpty_iff.1 hb, List.append_nil, stampedRecords_of_lt h, leftover_of_lt h]
  · rfl

/-- **Chunks make no difference.** A buffer holding a partial record that receives chunks one
after another hands on the records of the whole stream, and keeps its partial record. -/
theorem ingestAll_eq : ∀ {buf : List UInt8} (chunks : List (List UInt8)),
    buf.length < Stamped.wireSize →
      ingestAll buf chunks = (stampedRecords (buf ++ chunks.flatten), leftover (buf ++ chunks.flatten))
  | buf, [], h => by simp [ingestAll, stampedRecords_of_lt h, leftover_of_lt h]
  | buf, bytes :: chunks, h => by
    have hnext : (leftover (buf ++ bytes)).length < Stamped.wireSize := by
      rw [length_leftover]
      exact Nat.mod_lt _ (by decide)
    rw [ingestAll, ingest_of_lt h]
    dsimp only
    rw [ingestAll_eq chunks hnext, List.flatten_cons, ← List.append_assoc,
      stampedRecords_append (buf ++ bytes), leftover_append (buf ++ bytes)]

/-! ## One drain of the receive loop -/

section Drain

variable {σ : Type} [FeedLink σ]

theorem Consumer.drainFeed_eq (c : Consumer) (net : σ) (feed : FeedKind) (buf : List UInt8) :
    c.drainFeed net feed buf =
      match FeedLink.recv net feed (feedBufferSize - buf.length) with
      | (net', none) => (c, net', buf, some .io)
      | (net', some bytes) =>
        if bytes.isEmpty then (c, net', buf, none)
        else match c.handleFeed feed (ingest buf bytes).1 with
          | .ok c' => (c', net', (ingest buf bytes).2, none)
          | .error f => (c, net', buf ++ bytes, some (.fault f)) := by
  unfold Consumer.drainFeed
  rcases FeedLink.recv net feed (feedBufferSize - buf.length) with ⟨net', _ | bytes⟩
  · rfl
  · dsimp only
    split
    · rfl
    · rename_i hb
      simp only [Consumer.onBytes_eq, ingest, hb, Bool.false_eq_true, if_false]
      cases c.handleFeed feed (stampedRecords (buf ++ bytes)) with
      | ok c' => simp [Except.map, leftover]
      | error f => rfl

end Drain

end Exchange
