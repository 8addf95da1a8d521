import Exchange.Wire.Lemmas

/-!
# Which buffers a record reader accepts

Every reader of a fixed-size record checks a buffer in the same order: that it holds the whole
record, then that its kind byte names a kind, then that the byte after it names a side (`0x00`,
`0x01` or `0xff`, the signed bytes 0, 1 and -1). The first check that fails gives the error; a
buffer that passes all three reads as a record. `tagVerdict` is that order as a function of the
buffer, and `ReadsTagged` says that a reader answers every buffer as it does and reads no byte
after the side byte: neither the reserved bytes nor those past the record.

A request is 32 bytes with its kind at 28, a response and an update 40 bytes with the kind at 32,
and a stamped update 48 bytes, the kind of its update at 40. All four readers have the one shape
`readTagged`, and `readsTagged_readTagged` settles the shape once.

Main statement: `reads_exactly_tagged_buffers`.
-/

namespace Exchange

/-! ## Tags -/

theorem RequestKind.isSome_ofTag? (b : UInt8) : (RequestKind.ofTag? b).isSome ↔ b.toNat ≤ 2 := by
  unfold RequestKind.ofTag?
  split
  case h_4 h₀ h₁ h₂ =>
    simp [← UInt8.toNat_inj] at h₀ h₁ h₂
    simp only [Option.isSome_none, Bool.false_eq_true, false_iff, Nat.not_le]
    omega
  all_goals decide

theorem ResponseKind.isSome_ofTag? (b : UInt8) : (ResponseKind.ofTag? b).isSome ↔ b.toNat ≤ 4 := by
  unfold ResponseKind.ofTag?
  split
  case h_6 h₀ h₁ h₂ h₃ h₄ =>
    simp [← UInt8.toNat_inj] at h₀ h₁ h₂ h₃ h₄
    simp only [Option.isSome_none, Bool.false_eq_true, false_iff, Nat.not_le]
    omega
  all_goals decide

theorem UpdateKind.isSome_ofTag? (b : UInt8) : (UpdateKind.ofTag? b).isSome ↔ b.toNat ≤ 7 := by
  unfold UpdateKind.ofTag?
  split
  case h_9 h₀ h₁ h₂ h₃ h₄ h₅ h₆ h₇ =>
    simp [← UInt8.toNat_inj] at h₀ h₁ h₂ h₃ h₄ h₅ h₆ h₇
    simp only [Option.isSome_none, Bool.false_eq_true, false_iff, Nat.not_le]
    omega
  all_goals decide

theorem Side.isSome_ofTag? (b : UInt8) : (Side.ofTag? b).isSome ↔ b ∈ [0x00, 0x01, 0xff] := by
  unfold Side.ofTag?
  split <;> simp_all

/-! ## Reading within a prefix -/

section Prefix

variable {bs : List UInt8} {n off : Nat}

theorem byteAt_take (h : off < n) : byteAt (bs.take n) off = byteAt bs off := by
  simp only [byteAt, List.drop_take]
  cases hd : bs.drop off with
  | nil => simp
  | cons b rest => simp [List.take_cons (show 0 < n - off by omega)]

theorem u64At_take (h : off + 8 ≤ n) : u64At (bs.take n) off = u64At bs off := by
  simp only [u64At, List.drop_take, List.take_take, Nat.min_eq_left (show 8 ≤ n - off by omega)]

theorem u32At_take (h : off + 4 ≤ n) : u32At (bs.take n) off = u32At bs off := by
  simp only [u32At, List.drop_take, List.take_take, Nat.min_eq_left (show 4 ≤ n - off by omega)]

theorem i64At_take (h : off + 8 ≤ n) : i64At (bs.take n) off = i64At bs off := by
  simp only [i64At, u64At_take h]

theorem u64At_congr {bs' : List UInt8} (h : bs.take n = bs'.take n) (hoff : off + 8 ≤ n) :
    u64At bs off = u64At bs' off := by
  rw [← u64At_take hoff, h, u64At_take hoff]

theorem u32At_congr {bs' : List UInt8} (h : bs.take n = bs'.take n) (hoff : off + 4 ≤ n) :
    u32At bs off = u32At bs' off := by
  rw [← u32At_take hoff, h, u32At_take hoff]

theorem i64At_congr {bs' : List UInt8} (h : bs.take n = bs'.take n) (hoff : off + 8 ≤ n) :
    i64At bs off = i64At bs' off := by
  rw [← i64At_take hoff, h, i64At_take hoff]

theorem byteAt_drop (bs : List UInt8) (k off : Nat) : byteAt (bs.drop k) off = byteAt bs (k + off) := by
  simp [byteAt, List.drop_drop]

end Prefix

/-! ## The order of the checks -/

/-- The answer a reader of `size`-byte records owes a buffer, the kind tag of `field` standing at
`k` and its kinds being the tags `0 … lastKind`: the buffer is short, its kind is unknown, its
side is unknown, or it is a record. -/
def tagVerdict (size k : Nat) (field : TagField) (lastKind : Nat) (bs : List UInt8) :
    Except WireError Unit :=
  if bs.length < size then .error (.short size bs.length)
  else if lastKind < (byteAt bs k).toNat then .error (.unknownTag field (byteAt bs k))
  else if byteAt bs (k + 1) ∉ [0x00, 0x01, 0xff] then .error (.unknownTag .side (byteAt bs (k + 1)))
  else .ok ()

/-- A reader of `size`-byte records with the kind tag of `field` at `k`, kinds `0 … lastKind`:
every buffer is answered as `tagVerdict` says, and two buffers that hold the whole record and
agree up to the side byte read alike. -/
structure ReadsTagged {β : Type} (read : List UInt8 → Except WireError β) (size k : Nat)
    (field : TagField) (lastKind : Nat) : Prop where
  verdict : ∀ bs, (read bs).map (fun _ => ()) = tagVerdict size k field lastKind bs
  upToSide : ∀ bs bs', size ≤ bs.length → size ≤ bs'.length → bs.take (k + 2) = bs'.take (k + 2) →
    read bs = read bs'

/-- The shape of every reader: the length check, the kind tag at `k`, the side tag after it, then
the record built from the two tags and the buffer's words. -/
def readTagged {α β : Type} (size k : Nat) (field : TagField) (ofTag? : UInt8 → Option α)
    (build : List UInt8 → α → Side → β) (bs : List UInt8) : Except WireError β := do
  needBytes bs size
  let kind ← readTag field ofTag? (byteAt bs k)
  let side ← readTag .side Side.ofTag? (byteAt bs (k + 1))
  return build bs kind side

section Shape

variable {α β : Type} {size k lastKind : Nat} {field : TagField} {ofTag? : UInt8 → Option α}
  {build : List UInt8 → α → Side → β}

theorem readTagged_eq (bs : List UInt8) : readTagged size k field ofTag? build bs =
    if bs.length < size then .error (.short size bs.length)
    else match ofTag? (byteAt bs k), Side.ofTag? (byteAt bs (k + 1)) with
      | none, _ => .error (.unknownTag field (byteAt bs k))
      | some _, none => .error (.unknownTag .side (byteAt bs (k + 1)))
      | some kind, some side => .ok (build bs kind side) := by
  by_cases hl : bs.length < size
  · simp [readTagged, needBytes, hl, bind, Except.bind]
  · cases hk : ofTag? (byteAt bs k) <;> cases hs : Side.ofTag? (byteAt bs (k + 1)) <;>
      simp [readTagged, needBytes, readTag, hl, hk, hs, bind, Except.bind, pure, Except.pure]

theorem readsTagged_readTagged (hkind : ∀ b, (ofTag? b).isSome ↔ b.toNat ≤ lastKind)
    (hbuild : ∀ bs bs', bs.take k = bs'.take k → build bs = build bs') :
    ReadsTagged (readTagged size k field ofTag? build) size k field lastKind where
  verdict bs := by
    rw [readTagged_eq, tagVerdict]
    by_cases hl : bs.length < size
    · simp [hl, Except.map]
    rw [if_neg hl, if_neg hl]
    have hkb := hkind (byteAt bs k)
    cases hkt : ofTag? (byteAt bs k) with
    | none =>
      have hbad : lastKind < (byteAt bs k).toNat := by simp_all
      simp [hbad, Except.map]
    | some kind =>
      have hgood : ¬lastKind < (byteAt bs k).toNat := by simp_all
      rw [if_neg hgood]
      have hsb := Side.isSome_ofTag? (byteAt bs (k + 1))
      cases hst : Side.ofTag? (byteAt bs (k + 1)) <;> simp_all [Except.map]
  upToSide bs bs' hl hl' htake := by
    have hkb : byteAt bs k = byteAt bs' k := by
      rw [← byteAt_take (show k < k + 2 by omega), htake, byteAt_take (by omega)]
    have hsb : byteAt bs (k + 1) = byteAt bs' (k + 1) := by
      rw [← byteAt_take (show k + 1 < k + 2 by omega), htake, byteAt_take (by omega)]
    have hwords : build bs = build bs' := hbuild bs bs' (by
      simpa [List.take_take] using congrArg (List.take k) htake)
    rw [readTagged_eq, readTagged_eq, hkb, hsb, hwords, if_neg (by omega), if_neg (by omega)]

end Shape

/-! ## The four readers -/

theorem Request.ofBytes_eq_readTagged : Request.ofBytes = readTagged 32 28 .requestKind
    RequestKind.ofTag? fun bs kind side =>
      { kind, side, orderId := u64At bs 0, price := i64At bs 8, clientId := u32At bs 16,
        tickerId := u32At bs 20, qty := u32At bs 24 } := rfl

theorem Response.ofBytes_eq_readTagged : Response.ofBytes = readTagged 40 32 .responseKind
    ResponseKind.ofTag? fun bs kind side =>
      { kind, side, orderId := u64At bs 0, price := i64At bs 8, clientId := u32At bs 16,
        tickerId := u32At bs 20, execQty := u32At bs 24, leavesQty := u32At bs 28 } := rfl

theorem Update.ofBytes_eq_readTagged : Update.ofBytes = readTagged 40 32 .updateKind
    UpdateKind.ofTag? fun bs kind side =>
      { kind, side, orderId := u64At bs 0, price := i64At bs 8, priority := u64At bs 16,
        tickerId := u32At bs 24, qty := u32At bs 28 } := rfl

theorem Stamped.ofBytes_eq_readTagged : Stamped.ofBytes = readTagged 48 40 .updateKind
    UpdateKind.ofTag? fun bs kind side =>
      { seq := u64At bs 0,
        update := { kind, side, orderId := u64At bs 8, price := i64At bs 16,
                    priority := u64At bs 24, tickerId := u32At bs 32, qty := u32At bs 36 } } := by
  funext bs
  by_cases hl : bs.length < 48
  · simp [Stamped.ofBytes, readTagged, needBytes, Stamped.wireSize, hl, bind, Except.bind]
  have hu : ¬bs.length - 8 < Update.wireSize := by simp [Update.wireSize]; omega
  simp [Stamped.ofBytes, Update.ofBytes, readTagged, needBytes, Stamped.wireSize, hl, hu,
    byteAt_drop, u64At, u32At, i64At, List.drop_drop, bind, Except.bind, pure, Except.pure]
  cases readTag .updateKind UpdateKind.ofTag? (byteAt bs 40) with
  | error e => rfl
  | ok kind => cases readTag .side Side.ofTag? (byteAt bs 41) <;> rfl

/-- **Which buffers the readers accept.** Each of the four readers answers a buffer by checking,
in this order, that it holds the whole record (`32`, `40`, `40` or `48` bytes), that the kind byte
(at `28`, `32`, `32` or `40`) is a tag of its kind, and that the byte after it is a side tag; it
reports the first check that fails with the length or the byte it found, reads every other
buffer as a record, and looks at no byte after the side byte. -/
theorem reads_exactly_tagged_buffers :
    ReadsTagged Request.ofBytes 32 28 .requestKind 2 ∧
    ReadsTagged Response.ofBytes 40 32 .responseKind 4 ∧
    ReadsTagged Update.ofBytes 40 32 .updateKind 7 ∧
    ReadsTagged Stamped.ofBytes 48 40 .updateKind 7 := by
  refine ⟨?_, ?_, ?_, ?_⟩
  · rw [Request.ofBytes_eq_readTagged]
    refine readsTagged_readTagged RequestKind.isSome_ofTag? fun bs bs' h => ?_
    funext kind side
    simp (disch := omega) only [u64At_congr h, i64At_congr h, u32At_congr h]
  · rw [Response.ofBytes_eq_readTagged]
    refine readsTagged_readTagged ResponseKind.isSome_ofTag? fun bs bs' h => ?_
    funext kind side
    simp (disch := omega) only [u64At_congr h, i64At_congr h, u32At_congr h]
  · rw [Update.ofBytes_eq_readTagged]
    refine readsTagged_readTagged UpdateKind.isSome_ofTag? fun bs bs' h => ?_
    funext kind side
    simp (disch := omega) only [u64At_congr h, i64At_congr h, u32At_congr h]
  · rw [Stamped.ofBytes_eq_readTagged]
    refine readsTagged_readTagged UpdateKind.isSome_ofTag? fun bs bs' h => ?_
    funext kind side
    simp (disch := omega) only [u64At_congr h, i64At_congr h, u32At_congr h]

end Exchange
