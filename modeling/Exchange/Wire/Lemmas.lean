import Exchange.Wire.Codec

/-!
# Laws of the wire layout

Little-endian words read back what was written: `leValue_leBytes` reads a written number modulo
the width, and `leBytes_leValue` writes back the bytes that were read. On top of these, each
record type has its two round-trip laws:

* `ofBytes_toBytes`: reading the bytes of a record gives the record back;
* `toBytes_ofBytes`: a buffer that reads as a record holds that record's bytes, except that the
  reserved bytes after the side byte are written as zero whatever the buffer held there, and the
  bytes after the record are not written at all.
-/

namespace Exchange

theorem leValue_leBytes (n x : Nat) : leValue (leBytes n x) = x % Nat.pow 256 n := by
  show leValue (leBytes n x) = x % 256 ^ n
  induction n generalizing x with
  | zero => simp [leBytes, leValue, Nat.mod_one]
  | succ n ih =>
    simp only [leBytes, leValue, ih]
    rw [Nat.pow_succ, Nat.mul_comm (256 ^ n) 256, Nat.mod_mul]
    simp

theorem leValue_lt (bs : List UInt8) : leValue bs < Nat.pow 256 bs.length := by
  show leValue bs < 256 ^ bs.length
  induction bs with
  | nil => simp [leValue]
  | cons b bs ih =>
    simp only [leValue, List.length_cons, Nat.pow_succ]
    have := b.toNat_lt
    omega

theorem leBytes_leValue (bs : List UInt8) : leBytes bs.length (leValue bs) = bs := by
  induction bs with
  | nil => rfl
  | cons b bs ih =>
    have hb := b.toNat_lt
    have hm : (b.toNat + 256 * leValue bs) % 256 = b.toNat := by omega
    have hd : (b.toNat + 256 * leValue bs) / 256 = leValue bs := by omega
    simp only [List.length_cons, leBytes, leValue, hm, hd, ih]
    simp

@[simp] theorem length_u64Bytes (x : UInt64) : (u64Bytes x).length = 8 := by simp [u64Bytes]

@[simp] theorem length_u32Bytes (x : UInt32) : (u32Bytes x).length = 4 := by simp [u32Bytes]

@[simp] theorem length_i64Bytes (x : Int64) : (i64Bytes x).length = 8 := by simp [i64Bytes]

/-! ## Reading at an offset past a prefix -/

theorem drop_append_of_length_le {pre rest : List UInt8} {off : Nat} (h : pre.length ≤ off) :
    (pre ++ rest).drop off = rest.drop (off - pre.length) := by
  simp [List.drop_append, List.drop_eq_nil_of_le h]

theorem u64At_append {pre : List UInt8} {off : Nat} (rest : List UInt8) (h : pre.length ≤ off) :
    u64At (pre ++ rest) off = u64At rest (off - pre.length) := by
  simp [u64At, drop_append_of_length_le h]

theorem u32At_append {pre : List UInt8} {off : Nat} (rest : List UInt8) (h : pre.length ≤ off) :
    u32At (pre ++ rest) off = u32At rest (off - pre.length) := by
  simp [u32At, drop_append_of_length_le h]

theorem i64At_append {pre : List UInt8} {off : Nat} (rest : List UInt8) (h : pre.length ≤ off) :
    i64At (pre ++ rest) off = i64At rest (off - pre.length) := by
  simp [i64At, u64At_append rest h]

theorem byteAt_append {pre : List UInt8} {off : Nat} (rest : List UInt8) (h : pre.length ≤ off) :
    byteAt (pre ++ rest) off = byteAt rest (off - pre.length) := by
  simp [byteAt, drop_append_of_length_le h]

@[simp] theorem byteAt_cons_zero (b : UInt8) (bs : List UInt8) : byteAt (b :: bs) 0 = b := rfl

@[simp] theorem byteAt_cons_succ (b : UInt8) (bs : List UInt8) (n : Nat) :
    byteAt (b :: bs) (n + 1) = byteAt bs n := rfl

/-! ## A written word reads back -/

@[simp] theorem u64At_u64Bytes (x : UInt64) (rest : List UInt8) :
    u64At (u64Bytes x ++ rest) 0 = x := by
  simp [u64At, u64Bytes, leValue_leBytes]

@[simp] theorem u32At_u32Bytes (x : UInt32) (rest : List UInt8) :
    u32At (u32Bytes x ++ rest) 0 = x := by
  simp [u32At, u32Bytes, leValue_leBytes]

@[simp] theorem i64At_i64Bytes (x : Int64) (rest : List UInt8) :
    i64At (i64Bytes x ++ rest) 0 = x := by
  simp [i64At, u64At, i64Bytes, leValue_leBytes]

/-! ## A read word writes back its bytes -/

theorem u64Bytes_u64At {bs : List UInt8} {off : Nat} (h : off + 8 ≤ bs.length) :
    u64Bytes (u64At bs off) = (bs.drop off).take 8 := by
  have hl : ((bs.drop off).take 8).length = 8 := by simp; omega
  have hv := leValue_lt ((bs.drop off).take 8)
  have hw := leBytes_leValue ((bs.drop off).take 8)
  rw [hl] at hv hw
  simp only [u64Bytes, u64At]
  rw [UInt64.toNat_ofNat_of_lt' (by simpa using hv), hw]

theorem u32Bytes_u32At {bs : List UInt8} {off : Nat} (h : off + 4 ≤ bs.length) :
    u32Bytes (u32At bs off) = (bs.drop off).take 4 := by
  have hl : ((bs.drop off).take 4).length = 4 := by simp; omega
  have hv := leValue_lt ((bs.drop off).take 4)
  have hw := leBytes_leValue ((bs.drop off).take 4)
  rw [hl] at hv hw
  simp only [u32Bytes, u32At]
  rw [UInt32.toNat_ofNat_of_lt' (by simpa using hv), hw]

theorem i64Bytes_i64At {bs : List UInt8} {off : Nat} (h : off + 8 ≤ bs.length) :
    i64Bytes (i64At bs off) = (bs.drop off).take 8 := by
  simp only [i64Bytes, i64At]
  rw [UInt64.toUInt64_toInt64]
  exact u64Bytes_u64At h

theorem take_one_drop {bs : List UInt8} {off : Nat} (h : off < bs.length) :
    (bs.drop off).take 1 = [byteAt bs off] := by
  have hne : bs.drop off ≠ [] := by simp; omega
  obtain ⟨x, xs, hx⟩ := List.exists_cons_of_ne_nil hne
  simp [byteAt, hx]

/-! ## Round trips of each record -/

namespace Request

theorem take_thirty (bs : List UInt8) : bs.take 30 = (bs.drop 0).take 8 ++ (bs.drop 8).take 8 ++
    (bs.drop 16).take 4 ++ (bs.drop 20).take 4 ++ (bs.drop 24).take 4 ++ (bs.drop 28).take 1 ++
    (bs.drop 29).take 1 := by
  rw [show (30 : Nat) = 8 + 8 + 4 + 4 + 4 + 1 + 1 from rfl]
  rw [List.take_add, List.take_add, List.take_add, List.take_add, List.take_add, List.take_add]
  simp only [List.append_assoc, List.drop_zero]

theorem ofBytes_toBytes (r : Request) : ofBytes r.toBytes = .ok r := by
  simp only [ofBytes, toBytes, List.append_assoc]
  simp [needBytes, readTag, wireSize, u32At_append, i64At_append, byteAt_append,
    RequestKind.ofTag?_tag, Side.ofTag?_tag, bind, Except.bind, pure, Except.pure]

theorem toBytes_ofBytes {bs : List UInt8} {r : Request} (h : ofBytes bs = .ok r) :
    r.toBytes = bs.take 30 ++ [0, 0] := by
  by_cases hl : bs.length < 32
  · simp [ofBytes, needBytes, wireSize, hl, bind, Except.bind] at h
  cases hk : RequestKind.ofTag? (byteAt bs 28) with
  | none => simp [ofBytes, needBytes, wireSize, hl, readTag, hk, bind, Except.bind] at h
  | some k =>
    cases hs : Side.ofTag? (byteAt bs 29) with
    | none => simp [ofBytes, needBytes, wireSize, hl, readTag, hk, hs, bind, Except.bind] at h
    | some s =>
      simp [ofBytes, needBytes, wireSize, hl, readTag, hk, hs, bind, Except.bind, pure,
        Except.pure] at h
      subst h
      rw [take_thirty]
      simp only [toBytes, RequestKind.tag_of_ofTag? hk, Side.tag_of_ofTag? hs]
      rw [u64Bytes_u64At (by omega), i64Bytes_i64At (by omega), u32Bytes_u32At (by omega),
        u32Bytes_u32At (by omega), u32Bytes_u32At (by omega), take_one_drop (by omega),
        take_one_drop (by omega)]
      simp

end Request

namespace Response

theorem take_thirtyFour (bs : List UInt8) : bs.take 34 = (bs.drop 0).take 8 ++
    (bs.drop 8).take 8 ++ (bs.drop 16).take 4 ++ (bs.drop 20).take 4 ++ (bs.drop 24).take 4 ++
    (bs.drop 28).take 4 ++ (bs.drop 32).take 1 ++ (bs.drop 33).take 1 := by
  rw [show (34 : Nat) = 8 + 8 + 4 + 4 + 4 + 4 + 1 + 1 from rfl]
  rw [List.take_add, List.take_add, List.take_add, List.take_add, List.take_add, List.take_add,
    List.take_add]
  simp only [List.append_assoc, List.drop_zero]

theorem ofBytes_toBytes (r : Response) : ofBytes r.toBytes = .ok r := by
  simp only [ofBytes, toBytes, List.append_assoc]
  simp [needBytes, readTag, wireSize, u32At_append, i64At_append, byteAt_append,
    ResponseKind.ofTag?_tag, Side.ofTag?_tag, bind, Except.bind, pure, Except.pure]

theorem toBytes_ofBytes {bs : List UInt8} {r : Response} (h : ofBytes bs = .ok r) :
    r.toBytes = bs.take 34 ++ [0, 0, 0, 0, 0, 0] := by
  by_cases hl : bs.length < 40
  · simp [ofBytes, needBytes, wireSize, hl, bind, Except.bind] at h
  cases hk : ResponseKind.ofTag? (byteAt bs 32) with
  | none => simp [ofBytes, needBytes, wireSize, hl, readTag, hk, bind, Except.bind] at h
  | some k =>
    cases hs : Side.ofTag? (byteAt bs 33) with
    | none => simp [ofBytes, needBytes, wireSize, hl, readTag, hk, hs, bind, Except.bind] at h
    | some s =>
      simp [ofBytes, needBytes, wireSize, hl, readTag, hk, hs, bind, Except.bind, pure,
        Except.pure] at h
      subst h
      rw [take_thirtyFour]
      simp only [toBytes, ResponseKind.tag_of_ofTag? hk, Side.tag_of_ofTag? hs]
      rw [u64Bytes_u64At (by omega), i64Bytes_i64At (by omega), u32Bytes_u32At (by omega),
        u32Bytes_u32At (by omega), u32Bytes_u32At (by omega), u32Bytes_u32At (by omega),
        take_one_drop (by omega), take_one_drop (by omega)]
      simp

end Response

namespace Update

theorem take_thirtyFour (bs : List UInt8) : bs.take 34 = (bs.drop 0).take 8 ++
    (bs.drop 8).take 8 ++ (bs.drop 16).take 8 ++ (bs.drop 24).take 4 ++ (bs.drop 28).take 4 ++
    (bs.drop 32).take 1 ++ (bs.drop 33).take 1 := by
  rw [show (34 : Nat) = 8 + 8 + 8 + 4 + 4 + 1 + 1 from rfl]
  rw [List.take_add, List.take_add, List.take_add, List.take_add, List.take_add, List.take_add]
  simp only [List.append_assoc, List.drop_zero]

theorem ofBytes_toBytes (u : Update) : ofBytes u.toBytes = .ok u := by
  simp only [ofBytes, toBytes, List.append_assoc]
  simp [needBytes, readTag, wireSize, u64At_append, u32At_append, i64At_append, byteAt_append,
    UpdateKind.ofTag?_tag, Side.ofTag?_tag, bind, Except.bind, pure, Except.pure]

theorem toBytes_ofBytes {bs : List UInt8} {u : Update} (h : ofBytes bs = .ok u) :
    u.toBytes = bs.take 34 ++ [0, 0, 0, 0, 0, 0] := by
  by_cases hl : bs.length < 40
  · simp [ofBytes, needBytes, wireSize, hl, bind, Except.bind] at h
  cases hk : UpdateKind.ofTag? (byteAt bs 32) with
  | none => simp [ofBytes, needBytes, wireSize, hl, readTag, hk, bind, Except.bind] at h
  | some k =>
    cases hs : Side.ofTag? (byteAt bs 33) with
    | none => simp [ofBytes, needBytes, wireSize, hl, readTag, hk, hs, bind, Except.bind] at h
    | some s =>
      simp [ofBytes, needBytes, wireSize, hl, readTag, hk, hs, bind, Except.bind, pure,
        Except.pure] at h
      subst h
      rw [take_thirtyFour]
      simp only [toBytes, UpdateKind.tag_of_ofTag? hk, Side.tag_of_ofTag? hs]
      rw [u64Bytes_u64At (by omega), i64Bytes_i64At (by omega), u64Bytes_u64At (by omega),
        u32Bytes_u32At (by omega), u32Bytes_u32At (by omega), take_one_drop (by omega),
        take_one_drop (by omega)]
      simp

end Update

namespace Stamped

theorem ofBytes_toBytes (m : Stamped) : ofBytes m.toBytes = .ok m := by
  have hu := Update.ofBytes_toBytes m.update
  have hl : (Update.toBytes m.update).length = 40 := by
    simp [Update.toBytes]
  simp [ofBytes, toBytes, needBytes, wireSize, hl, hu, bind, Except.bind, pure, Except.pure]

theorem toBytes_ofBytes {bs : List UInt8} {m : Stamped} (h : ofBytes bs = .ok m) :
    m.toBytes = bs.take 42 ++ [0, 0, 0, 0, 0, 0] := by
  by_cases hl : bs.length < 48
  · simp [ofBytes, needBytes, wireSize, hl, bind, Except.bind] at h
  cases hu : Update.ofBytes (bs.drop 8) with
  | error e => simp [ofBytes, needBytes, wireSize, hl, hu, bind, Except.bind] at h
  | ok u =>
    simp [ofBytes, needBytes, wireSize, hl, hu, bind, Except.bind, pure, Except.pure] at h
    subst h
    rw [show (42 : Nat) = 8 + 34 from rfl, List.take_add, ← List.drop_zero (l := List.take 8 bs)]
    simp only [toBytes, Update.toBytes_ofBytes hu, u64Bytes_u64At (show 0 + 8 ≤ bs.length by omega),
      List.append_assoc]
    simp

end Stamped

end Exchange
