import Quic.Common.Basic

namespace Quic

def QUIC_VARINT_1BYTE_MAX : Nat := 0x3f
def QUIC_VARINT_2BYTE_MAX : Nat := 0x3fff
def QUIC_VARINT_4BYTE_MAX : Nat := 0x3fffffff
def QUIC_VARINT_8BYTE_MAX : Nat := 0x3fffffffffffffff

def QUIC_VARINT_2BYTE_PREFIX : UInt8 := 0x40
def QUIC_VARINT_4BYTE_PREFIX : UInt8 := 0x80
def QUIC_VARINT_8BYTE_PREFIX : UInt8 := 0xc0

-- `put_unaligned_be{16,32,64}`: the low `k` bytes of `n`, most significant first.
def putBe : Nat → Nat → List UInt8
  | 0, _ => []
  | k + 1, n => UInt8.ofNat (n / 256 ^ k) :: putBe k n

-- `get_unaligned_be{16,32,64}` of the bytes given.
def getBe (bytes : List UInt8) : Nat :=
  bytes.foldl (fun acc b => acc * 256 + b.toNat) 0

-- `*p |= prefix` on the first byte written.
def orFirst (pre : UInt8) : List UInt8 → List UInt8
  | [] => []
  | b :: bs => (b ||| pre) :: bs

def quicVarLen (n : Nat) : Nat :=
  if n ≤ QUIC_VARINT_1BYTE_MAX then 1
  else if n ≤ QUIC_VARINT_2BYTE_MAX then 2
  else if n ≤ QUIC_VARINT_4BYTE_MAX then 4
  else 8

-- `quic_put_var`: the bytes written for a u64 `num`.
def quicPutVar (num : Nat) : List UInt8 :=
  if num ≤ QUIC_VARINT_1BYTE_MAX then [UInt8.ofNat num]
  else if num ≤ QUIC_VARINT_2BYTE_MAX then orFirst QUIC_VARINT_2BYTE_PREFIX (putBe 2 num)
  else if num ≤ QUIC_VARINT_4BYTE_MAX then orFirst QUIC_VARINT_4BYTE_PREFIX (putBe 4 num)
  else orFirst QUIC_VARINT_8BYTE_PREFIX (putBe 8 num)

-- `quic_put_varint`: `num` as a variable-length integer of the given length. Only lengths 1, 2
-- and 4 are handled; any other returns NULL with nothing written.
def quicPutVarint (num : Nat) : Nat → List UInt8
  | 1 => [UInt8.ofNat num]
  | 2 => orFirst QUIC_VARINT_2BYTE_PREFIX (putBe 2 num)
  | 4 => orFirst QUIC_VARINT_4BYTE_PREFIX (putBe 4 num)
  | _ => []

-- `p = quic_put_var(p, x)` for each value in turn.
def quicPutVars (xs : List Nat) : List UInt8 :=
  (xs.map quicPutVar).flatten

-- `quic_get_var` on the `*plen` bytes left at `*pp`: the value read and the bytes after it,
-- or `none` where the C returns 0.
def quicGetVar (buf : List UInt8) : Option (Nat × List UInt8) :=
  match buf with
  | [] => none
  | b :: _ =>
    let len := 1 <<< (b.toNat >>> 6)
    if buf.length < len then none
    else
      match len with
      | 1 => some (b.toNat, buf.drop 1)
      | 2 => some (getBe (buf.take 2) &&& QUIC_VARINT_2BYTE_MAX, buf.drop 2)
      | 4 => some (getBe (buf.take 4) &&& QUIC_VARINT_4BYTE_MAX, buf.drop 4)
      | 8 => some (getBe (buf.take 8) &&& QUIC_VARINT_8BYTE_MAX, buf.drop 8)
      | _ => none

theorem putBe_length (k n : Nat) : (putBe k n).length = k := by
  induction k with
  | zero => rfl
  | succ k ih => simp [putBe, ih]

theorem foldl_getBe (a : Nat) (bytes : List UInt8) :
    bytes.foldl (fun acc b => acc * 256 + b.toNat) a = a * 256 ^ bytes.length + getBe bytes := by
  induction bytes generalizing a with
  | nil => simp [getBe]
  | cons b bs ih =>
    simp only [getBe, List.foldl_cons, List.length_cons] at ih ⊢
    rw [ih, ih (0 * 256 + b.toNat), Nat.pow_succ']
    simp only [Nat.zero_mul, Nat.zero_add, Nat.add_mul, Nat.mul_assoc, Nat.add_assoc]

theorem getBe_cons (b : UInt8) (bs : List UInt8) :
    getBe (b :: bs) = b.toNat * 256 ^ bs.length + getBe bs := by
  have h := foldl_getBe b.toNat bs
  simp only [getBe, List.foldl_cons, Nat.zero_mul, Nat.zero_add] at h ⊢
  exact h

theorem getBe_putBe (k n : Nat) : getBe (putBe k n) = n % 256 ^ k := by
  induction k with
  | zero => simp [putBe, getBe, Nat.mod_one]
  | succ k ih =>
    rw [putBe, getBe_cons, ih, putBe_length, Nat.mod_pow_succ (b := 256), UInt8.toNat_ofNat']
    simp only [Nat.reducePow]
    rw [Nat.mul_comm, Nat.add_comm]

theorem getBe_lt (bytes : List UInt8) : getBe bytes < 256 ^ bytes.length := by
  induction bytes with
  | nil => simp [getBe]
  | cons b bs ih =>
    rw [getBe_cons, List.length_cons, Nat.pow_succ]
    have hb : b.toNat + 1 ≤ 256 := b.toNat_lt
    calc b.toNat * 256 ^ bs.length + getBe bs < b.toNat * 256 ^ bs.length + 256 ^ bs.length := by
          omega
      _ = (b.toNat + 1) * 256 ^ bs.length := by ring
      _ ≤ 256 * 256 ^ bs.length := Nat.mul_le_mul_right _ hb
      _ = 256 ^ bs.length * 256 := Nat.mul_comm _ _

theorem uint8_ofNat_add_mul (a c : Nat) : UInt8.ofNat (a + c * 256) = UInt8.ofNat a := by
  apply UInt8.toNat_inj.mp
  simp

-- `putBe k` keeps only the value modulo `256 ^ k`.
theorem putBe_add_mul (k n c : Nat) : putBe k (n + c * 256 ^ k) = putBe k n := by
  induction k generalizing c with
  | zero => rfl
  | succ k ih =>
    have hmul : c * 256 ^ (k + 1) = c * 256 * 256 ^ k := by rw [Nat.pow_succ]; ring
    have hdiv : (n + c * 256 ^ (k + 1)) / 256 ^ k = n / 256 ^ k + c * 256 := by
      rw [hmul, Nat.add_mul_div_right _ _ (by positivity)]
    rw [putBe, putBe, hdiv, uint8_ofNat_add_mul, hmul, ih]

-- Reading bytes big-endian and writing the value back gives the same bytes.
theorem putBe_getBe (bytes : List UInt8) : putBe bytes.length (getBe bytes) = bytes := by
  induction bytes with
  | nil => rfl
  | cons b bs ih =>
    have hlt := getBe_lt bs
    have hdiv : (getBe bs + b.toNat * 256 ^ bs.length) / 256 ^ bs.length = b.toNat := by
      rw [Nat.add_mul_div_right _ _ (by positivity), Nat.div_eq_of_lt hlt, Nat.zero_add]
    rw [getBe_cons, List.length_cons, putBe, Nat.add_comm, hdiv, UInt8.ofNat_toNat,
      putBe_add_mul, ih]

-- The prefix bits sit above a first byte that has its top two bits clear.
theorem toNat_or_prefix {x j : Nat} (hx : x < 64) (hj : j < 4) :
    (UInt8.ofNat x ||| UInt8.ofNat (64 * j)).toNat = x + 64 * j := by
  rw [UInt8.toNat_or, UInt8.toNat_ofNat', UInt8.toNat_ofNat', Nat.mod_eq_of_lt (by omega),
    Nat.mod_eq_of_lt (by omega), Nat.or_comm, ← Nat.two_pow_add_eq_or_of_lt (i := 6) hx]
  omega

-- The top two bits of an 8-byte first byte are forced to 11, whatever the value held there.
theorem toNat_or_prefix_high (x : Nat) :
    (UInt8.ofNat x ||| QUIC_VARINT_8BYTE_PREFIX).toNat = 192 + x % 256 % 64 := by
  have hx : x % 256 < 256 := Nat.mod_lt _ (by decide)
  have hall : ∀ y < 256, y ||| 192 = 192 + y % 64 := by decide +kernel
  rw [UInt8.toNat_or, UInt8.toNat_ofNat']
  exact hall _ hx

theorem quicPutVar_length (n : Nat) : (quicPutVar n).length = quicVarLen n := by
  unfold quicPutVar quicVarLen
  split_ifs <;> simp [orFirst, putBe]

-- Reading back a value written in `k + 1` bytes with prefix `64 * j` below the 8-byte range.
theorem getBe_orFirst_putBe {k j n : Nat} (hn : n < 64 * 256 ^ k) (hj : j < 4) :
    orFirst (UInt8.ofNat (64 * j)) (putBe (k + 1) n) =
      UInt8.ofNat (n / 256 ^ k + 64 * j) :: putBe k n ∧
      (UInt8.ofNat (n / 256 ^ k + 64 * j)).toNat = n / 256 ^ k + 64 * j ∧
      getBe (orFirst (UInt8.ofNat (64 * j)) (putBe (k + 1) n)) = n + 64 * j * 256 ^ k := by
  have hpos : 0 < 256 ^ k := Nat.pow_pos (by decide)
  have hdiv : n / 256 ^ k < 64 := by
    rw [Nat.div_lt_iff_lt_mul hpos]
    exact hn
  have hbyte := toNat_or_prefix hdiv hj
  have hfirst : UInt8.ofNat (n / 256 ^ k) ||| UInt8.ofNat (64 * j) =
      UInt8.ofNat (n / 256 ^ k + 64 * j) := by
    apply UInt8.toNat_inj.mp
    rw [hbyte, UInt8.toNat_ofNat', Nat.mod_eq_of_lt (by omega)]
  have hval : (UInt8.ofNat (n / 256 ^ k + 64 * j)).toNat = n / 256 ^ k + 64 * j := by
    rw [← hfirst, hbyte]
  refine ⟨by rw [putBe, orFirst, hfirst], hval, ?_⟩
  rw [putBe, orFirst, hfirst, getBe_cons, hval, getBe_putBe, putBe_length, Nat.add_mul]
  have := Nat.div_add_mod' n (256 ^ k)
  omega

-- The first byte of an encoding says how many bytes follow it.
theorem quicGetVar_cons (b : UInt8) (bs : List UInt8) (len : Nat) (hlen : b.toNat / 64 = len)
    (hbs : 2 ^ len ≤ bs.length + 1) :
    quicGetVar (b :: bs) =
      match 2 ^ len with
      | 1 => some (b.toNat, bs)
      | 2 => some (getBe ((b :: bs).take 2) &&& QUIC_VARINT_2BYTE_MAX, bs.drop 1)
      | 4 => some (getBe ((b :: bs).take 4) &&& QUIC_VARINT_4BYTE_MAX, bs.drop 3)
      | 8 => some (getBe ((b :: bs).take 8) &&& QUIC_VARINT_8BYTE_MAX, bs.drop 7)
      | _ => none := by
  have hshift : 1 <<< (b.toNat >>> 6) = 2 ^ len := by
    rw [Nat.shiftRight_eq_div_pow, Nat.shiftLeft_eq, Nat.one_mul, hlen]
  simp only [quicGetVar, hshift, List.length_cons, if_neg (Nat.not_lt.mpr hbs)]
  rfl

-- A four-byte encoding reads back every value below 2^30, also one that a shorter encoding
-- would hold.
theorem quicGetVar_orFirst_putBe_four {n : Nat} (hn : n < 2 ^ 30) (rest : List UInt8) :
    quicGetVar (orFirst QUIC_VARINT_4BYTE_PREFIX (putBe 4 n) ++ rest) = some (n, rest) := by
  obtain ⟨hlist, hval, hget⟩ := getBe_orFirst_putBe (k := 3) (j := 2) (n := n) (by omega) (by decide)
  have hpre : QUIC_VARINT_4BYTE_PREFIX = UInt8.ofNat (64 * 2) := rfl
  rw [hpre, hlist, List.cons_append, quicGetVar_cons _ _ 2 (by omega) (by simp [putBe_length])]
  rw [hlist] at hget
  have hmask : QUIC_VARINT_4BYTE_MAX = 2 ^ 30 - 1 := rfl
  simp only [Nat.reducePow] at hget ⊢
  rw [hmask, Nat.and_two_pow_sub_one_eq_mod]
  simp only [putBe, List.cons_append, List.nil_append, List.take_succ_cons, List.take_zero,
    List.drop_succ_cons, List.drop_zero] at hget ⊢
  rw [hget]
  simp only [Option.some.injEq, Prod.mk.injEq, and_true]
  omega

-- A one-byte encoding reads back every value below 2^6.
theorem quicGetVar_ofNat_one {n : Nat} (hn : n < 2 ^ 6) (rest : List UInt8) :
    quicGetVar ([UInt8.ofNat n] ++ rest) = some (n, rest) := by
  have hb : (UInt8.ofNat n).toNat = n := by
    rw [UInt8.toNat_ofNat']
    omega
  rw [List.singleton_append, quicGetVar_cons _ _ 0 (by omega) (by simp)]
  simp only [hb, Nat.pow_zero]

-- A two-byte encoding reads back every value below 2^14, also one that one byte would hold.
theorem quicGetVar_orFirst_putBe_two {n : Nat} (hn : n < 2 ^ 14) (rest : List UInt8) :
    quicGetVar (orFirst QUIC_VARINT_2BYTE_PREFIX (putBe 2 n) ++ rest) = some (n, rest) := by
  obtain ⟨hlist, hval, hget⟩ := getBe_orFirst_putBe (k := 1) (j := 1) (n := n) (by omega) (by decide)
  have hpre : QUIC_VARINT_2BYTE_PREFIX = UInt8.ofNat (64 * 1) := rfl
  rw [hpre, hlist, List.cons_append, quicGetVar_cons _ _ 1 (by omega) (by simp [putBe_length])]
  rw [hlist] at hget
  have hmask : QUIC_VARINT_2BYTE_MAX = 2 ^ 14 - 1 := rfl
  simp only [Nat.pow_one] at hget ⊢
  rw [hmask, Nat.and_two_pow_sub_one_eq_mod]
  simp only [putBe, List.cons_append, List.nil_append, List.take_succ_cons, List.take_zero,
    List.drop_succ_cons, List.drop_zero] at hget ⊢
  rw [hget]
  simp only [Option.some.injEq, Prod.mk.injEq, and_true]
  omega

theorem quicGetVar_quicPutVar (n : Nat) (rest : List UInt8) :
    quicGetVar (quicPutVar n ++ rest) = some (n % 2 ^ 62, rest) := by
  unfold quicPutVar
  unfold QUIC_VARINT_1BYTE_MAX QUIC_VARINT_2BYTE_MAX QUIC_VARINT_4BYTE_MAX
  split_ifs with h1 h2 h4
  · rw [quicGetVar_ofNat_one (by omega) rest, Nat.mod_eq_of_lt (by omega)]
  · rw [quicGetVar_orFirst_putBe_two (by omega) rest, Nat.mod_eq_of_lt (by omega)]
  · rw [quicGetVar_orFirst_putBe_four (by omega) rest, Nat.mod_eq_of_lt (by omega)]
  · -- eight bytes hold the low 62 bits; the top two are the length prefix
    have hb := toNat_or_prefix_high (n / 256 ^ 7)
    rw [putBe, orFirst, List.cons_append, quicGetVar_cons _ _ 3 (by omega) (by simp [putBe_length])]
    have hmask : QUIC_VARINT_8BYTE_MAX = 2 ^ 62 - 1 := rfl
    simp only [Nat.reducePow] at hb ⊢
    rw [hmask, Nat.and_two_pow_sub_one_eq_mod, List.take_succ_cons, getBe_cons, hb]
    rw [List.take_left' (putBe_length 7 n), List.drop_left' (putBe_length 7 n), putBe_length,
      getBe_putBe]
    simp only [Option.some.injEq, Prod.mk.injEq, and_true, Nat.reducePow]
    omega

-- `quic_get_var` as one rule: the top two bits of the first byte give the length `2 ^ j`; a
-- buffer shorter than that is refused, otherwise the value is those bytes with the prefix
-- masked off and the buffer advances past them.
theorem quicGetVar_cons_eq (b : UInt8) (bs : List UInt8) :
    quicGetVar (b :: bs) =
      if bs.length + 1 < 2 ^ (b.toNat / 64) then none
      else some (getBe ((b :: bs).take (2 ^ (b.toNat / 64))) % 2 ^ (8 * 2 ^ (b.toNat / 64) - 2),
        (b :: bs).drop (2 ^ (b.toNat / 64))) := by
  split_ifs with hshort
  · have hshift : 1 <<< (b.toNat >>> 6) = 2 ^ (b.toNat / 64) := by
      rw [Nat.shiftRight_eq_div_pow, Nat.shiftLeft_eq, Nat.one_mul]
    simp only [quicGetVar, hshift, List.length_cons, if_pos hshort]
  have hm2 (x : Nat) : x &&& QUIC_VARINT_2BYTE_MAX = x % 2 ^ 14 := Nat.and_two_pow_sub_one_eq_mod x 14
  have hm4 (x : Nat) : x &&& QUIC_VARINT_4BYTE_MAX = x % 2 ^ 30 := Nat.and_two_pow_sub_one_eq_mod x 30
  have hm8 (x : Nat) : x &&& QUIC_VARINT_8BYTE_MAX = x % 2 ^ 62 := Nat.and_two_pow_sub_one_eq_mod x 62
  rw [quicGetVar_cons b bs _ rfl (by omega)]
  simp only [hm2, hm4, hm8]
  have hb := b.toNat_lt
  generalize hj : b.toNat / 64 = j at hshort
  have hj4 : j < 4 := by omega
  interval_cases j
  · -- a one-byte value is the byte itself, whose top bits are clear
    have hone : getBe [b] = b.toNat := by
      rw [getBe_cons]
      simp [getBe]
    simp only [Nat.pow_zero, List.take_succ_cons, List.take_zero, hone, List.drop_succ_cons,
      List.drop_zero]
    rw [Nat.mod_eq_of_lt (by omega)]
  all_goals rfl

theorem quicGetVar_short {b : UInt8} {bs : List UInt8} (h : bs.length + 1 < 2 ^ (b.toNat / 64)) :
    quicGetVar (b :: bs) = none := by
  rw [quicGetVar_cons_eq, if_pos h]

-- The length a first byte announces is one of the four widths.
theorem two_pow_prefix_mem (b : UInt8) : 2 ^ (b.toNat / 64) ∈ [1, 2, 4, 8] := by
  have hb := b.toNat_lt
  have hj : b.toNat / 64 < 4 := by omega
  generalize b.toNat / 64 = j at hj
  interval_cases j <;> simp

-- What `quic_get_var` returns is read from the bytes it consumes: it advances past the `k`
-- bytes the first byte announces, and those bytes followed by anything give the same value.
theorem quicGetVar_some {buf rest : List UInt8} {v : Nat} (h : quicGetVar buf = some (v, rest)) :
    ∃ k ∈ [1, 2, 4, 8], k ≤ buf.length ∧ rest = buf.drop k ∧
      ∀ extra, quicGetVar (buf.take k ++ extra) = some (v, extra) := by
  cases buf with
  | nil => cases h
  | cons b bs =>
    rw [quicGetVar_cons_eq] at h
    split_ifs at h with hshort
    simp only [Option.some.injEq, Prod.mk.injEq] at h
    obtain ⟨hv, hrest⟩ := h
    refine ⟨2 ^ (b.toNat / 64), two_pow_prefix_mem b, by simp only [List.length_cons]; omega,
      hrest.symm, fun extra => ?_⟩
    obtain ⟨m, hm⟩ : ∃ m, 2 ^ (b.toNat / 64) = m + 1 :=
      Nat.exists_eq_succ_of_ne_zero (Nat.two_pow_pos _).ne'
    have hm_le : m ≤ bs.length := by omega
    rw [← hv, hm, List.take_succ_cons, List.cons_append, quicGetVar_cons_eq, hm,
      if_neg (by simp only [List.length_append, List.length_take]; omega), List.take_succ_cons,
      List.take_left' (by simp only [List.length_take]; omega), List.drop_succ_cons,
      List.drop_left' (by simp only [List.length_take]; omega)]

-- A value `quic_get_var` reads fits the 62 bits a varint holds.
theorem quicGetVar_lt {buf rest : List UInt8} {v : Nat} (h : quicGetVar buf = some (v, rest)) :
    v < 2 ^ 62 := by
  cases buf with
  | nil => cases h
  | cons b bs =>
    rw [quicGetVar_cons_eq] at h
    split_ifs at h
    simp only [Option.some.injEq, Prod.mk.injEq] at h
    rw [← h.1]
    have hk : 2 ^ (b.toNat / 64) ≤ 8 := by
      have := two_pow_prefix_mem b
      simp only [List.mem_cons, List.not_mem_nil, or_false] at this
      omega
    calc _ < 2 ^ (8 * 2 ^ (b.toNat / 64) - 2) := Nat.mod_lt _ (by positivity)
      _ ≤ 2 ^ 62 := Nat.pow_le_pow_right (by norm_num) (by omega)

-- `quic_var_len` is the shortest of the four widths whose `8 * k - 2` value bits hold `v`.
theorem quicVarLen_le_of_lt {v k : Nat} (hk : k ∈ [1, 2, 4, 8]) (hv : v < 2 ^ (8 * k - 2)) :
    quicVarLen v ≤ k := by
  unfold quicVarLen QUIC_VARINT_1BYTE_MAX QUIC_VARINT_2BYTE_MAX QUIC_VARINT_4BYTE_MAX
  simp only [List.mem_cons, List.not_mem_nil, or_false] at hk
  rcases hk with rfl | rfl | rfl | rfl <;> simp only [Nat.reduceMul, Nat.reduceSub,
    Nat.reducePow] at hv <;> split_ifs <;> omega

theorem quicVarLen_le_eight (n : Nat) : quicVarLen n ≤ 8 := by
  unfold quicVarLen
  split_ifs <;> omega

theorem quicVarLen_mono {a b : Nat} (h : a ≤ b) : quicVarLen a ≤ quicVarLen b := by
  unfold quicVarLen
  split_ifs <;> omega

theorem lt_of_quicVarLen_le {v n : Nat} (hn : n ∈ [1, 2, 4]) (hv : quicVarLen v ≤ n) :
    v < 2 ^ (8 * n - 2) := by
  unfold quicVarLen QUIC_VARINT_1BYTE_MAX QUIC_VARINT_2BYTE_MAX QUIC_VARINT_4BYTE_MAX at hv
  simp only [List.mem_cons, List.not_mem_nil, or_false] at hn
  rcases hn with rfl | rfl | rfl <;> split_ifs at hv <;> omega

theorem quicPutVarint_length (v : Nat) {n : Nat} (hn : n ∈ [1, 2, 4]) :
    (quicPutVarint v n).length = n := by
  simp only [List.mem_cons, List.not_mem_nil, or_false] at hn
  rcases hn with rfl | rfl | rfl <;> simp [quicPutVarint, orFirst, putBe]

-- A value written by `quic_put_varint` in any width that holds it reads back.
theorem quicGetVar_quicPutVarint {v n : Nat} (hn : n ∈ [1, 2, 4]) (hv : quicVarLen v ≤ n)
    (rest : List UInt8) :
    quicGetVar (quicPutVarint v n ++ rest) = some (v, rest) := by
  have hlt := lt_of_quicVarLen_le hn hv
  simp only [List.mem_cons, List.not_mem_nil, or_false] at hn
  rcases hn with rfl | rfl | rfl
  · exact quicGetVar_ofNat_one hlt rest
  · exact quicGetVar_orFirst_putBe_two hlt rest
  · exact quicGetVar_orFirst_putBe_four hlt rest

theorem quicGetVar_quicPutVar_of_le {n : Nat} (hn : n ≤ QUIC_VARINT_8BYTE_MAX) (rest : List UInt8) :
    quicGetVar (quicPutVar n ++ rest) = some (n, rest) := by
  rw [quicGetVar_quicPutVar, Nat.mod_eq_of_lt (by unfold QUIC_VARINT_8BYTE_MAX at hn; omega)]

@[simp] theorem quicPutVars_nil : quicPutVars [] = [] := rfl

@[simp] theorem quicPutVars_cons (x : Nat) (xs : List Nat) :
    quicPutVars (x :: xs) = quicPutVar x ++ quicPutVars xs := rfl

@[simp] theorem quicPutVars_append (xs ys : List Nat) :
    quicPutVars (xs ++ ys) = quicPutVars xs ++ quicPutVars ys := by
  simp [quicPutVars]

-- Reading the first of a sequence of values leaves the encodings of the others.
theorem quicGetVar_quicPutVars (x : Nat) (xs : List Nat) (rest : List UInt8) :
    quicGetVar (quicPutVars (x :: xs) ++ rest) = some (x % 2 ^ 62, quicPutVars xs ++ rest) := by
  rw [quicPutVars_cons, List.append_assoc, quicGetVar_quicPutVar]

theorem quicPutVars_length (xs : List Nat) :
    (quicPutVars xs).length = (xs.map quicVarLen).sum := by
  induction xs with
  | nil => rfl
  | cons x xs ih => simp [quicPutVar_length, ih]

-- The codec of every frame and header field: `quic_put_var` writes the shortest width and
-- `quic_get_var` reads it back past exactly those bytes; `quic_put_varint` does the same in any
-- width of 1, 2 or 4 that holds the value, and writes nothing for 8; `quic_get_var` reads only
-- the bytes it consumes and refuses a buffer shorter than the length its first byte announces.
theorem quicVarint_codec_exact :
    (∀ v, v < 2 ^ 62 →
      (quicPutVar v).length = quicVarLen v ∧
      (∀ k ∈ [1, 2, 4, 8], v < 2 ^ (8 * k - 2) → quicVarLen v ≤ k) ∧
      ∀ rest, quicGetVar (quicPutVar v ++ rest) = some (v, rest)) ∧
    (∀ v n, n ∈ [1, 2, 4] → quicVarLen v ≤ n →
      (quicPutVarint v n).length = n ∧
      ∀ rest, quicGetVar (quicPutVarint v n ++ rest) = some (v, rest)) ∧
    (∀ v, quicPutVarint v 8 = []) ∧
    (∀ buf v rest, quicGetVar buf = some (v, rest) →
      ∃ k ∈ [1, 2, 4, 8], k ≤ buf.length ∧ rest = buf.drop k ∧
        ∀ extra, quicGetVar (buf.take k ++ extra) = some (v, extra)) ∧
    quicGetVar [] = none ∧
    (∀ b bs, bs.length + 1 < 2 ^ (b.toNat / 64) → quicGetVar (b :: bs) = none) := by
  refine ⟨fun v hv => ⟨quicPutVar_length v, fun k hk => quicVarLen_le_of_lt hk, fun rest => ?_⟩,
    fun v n hn hlen => ⟨quicPutVarint_length v hn, quicGetVar_quicPutVarint hn hlen⟩,
    fun _ => rfl, fun _ _ _ h => quicGetVar_some h, rfl, fun _ _ h => quicGetVar_short h⟩
  exact quicGetVar_quicPutVar_of_le (by unfold QUIC_VARINT_8BYTE_MAX; omega) rest

-- A width of 8 bytes, which `quic_var_len` can ask for, is not one `quic_put_varint` handles:
-- it returns NULL with nothing written, so nothing reads back.
theorem quicPutVarint_eight_writes_nothing :
    quicVarLen (2 ^ 40) = 8 ∧ (quicPutVarint (2 ^ 40) 8).length = 0 ∧
      quicGetVar (quicPutVarint (2 ^ 40) 8 ++ []) = none := by
  refine ⟨by decide, rfl, rfl⟩

end Quic
