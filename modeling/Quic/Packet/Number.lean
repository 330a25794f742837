import Quic.Packet.LongHeader

namespace Quic.Packet

def QUIC_PN_BITS : Nat := 62

-- `quic_get_num` on its s64 values, `n` the length in bytes of the truncated number. The
-- comparisons are those of the C: signed between s64 values, unsigned against
-- `BIT_ULL(QUIC_PN_BITS) - win`.
def quicGetNum (maxPktNum pktNum : BitVec 64) (n : Nat) : BitVec 64 :=
  let expected := maxPktNum + 1
  let win := (1 : BitVec 64) <<< (n * 8)
  let hwin := win.sdiv 2
  let mask := win - 1
  let cand := (expected &&& ~~~mask) ||| pktNum
  if cand.sle (expected - hwin) ∧ cand.ult ((1 : BitVec 64) <<< QUIC_PN_BITS - win) then cand + win
  else if (expected + hwin).slt cand ∧ win.sle cand then cand - win
  else cand

-- `quic_crypto_get_number`: the `number_len` bytes at the packet number offset, widened
-- against the largest number received so far (`cb->number` on entry).
def quicCryptoGetNumber (numberMax : BitVec 64) (p : List UInt8) (numberLen : Nat) :
    Except Int (BitVec 64) :=
  match quicGetInt p numberLen with
  | none => .error (-EINVAL)
  | some (number, _) => .ok (quicGetNum numberMax (BitVec.ofNat 64 number) numberLen)

/- rfc9000#section-a.3 over the integers. -/

-- DecodePacketNumber for a window of `win` values: the candidate keeps the window of
-- `expected` with the truncated value as its low part, and moves one window toward `expected`
-- when it lies more than half a window away and the move stays below 2^62.
def decodePacketNumber (expected truncated win : Int) : Int :=
  let hwin := win / 2
  let cand := expected / win * win + truncated
  if cand ≤ expected - hwin ∧ cand < 2 ^ 62 - win then cand + win
  else if expected + hwin < cand ∧ win ≤ cand then cand - win
  else cand

-- Every number within half a window of `expected` is recovered from its low part.
theorem decodePacketNumber_emod {expected pn h : Int} (hh : 0 < h) (hpn : 0 ≤ pn)
    (hpn' : pn < 2 ^ 62) (hlo : expected - h < pn) (hhi : pn ≤ expected + h) :
    decodePacketNumber expected (pn % (2 * h)) (2 * h) = pn := by
  have hE := Int.mul_ediv_add_emod expected (2 * h)
  have hP := Int.mul_ediv_add_emod pn (2 * h)
  have hrE := Int.emod_nonneg expected (by omega : 2 * h ≠ 0)
  have hrE' := Int.emod_lt_of_pos expected (by omega : 0 < 2 * h)
  have hrP := Int.emod_nonneg pn (by omega : 2 * h ≠ 0)
  have hrP' := Int.emod_lt_of_pos pn (by omega : 0 < 2 * h)
  have hhalf : 2 * h / 2 = h := by omega
  -- the candidate and the number differ by a whole number `t` of windows
  have hdiff : pn - (expected / (2 * h) * (2 * h) + pn % (2 * h)) =
      2 * h * (pn / (2 * h) - expected / (2 * h)) := by
    linarith
  generalize pn / (2 * h) - expected / (2 * h) = t at hdiff
  -- both lie within a window and a half of `expected`, so `t` is -1, 0 or 1
  have ht1 : t ≤ 1 := by nlinarith
  have ht2 : -1 ≤ t := by nlinarith
  unfold decodePacketNumber
  simp only [hhalf]
  obtain ht | ht | ht : t = -1 ∨ t = 0 ∨ t = 1 := by omega
  all_goals
    rw [ht] at hdiff
    split_ifs <;> omega

/- The s64 arithmetic of `quic_get_num`. -/

theorem toInt_of_lt {x : BitVec 64} (h : x.toNat < 2 ^ 63) : x.toInt = x.toNat := by
  rw [BitVec.toInt_eq_toNat_cond, if_pos (by omega)]

theorem toInt_add_of_small {x y : BitVec 64} (h1 : -2 ^ 63 ≤ x.toInt + y.toInt)
    (h2 : x.toInt + y.toInt < 2 ^ 63) : (x + y).toInt = x.toInt + y.toInt := by
  rw [BitVec.toInt_add, Int.bmod_eq_of_le] <;> push_cast <;> omega

theorem toInt_sub_of_small {x y : BitVec 64} (h1 : -2 ^ 63 ≤ x.toInt - y.toInt)
    (h2 : x.toInt - y.toInt < 2 ^ 63) : (x - y).toInt = x.toInt - y.toInt := by
  rw [BitVec.toInt_sub, Int.bmod_eq_of_le] <;> push_cast <;> omega

-- `(expected & ~mask) | pkt_num` is the window of `expected` plus the truncated number.
theorem cand_toNat {e p k : Nat} (he : e < 2 ^ 64) (hp : p < 2 ^ k) (hk : k < 64) :
    ((BitVec.ofNat 64 e &&& BitVec.allOnes 64 <<< k) ||| BitVec.ofNat 64 p).toNat =
      e / 2 ^ k * 2 ^ k + p := by
  have hk64 : 2 ^ k < 2 ^ 64 := Nat.pow_lt_pow_right (by decide) hk
  have hdiv : e / 2 ^ k * 2 ^ k ≤ e := Nat.div_mul_le_self e _
  have hor : e / 2 ^ k * 2 ^ k ||| p = e / 2 ^ k * 2 ^ k + p := by
    rw [← Nat.shiftLeft_eq, Nat.shiftLeft_add_eq_or_of_lt hp]
  rw [← BitVec.shiftLeft_ushiftRight, BitVec.toNat_or, BitVec.toNat_shiftLeft,
    BitVec.toNat_ushiftRight, BitVec.toNat_ofNat, BitVec.toNat_ofNat, Nat.mod_eq_of_lt he,
    Nat.shiftLeft_eq, Nat.shiftRight_eq_div_pow,
    Nat.mod_eq_of_lt (show e / 2 ^ k * 2 ^ k < 2 ^ 64 by omega),
    Nat.mod_eq_of_lt (show p < 2 ^ 64 by omega), hor]

-- The s64 window constants of `quic_get_num` for a truncated length of one to four bytes.
structure WindowFacts (n : Nat) : Prop where
  win : ((1 : BitVec 64) <<< (n * 8)).toNat = 2 ^ (8 * n)
  hwin : (((1 : BitVec 64) <<< (n * 8)).sdiv 2).toInt = 2 ^ (8 * n) / 2
  mask : ~~~(((1 : BitVec 64) <<< (n * 8)) - 1) = BitVec.allOnes 64 <<< (n * 8)
  limit : ((1 : BitVec 64) <<< QUIC_PN_BITS - (1 : BitVec 64) <<< (n * 8)).toNat =
    2 ^ 62 - 2 ^ (8 * n)
  small : n * 8 ≤ 32

theorem windowFacts {n : Nat} (hn : n ∈ [1, 2, 3, 4]) : WindowFacts n := by
  simp only [List.mem_cons, List.not_mem_nil, or_false] at hn
  rcases hn with rfl | rfl | rfl | rfl <;>
    exact ⟨by decide, by decide, by decide, by decide, by decide⟩

-- On the values a receiver meets (largest received number from -1 below 2^62, truncated
-- number inside its window) the s64 code computes DecodePacketNumber exactly.
theorem quicGetNum_toInt {L : Int} {p n : Nat} (hn : n ∈ [1, 2, 3, 4]) (hL : -1 ≤ L)
    (hL' : L < 2 ^ 62) (hp : p < 2 ^ (8 * n)) :
    (quicGetNum (BitVec.ofInt 64 L) (BitVec.ofNat 64 p) n).toInt =
      decodePacketNumber (L + 1) p (2 ^ (8 * n)) := by
  have hw := windowFacts hn
  obtain ⟨e, he⟩ : ∃ e : Nat, L + 1 = e := ⟨(L + 1).toNat, by omega⟩
  have hexp : BitVec.ofInt 64 L + 1 = BitVec.ofNat 64 e := by
    apply BitVec.eq_of_toNat_eq
    simp [BitVec.toNat_add, BitVec.toNat_ofInt]
    omega
  have hW : 2 ^ (8 * n) ≤ 2 ^ 32 := Nat.pow_le_pow_right (by decide) (by have := hw.small; omega)
  have hWpos : 0 < 2 ^ (8 * n) := Nat.two_pow_pos _
  have hk : n * 8 = 8 * n := Nat.mul_comm n 8
  have hsmall := hw.small
  have hcle : e / 2 ^ (8 * n) * 2 ^ (8 * n) ≤ e := Nat.div_mul_le_self e _
  have hc : ((BitVec.ofNat 64 e &&& BitVec.allOnes 64 <<< (n * 8)) ||| BitVec.ofNat 64 p).toNat =
      e / 2 ^ (8 * n) * 2 ^ (8 * n) + p := by
    rw [cand_toNat (by omega) (by rw [hk]; exact hp) (by omega), hk]
  have hH := hw.hwin
  have hlim := hw.limit
  have hWcast : (2 : Int) ^ (8 * n) = ((2 ^ (8 * n) : Nat) : Int) := by push_cast; rfl
  rw [hWcast] at hH
  have hwinInt : ((1 : BitVec 64) <<< (n * 8)).toInt = ((2 ^ (8 * n) : Nat) : Int) := by
    rw [toInt_of_lt (by rw [hw.win]; omega), hw.win]
  have hwinNat := hw.win
  unfold quicGetNum decodePacketNumber
  simp only [hexp, hw.mask, he, hWcast]
  generalize (BitVec.ofNat 64 e &&& BitVec.allOnes 64 <<< (n * 8)) ||| BitVec.ofNat 64 p = cand
    at hc
  generalize (1 : BitVec 64) <<< (n * 8) = win at hwinInt hH hlim hwinNat ⊢
  have hbase : (e : Int) / ((2 ^ (8 * n) : Nat) : Int) * ((2 ^ (8 * n) : Nat) : Int) =
      ((e / 2 ^ (8 * n) * 2 ^ (8 * n) : Nat) : Int) := by push_cast; rfl
  rw [hbase]
  generalize 2 ^ (8 * n) = W at *
  have hlt : e < e / W * W + W := Nat.lt_div_mul_add hWpos
  generalize e / W * W = base at *
  -- every operand is small, so the s64 operations and comparisons are those of the integers
  have hcInt : cand.toInt = (base : Int) + p := by
    rw [toInt_of_lt (by omega), hc]
    push_cast; rfl
  have heInt : (BitVec.ofNat 64 e).toInt = e := by
    rw [toInt_of_lt (by simp; omega)]
    simp; omega
  have hsub : (BitVec.ofNat 64 e - win.sdiv 2).toInt = (e : Int) - (W : Int) / 2 := by
    rw [toInt_sub_of_small] <;> rw [heInt, hH] <;> omega
  have hadd : (BitVec.ofNat 64 e + win.sdiv 2).toInt = (e : Int) + (W : Int) / 2 := by
    rw [toInt_add_of_small] <;> rw [heInt, hH] <;> omega
  have c1 : cand.sle (BitVec.ofNat 64 e - win.sdiv 2) = true ↔
      ((base : Nat) : Int) + (p : Int) ≤ (e : Int) - (W : Int) / 2 := by
    rw [BitVec.sle_iff_toInt_le, hcInt, hsub]
  have c2 : cand.ult ((1 : BitVec 64) <<< QUIC_PN_BITS - win) = true ↔
      ((base : Nat) : Int) + (p : Int) < 2 ^ 62 - (W : Int) := by
    rw [BitVec.ult_iff_lt, BitVec.lt_def, hc, hlim]
    omega
  have c3 : (BitVec.ofNat 64 e + win.sdiv 2).slt cand = true ↔
      (e : Int) + (W : Int) / 2 < ((base : Nat) : Int) + (p : Int) := by
    rw [BitVec.slt_iff_toInt_lt, hcInt, hadd]
  have c4 : win.sle cand = true ↔ (W : Int) ≤ ((base : Nat) : Int) + (p : Int) := by
    rw [BitVec.sle_iff_toInt_le, hcInt, hwinInt]
  simp only [c1, c2, c3, c4]
  split_ifs
  · rw [toInt_add_of_small] <;> rw [hcInt, hwinInt] <;> omega
  · rw [toInt_sub_of_small] <;> rw [hcInt, hwinInt] <;> omega
  · exact hcInt

-- `quic_get_num` recovers every packet number within half a window of the next expected one
-- from its low `n` bytes.
theorem quicGetNum_ofInt_emod {n : Nat} (hn : n ∈ [1, 2, 3, 4]) {L P : Int} (hL : -1 ≤ L)
    (hL' : L < 2 ^ 62) (hP : 0 ≤ P) (hP' : P < 2 ^ 62) (hlo : L + 1 - 2 ^ (8 * n - 1) < P)
    (hhi : P ≤ L + 1 + 2 ^ (8 * n - 1)) :
    (quicGetNum (BitVec.ofInt 64 L) (BitVec.ofInt 64 (P % 2 ^ (8 * n))) n).toInt = P := by
  have hn1 : 1 ≤ n := by
    simp only [List.mem_cons, List.not_mem_nil, or_false] at hn
    omega
  have hwin : (2 : Int) ^ (8 * n) = 2 * 2 ^ (8 * n - 1) := by
    rw [← pow_succ']
    congr 1
    omega
  have hpos : (0 : Int) < 2 ^ (8 * n - 1) := by positivity
  have hrem := Int.emod_nonneg P (by positivity : (2 : Int) ^ (8 * n) ≠ 0)
  have hrem' := Int.emod_lt_of_pos P (by positivity : (0 : Int) < 2 ^ (8 * n))
  obtain ⟨p, hp⟩ : ∃ p : Nat, P % 2 ^ (8 * n) = p := ⟨(P % 2 ^ (8 * n)).toNat, by omega⟩
  have hplt : p < 2 ^ (8 * n) := by
    rw [hp] at hrem'
    exact_mod_cast hrem'
  rw [hp, BitVec.ofInt_natCast, quicGetNum_toInt hn hL hL' hplt, ← hp, hwin]
  exact decodePacketNumber_emod hpos hP hP' (by omega) (by omega)

-- The packet number `quic_packet_pack_frames` writes in four bytes is the one
-- `quic_crypto_get_number` reads back, whenever the receiver's largest number is within
-- 2^31 of it.
theorem quicCryptoGetNumber_packFrames (packet : QuicPacket) {L P : Int} (hL : -1 ≤ L)
    (hL' : L < 2 ^ 62) (hP : 0 ≤ P) (hP' : P < 2 ^ 62) (hlo : L + 1 - 2 ^ 31 < P)
    (hhi : P ≤ L + 1 + 2 ^ 31) :
    quicCryptoGetNumber (BitVec.ofInt 64 L) (quicPacketPackFrames packet P.toNat)
      QUIC_PACKET_NUMBER_LEN = .ok (BitVec.ofInt 64 P) := by
  have hget : quicGetInt (quicPacketPackFrames packet P.toNat) QUIC_PACKET_NUMBER_LEN =
      some (P.toNat % 256 ^ 4, (packet.frameList.map QuicTxFrame.data).flatten) :=
    quicGetInt_putBe (by decide) P.toNat _
  have hlow : BitVec.ofNat 64 (P.toNat % 256 ^ 4) = BitVec.ofInt 64 (P % 2 ^ (8 * 4)) := by
    rw [← BitVec.ofInt_natCast]
    congr 1
    omega
  have hnum := quicGetNum_ofInt_emod (n := 4) (by decide) hL hL' hP hP' hlo hhi
  unfold quicCryptoGetNumber
  rw [hget]
  dsimp only
  rw [show QUIC_PACKET_NUMBER_LEN = 4 from rfl, hlow]
  congr 1
  apply BitVec.eq_of_toInt_eq
  rw [hnum, BitVec.toInt_ofInt, Int.bmod_eq_of_le] <;> push_cast <;> omega

-- rfc9000#appendix-A.3: the truncated packet number is decoded back exactly, and so is the
-- four-byte number of every packet this endpoint sends.
theorem quicGetNum_recovers :
    (∀ n ∈ [1, 2, 3, 4], ∀ L P : Int, -1 ≤ L → L < 2 ^ 62 → 0 ≤ P → P < 2 ^ 62 →
      L + 1 - 2 ^ (8 * n - 1) < P → P ≤ L + 1 + 2 ^ (8 * n - 1) →
      (quicGetNum (BitVec.ofInt 64 L) (BitVec.ofInt 64 (P % 2 ^ (8 * n))) n).toInt = P) ∧
    (∀ (packet : QuicPacket) (L P : Int), -1 ≤ L → L < 2 ^ 62 → 0 ≤ P → P < 2 ^ 62 →
      L + 1 - 2 ^ 31 < P → P ≤ L + 1 + 2 ^ 31 →
      quicCryptoGetNumber (BitVec.ofInt 64 L) (quicPacketPackFrames packet P.toNat)
        QUIC_PACKET_NUMBER_LEN = .ok (BitVec.ofInt 64 P)) :=
  ⟨fun _ hn _ _ hL hL' hP hP' hlo hhi => quicGetNum_ofInt_emod hn hL hL' hP hP' hlo hhi,
    fun packet _ _ hL hL' hP hP' hlo hhi =>
      quicCryptoGetNumber_packFrames packet hL hL' hP hP' hlo hhi⟩

-- The example of rfc9000#appendix-A.3: with 0xa82f30ea the largest number received, the two
-- bytes 0x9b32 decode to 0xa82f9b32.
theorem quicGetNum_recovers_rfc_example :
    (0xa82f9b32 : Int) % 2 ^ (8 * 2) = 0x9b32 ∧
      (quicGetNum (BitVec.ofInt 64 0xa82f30ea) (BitVec.ofInt 64 (0xa82f9b32 % 2 ^ (8 * 2)))
        2).toInt = 0xa82f9b32 :=
  ⟨by norm_num, quicGetNum_recovers.1 2 (by decide) 0xa82f30ea 0xa82f9b32 (by norm_num) (by norm_num)
    (by norm_num) (by norm_num) (by norm_num) (by norm_num)⟩

end Quic.Packet
