import Quic.Packet.LongHeader
import Quic.Common.Data

namespace Quic.Packet

/-! The ALPN extractor of the listener lookup (packet.c): the ProtocolNameList of the first ALPN
extension of the TLS ClientHello in a client's first Initial packet, read before any connection
exists. The parsers walk a cursor `(p, len)` over the packet buffer; `bytesAt buf p len` is what
lies under it. -/

def TLS_MT_CLIENT_HELLO : Nat := 1
def TLS_EXT_alpn : Nat := 16
def TLS_CH_RANDOM_LEN : Nat := 32
def TLS_CH_VERSION_LEN : Nat := 2
def TLS_MAX_EXTENSIONS : Nat := 128
def QUIC_FRAME_CRYPTO : Nat := 0x06

def bytesAt (buf : List UInt8) (p len : Nat) : List UInt8 :=
  (buf.drop p).take len

-- `quic_get_int(&p, &len, &v, n)`: the `n`-byte value under the cursor if `len` covers it; the
-- caller then moves the cursor on by `n`.
def quicGetIntAt (buf : List UInt8) (p len n : Nat) : Option Nat :=
  (quicGetInt (bytesAt buf p len) n).map Prod.fst

-- `quic_get_var(&p, &len, &v)`: the value and the number of bytes it took.
def quicGetVarAt (buf : List UInt8) (p len : Nat) : Option (Nat × Nat) :=
  (quicGetVar (bytesAt buf p len)).map fun r => (r.1, (bytesAt buf p len).length - r.2.length)

-- A `struct quic_data` pointing into the buffer: `data` the offset of its bytes, none for NULL.
structure QuicDataRef where
  data : Option Nat
  len : Nat
  deriving DecidableEq, Repr

/-! ## `quic_packet_get_alpn` -/

-- Up to the extensions: the cursor over them, `len` limited first to the handshake message and
-- then to the extensions length; `none` where the C returns `err`.
def quicPacketGetAlpnHeader (buf : List UInt8) (p len : Nat) : Option (Nat × Nat) := do
  let type ← quicGetIntAt buf p len 1
  guard (type = TLS_MT_CLIENT_HELLO)
  let length ← quicGetIntAt buf (p + 1) (len - 1) 3
  guard (TLS_CH_RANDOM_LEN + TLS_CH_VERSION_LEN ≤ len - 4 ∧
    TLS_CH_RANDOM_LEN + TLS_CH_VERSION_LEN ≤ length)
  -- legacy_version and random are skipped
  let p := p + 4 + (TLS_CH_RANDOM_LEN + TLS_CH_VERSION_LEN)
  let len := min (len - 4) length - (TLS_CH_RANDOM_LEN + TLS_CH_VERSION_LEN)
  -- legacy_session_id must be empty
  let sessionIdLen ← quicGetIntAt buf p len 1
  guard (sessionIdLen = 0)
  let cipherSuitesLen ← quicGetIntAt buf (p + 1) (len - 1) 2
  guard (cipherSuitesLen ≤ len - 3)
  let p := p + 3 + cipherSuitesLen
  let len := len - 3 - cipherSuitesLen
  let compressionMethodsLen ← quicGetIntAt buf p len 1
  guard (compressionMethodsLen ≤ len - 1)
  let p := p + 1 + compressionMethodsLen
  let len := len - 1 - compressionMethodsLen
  let extensionsLen ← quicGetIntAt buf p len 2
  pure (p + 2, min (len - 2) extensionsLen)

-- How the loop over the extensions ends.
inductive AlpnExtScan where
  -- at the ALPN extension: the cursor over its data
  | found (p len : Nat)
  -- no ALPN extension before `len` ran down to 4: `quic_data(alpn, p, 0)`
  | notFound (p : Nat)
  -- an extension longer than `len`: `return 0` with `alpn` as it was
  | incomplete
  | error
  deriving DecidableEq, Repr

-- The loop over the extensions; `left` is TLS_MAX_EXTENSIONS - exts, how many more it may skip.
def quicPacketGetAlpnExts (buf : List UInt8) (p len left : Nat) : AlpnExtScan :=
  if len ≤ 4 then .notFound p
  else
    match quicGetIntAt buf p len 2 with
    | none => .notFound p
    | some type =>
      match quicGetIntAt buf (p + 2) (len - 2) 2 with
      | none => .notFound (p + 2)
      | some length =>
        if len - 4 < length then .incomplete
        else if type = TLS_EXT_alpn then
          if QUIC_ALPN_MAX_LEN < length then .error else .found (p + 4) length
        else
          match left with
          | 0 => .error
          | left + 1 => quicPacketGetAlpnExts buf (p + 4 + length) (len - 4 - length) left
termination_by structural left

-- The check of the ProtocolNameList: each name's length byte and bytes within `len`.
def quicPacketGetAlpnNames (buf : List UInt8) (p len : Nat) : Bool :=
  if len = 0 then true
  else
    match quicGetIntAt buf p len 1 with
    | none => false
    | some length =>
      if len - 1 < length then false
      else quicPacketGetAlpnNames buf (p + 1 + length) (len - 1 - length)
termination_by len

-- `quic_packet_get_alpn(alpn, p, len)`: the return value and `*alpn`.
def quicPacketGetAlpn (buf : List UInt8) (alpn : QuicDataRef) (p len : Nat) :
    Int × QuicDataRef :=
  match quicPacketGetAlpnHeader buf p len with
  | none => (-EINVAL, alpn)
  | some (p, len) =>
    match quicPacketGetAlpnExts buf p len TLS_MAX_EXTENSIONS with
    | .error => (-EINVAL, alpn)
    | .incomplete => (0, alpn)
    | .notFound p => (0, ⟨some p, 0⟩)
    | .found p len =>
      match quicGetIntAt buf p len 2 with
      | none => (-EINVAL, alpn)
      | some length =>
        if len - 2 < length then (-EINVAL, alpn)
        else if quicPacketGetAlpnNames buf (p + 2) length then (0, ⟨some (p + 2), length⟩)
        else (-EINVAL, ⟨none, 0⟩)

-- `quic_packet_parse_alpn` once the packet is decrypted, the cursor over its frames: padding is
-- skipped and the ClientHello is read from a first CRYPTO frame at offset 0.
def quicPacketParseAlpnFrames (buf : List UInt8) (alpn : QuicDataRef) (p len : Nat) :
    Int × QuicDataRef :=
  let pad := ((bytesAt buf p len).takeWhile (· == 0)).length
  let p := p + pad
  let len := len - pad
  match bytesAt buf p len with
  | [] => (0, alpn)
  | type :: _ =>
    if type.toNat ≠ QUIC_FRAME_CRYPTO then (0, alpn)
    else
      match quicGetVarAt buf (p + 1) (len - 1) with
      | none => (0, alpn)
      | some (offset, n) =>
        if offset ≠ 0 then (0, alpn)
        else
          match quicGetVarAt buf (p + 1 + n) (len - 1 - n) with
          | none => (0, alpn)
          | some (length, m) =>
            if len - 1 - n - m < length then (0, alpn)
            else quicPacketGetAlpn buf alpn (p + 1 + n + m) length

/-! ## The cursor -/

theorem bytesAt_sub {buf : List UInt8} {p len q m : Nat} (hq : p ≤ q) (hm : q + m ≤ p + len) :
    bytesAt buf q m = ((bytesAt buf p len).drop (q - p)).take m := by
  unfold bytesAt
  rw [List.drop_take, List.drop_drop, List.take_take, Nat.add_sub_cancel' hq,
    Nat.min_eq_left (by omega)]

-- Buffers that agree under a cursor agree under every cursor inside it, and every empty one.
theorem bytesAt_eq_of_inside {buf buf' : List UInt8} {p len q m : Nat}
    (hw : bytesAt buf p len = bytesAt buf' p len) (hq : p ≤ q) (hm : q + m ≤ p + len ∨ m = 0) :
    bytesAt buf q m = bytesAt buf' q m := by
  rcases hm with hm | rfl
  · rw [bytesAt_sub hq hm, bytesAt_sub hq hm, hw]
  · simp [bytesAt]

theorem quicGetIntAt_eq_of_inside {buf buf' : List UInt8} {p len : Nat}
    (hw : bytesAt buf p len = bytesAt buf' p len) (n : Nat) {q m : Nat} (hq : p ≤ q)
    (hm : q + m ≤ p + len ∨ m = 0) : quicGetIntAt buf q m n = quicGetIntAt buf' q m n := by
  unfold quicGetIntAt
  rw [bytesAt_eq_of_inside hw hq hm]

theorem quicGetVarAt_eq_of_inside {buf buf' : List UInt8} {p len : Nat}
    (hw : bytesAt buf p len = bytesAt buf' p len) {q m : Nat} (hq : p ≤ q)
    (hm : q + m ≤ p + len ∨ m = 0) : quicGetVarAt buf q m = quicGetVarAt buf' q m := by
  unfold quicGetVarAt
  rw [bytesAt_eq_of_inside hw hq hm]

theorem bytesAt_take {buf : List UInt8} {p len m : Nat} (hm : m ≤ len) :
    (bytesAt buf p len).take m = bytesAt buf p m := by
  unfold bytesAt
  rw [List.take_take, Nat.min_eq_left hm]

theorem bytesAt_length_le (buf : List UInt8) (p len : Nat) : (bytesAt buf p len).length ≤ len :=
  List.length_take_le _ _

theorem bytesAt_length {buf : List UInt8} {p len : Nat} (hbuf : p + len ≤ buf.length) :
    (bytesAt buf p len).length = len := by
  simp only [bytesAt, List.length_take, List.length_drop]
  omega

theorem quicGetInt_some {w rest : List UInt8} {n v : Nat} (h : quicGetInt w n = some (v, rest)) :
    n ≤ w.length ∧ v = getBe (w.take n) := by
  unfold quicGetInt at h
  split_ifs at h with hlen
  split at h <;> simp only [Option.some.injEq, Prod.mk.injEq, reduceCtorEq] at h <;>
    exact ⟨by omega, h.1.symm⟩

-- A value `quic_get_int` reads lies under the cursor, written big-endian in its `n` bytes.
theorem quicGetIntAt_some {buf : List UInt8} {p len n v : Nat}
    (h : quicGetIntAt buf p len n = some v) :
    n ≤ len ∧ bytesAt buf p n = putBe n v ∧ v < 256 ^ n := by
  unfold quicGetIntAt at h
  obtain ⟨⟨v', rest⟩, hget, rfl⟩ := Option.map_eq_some_iff.mp h
  obtain ⟨hn, rfl⟩ := quicGetInt_some hget
  have hlen : n ≤ len := hn.trans (bytesAt_length_le buf p len)
  have hbytes : bytesAt buf p n = (bytesAt buf p len).take n := (bytesAt_take hlen).symm
  have htake : ((bytesAt buf p len).take n).length = n := by
    rw [List.length_take]
    omega
  have hround := putBe_getBe ((bytesAt buf p len).take n)
  have hlt := getBe_lt ((bytesAt buf p len).take n)
  rw [htake] at hround hlt
  exact ⟨hlen, hbytes.trans hround.symm, hlt⟩

theorem quicGetVarAt_le {buf : List UInt8} {p len v n : Nat}
    (h : quicGetVarAt buf p len = some (v, n)) : n ≤ len := by
  unfold quicGetVarAt at h
  obtain ⟨r, -, hr⟩ := Option.map_eq_some_iff.mp h
  simp only [Prod.mk.injEq] at hr
  have := bytesAt_length_le buf p len
  omega

theorem quicGetIntAt_le {buf : List UInt8} {p len n v : Nat} (h : quicGetIntAt buf p len n = some v) :
    n ≤ len :=
  (quicGetIntAt_some h).1

/-! ## The cursors stay inside -/

theorem quicPacketGetAlpnHeader_inside {buf : List UInt8} {p len q l : Nat}
    (h : quicPacketGetAlpnHeader buf p len = some (q, l)) : p ≤ q ∧ q + l ≤ p + len := by
  simp only [quicPacketGetAlpnHeader, Option.bind_eq_bind, Option.bind_eq_some_iff,
    Option.pure_def, Option.some.injEq, Prod.mk.injEq, Option.guard_eq_some'] at h
  obtain ⟨-, -, -, -, length, -, -, ⟨hlen, -⟩, -, -, -, -, cs, -, -, hcs, cm, hcm, -, hcmle,
    ext, hext, rfl, rfl⟩ := h
  have := quicGetIntAt_le hcm
  have := quicGetIntAt_le hext
  unfold TLS_CH_RANDOM_LEN TLS_CH_VERSION_LEN at *
  omega

-- Where a cursor the extensions loop hands on may lie, from the loop's own `(p, len)`.
def AlpnExtScan.Inside (p len : Nat) : AlpnExtScan → Prop
  | .found q m => p ≤ q ∧ q + m ≤ p + len
  | .notFound q => p ≤ q ∧ q ≤ p + len
  | _ => True

theorem quicPacketGetAlpnExts_inside (buf : List UInt8) (left : Nat) :
    ∀ p len, (quicPacketGetAlpnExts buf p len left).Inside p len := by
  induction left with
  | zero =>
    intro p len
    unfold quicPacketGetAlpnExts
    split_ifs with hsmall
    · exact ⟨le_rfl, by omega⟩
    split
    · exact ⟨le_rfl, by omega⟩
    split
    · exact ⟨by omega, by omega⟩
    split_ifs <;> first | trivial | exact ⟨by omega, by omega⟩
  | succ left ih =>
    intro p len
    unfold quicPacketGetAlpnExts
    split_ifs with hsmall
    · exact ⟨le_rfl, by omega⟩
    split
    · exact ⟨le_rfl, by omega⟩
    split
    · exact ⟨by omega, by omega⟩
    rename_i length _
    split_ifs with hlong
    · trivial
    · trivial
    · exact ⟨by omega, by omega⟩
    · -- the loop goes on over the rest: what it hands on lies inside the rest
      dsimp only
      have hrest := ih (p + 4 + length) (len - 4 - length)
      revert hrest
      cases quicPacketGetAlpnExts buf (p + 4 + length) (len - 4 - length) left with
      | found q m => exact fun ⟨h1, h2⟩ => ⟨by omega, by omega⟩
      | notFound q => exact fun ⟨h1, h2⟩ => ⟨by omega, by omega⟩
      | incomplete => exact fun _ => trivial
      | error => exact fun _ => trivial

/-! ## The parsers read only under their cursor -/

section Frame

variable {buf buf' : List UInt8} {p len : Nat} (hw : bytesAt buf p len = bytesAt buf' p len)
include hw

-- Each parser, started anywhere inside the cursor of two buffers that agree under it, gives the
-- same result on both.
theorem quicPacketGetAlpnHeader_frame {q m : Nat} (hq : p ≤ q) (hm : q + m ≤ p + len ∨ m = 0) :
    quicPacketGetAlpnHeader buf q m = quicPacketGetAlpnHeader buf' q m := by
  unfold quicPacketGetAlpnHeader
  simp (disch := omega) only [quicGetIntAt_eq_of_inside hw]

theorem quicPacketGetAlpnExts_frame (left : Nat) :
    ∀ {q m : Nat}, p ≤ q → (q + m ≤ p + len ∨ m = 0) →
      quicPacketGetAlpnExts buf q m left = quicPacketGetAlpnExts buf' q m left := by
  induction left with
  | zero =>
    intro q m hq hm
    unfold quicPacketGetAlpnExts
    simp (disch := omega) only [quicGetIntAt_eq_of_inside hw]
  | succ left ih =>
    intro q m hq hm
    unfold quicPacketGetAlpnExts
    simp (disch := omega) only [quicGetIntAt_eq_of_inside hw, ih]

theorem quicPacketGetAlpnNames_frame (m : Nat) :
    ∀ {q : Nat}, p ≤ q → (q + m ≤ p + len ∨ m = 0) →
      quicPacketGetAlpnNames buf q m = quicPacketGetAlpnNames buf' q m := by
  induction m using Nat.strong_induction_on with
  | _ m ih =>
    intro q hq hm
    rw [quicPacketGetAlpnNames, quicPacketGetAlpnNames, quicGetIntAt_eq_of_inside hw 1 hq hm]
    split_ifs with h0
    · rfl
    cases quicGetIntAt buf' q m 1 with
    | none => rfl
    | some length =>
      dsimp only
      split_ifs with hlong
      · rfl
      · exact ih _ (by omega) (by omega) (by omega)

theorem quicPacketGetAlpn_frame (alpn : QuicDataRef) {q m : Nat} (hq : p ≤ q)
    (hm : q + m ≤ p + len ∨ m = 0) :
    quicPacketGetAlpn buf alpn q m = quicPacketGetAlpn buf' alpn q m := by
  unfold quicPacketGetAlpn
  rw [quicPacketGetAlpnHeader_frame hw hq hm]
  rcases hh : quicPacketGetAlpnHeader buf' q m with _ | ⟨q', l⟩
  · rfl
  obtain ⟨hq', hl⟩ := quicPacketGetAlpnHeader_inside hh
  dsimp only
  rw [quicPacketGetAlpnExts_frame hw _ (by omega) (by omega)]
  have hscan := quicPacketGetAlpnExts_inside buf' TLS_MAX_EXTENSIONS q' l
  revert hscan
  cases quicPacketGetAlpnExts buf' q' l TLS_MAX_EXTENSIONS with
  | found r n =>
    rintro ⟨hr, hn⟩
    dsimp only
    rw [quicGetIntAt_eq_of_inside hw 2 (by omega) (by omega)]
    cases quicGetIntAt buf' r n 2 with
    | none => rfl
    | some length =>
      dsimp only
      by_cases hlong : n - 2 < length
      · rw [if_pos hlong, if_pos hlong]
      · rw [if_neg hlong, if_neg hlong, quicPacketGetAlpnNames_frame hw _ (by omega) (by omega)]
  | notFound r => exact fun _ => rfl
  | incomplete => exact fun _ => rfl
  | error => exact fun _ => rfl

theorem quicPacketParseAlpnFrames_frame (alpn : QuicDataRef) :
    quicPacketParseAlpnFrames buf alpn p len = quicPacketParseAlpnFrames buf' alpn p len := by
  unfold quicPacketParseAlpnFrames
  have hpad : ((bytesAt buf p len).takeWhile (· == 0)).length ≤ len :=
    (List.takeWhile_sublist _).length_le.trans (bytesAt_length_le buf p len)
  rw [← hw]
  dsimp only
  generalize ((bytesAt buf p len).takeWhile (· == 0)).length = pad at hpad ⊢
  rw [bytesAt_eq_of_inside hw (by omega) (by omega)]
  cases bytesAt buf' (p + pad) (len - pad) with
  | nil => rfl
  | cons type _ =>
    dsimp only
    split_ifs with htype
    · rfl
    rw [quicGetVarAt_eq_of_inside hw (by omega) (by omega)]
    cases quicGetVarAt buf' (p + pad + 1) (len - pad - 1) with
    | none => rfl
    | some r =>
      obtain ⟨offset, n⟩ := r
      dsimp only
      split_ifs with hoff
      · rfl
      rw [quicGetVarAt_eq_of_inside hw (by omega) (by omega)]
      cases quicGetVarAt buf' (p + pad + 1 + n) (len - pad - 1 - n) with
      | none => rfl
      | some r' =>
        obtain ⟨length, k⟩ := r'
        dsimp only
        split_ifs with hlong
        · rfl
        · exact quicPacketGetAlpn_frame hw alpn (by omega) (by omega)

end Frame

-- `alpn` points at bytes under the cursor `(p, len)`.
def QuicDataRef.Inside (p len : Nat) (a : QuicDataRef) : Prop :=
  ∃ q, a.data = some q ∧ p ≤ q ∧ q + a.len ≤ p + len

-- What `quic_packet_get_alpn` leaves in `*alpn`: the value it had, NULL, or bytes under its cursor.
theorem quicPacketGetAlpn_alpn (buf : List UInt8) (alpn : QuicDataRef) (p len : Nat) :
    (quicPacketGetAlpn buf alpn p len).2 = alpn ∨ (quicPacketGetAlpn buf alpn p len).2 = ⟨none, 0⟩ ∨
      (quicPacketGetAlpn buf alpn p len).2.Inside p len := by
  unfold quicPacketGetAlpn
  rcases hh : quicPacketGetAlpnHeader buf p len with _ | ⟨q, l⟩
  · exact .inl rfl
  obtain ⟨hq, hl⟩ := quicPacketGetAlpnHeader_inside hh
  dsimp only
  have hscan := quicPacketGetAlpnExts_inside buf TLS_MAX_EXTENSIONS q l
  revert hscan
  cases quicPacketGetAlpnExts buf q l TLS_MAX_EXTENSIONS with
  | found r n =>
    rintro ⟨hr, hn⟩
    dsimp only
    rcases hlen : quicGetIntAt buf r n 2 with _ | length
    · exact .inl rfl
    have h2 := quicGetIntAt_le hlen
    dsimp only
    split_ifs with hlong hnames
    · exact .inl rfl
    · exact .inr (.inr ⟨r + 2, rfl, by omega, by dsimp only; omega⟩)
    · exact .inr (.inl rfl)
  | notFound r => exact fun ⟨hr, hr'⟩ => .inr (.inr ⟨r, rfl, by omega, by dsimp only; omega⟩)
  | incomplete => exact fun _ => .inl rfl
  | error => exact fun _ => .inl rfl

theorem quicPacketParseAlpnFrames_alpn (buf : List UInt8) (alpn : QuicDataRef) (p len : Nat) :
    (quicPacketParseAlpnFrames buf alpn p len).2 = alpn ∨
      (quicPacketParseAlpnFrames buf alpn p len).2 = ⟨none, 0⟩ ∨
      (quicPacketParseAlpnFrames buf alpn p len).2.Inside p len := by
  unfold quicPacketParseAlpnFrames
  have hpad : ((bytesAt buf p len).takeWhile (· == 0)).length ≤ len :=
    (List.takeWhile_sublist _).length_le.trans (bytesAt_length_le buf p len)
  dsimp only
  generalize ((bytesAt buf p len).takeWhile (· == 0)).length = pad at hpad ⊢
  rcases hb : bytesAt buf (p + pad) (len - pad) with _ | ⟨type, rest⟩
  · exact .inl rfl
  have hpos : 0 < len - pad := by
    have := bytesAt_length_le buf (p + pad) (len - pad)
    rw [hb, List.length_cons] at this
    omega
  dsimp only
  split_ifs with htype
  · exact .inl rfl
  rcases hoffset : quicGetVarAt buf (p + pad + 1) (len - pad - 1) with _ | ⟨offset, n⟩
  · exact .inl rfl
  have hn := quicGetVarAt_le hoffset
  dsimp only
  split_ifs with hoff
  · exact .inl rfl
  rcases hlength : quicGetVarAt buf (p + pad + 1 + n) (len - pad - 1 - n) with _ | ⟨length, k⟩
  · exact .inl rfl
  have hk := quicGetVarAt_le hlength
  dsimp only
  split_ifs with hlong
  · exact .inl rfl
  -- the ClientHello's cursor lies inside the frames'
  rcases quicPacketGetAlpn_alpn buf alpn (p + pad + 1 + n + k) length with h | h | ⟨q, hq, h1, h2⟩
  · exact .inl h
  · exact .inr (.inl h)
  · exact .inr (.inr ⟨q, hq, by omega, by omega⟩)

/-! ## What the extractor accepts -/

-- The buffer holds `bs` from offset `p`.
def HoldsAt (buf : List UInt8) (p : Nat) (bs : List UInt8) : Prop :=
  bytesAt buf p bs.length = bs

theorem bytesAt_add (buf : List UInt8) (p a b : Nat) :
    bytesAt buf p (a + b) = bytesAt buf p a ++ bytesAt buf (p + a) b := by
  unfold bytesAt
  rw [List.take_add, List.drop_drop]

theorem HoldsAt.append {buf xs ys : List UInt8} {p q : Nat} (h1 : HoldsAt buf p xs)
    (h2 : HoldsAt buf q ys) (hq : q = p + xs.length) : HoldsAt buf p (xs ++ ys) := by
  subst hq
  unfold HoldsAt at *
  rw [List.length_append, bytesAt_add, h1, h2]

theorem holdsAt_bytesAt {buf : List UInt8} {p n : Nat} (hbuf : p + n ≤ buf.length) :
    HoldsAt buf p (bytesAt buf p n) := by
  unfold HoldsAt
  rw [bytesAt_length hbuf]

theorem quicGetIntAt_holdsAt {buf : List UInt8} {p len n v : Nat}
    (h : quicGetIntAt buf p len n = some v) : HoldsAt buf p (putBe n v) := by
  unfold HoldsAt
  rw [putBe_length]
  exact (quicGetIntAt_some h).2.1

theorem HoldsAt.prefix {buf bs : List UInt8} {p len : Nat} (h : HoldsAt buf p bs)
    (hlen : bs.length ≤ len) : bs <+: bytesAt buf p len := by
  unfold HoldsAt at h
  rw [← h, ← bytesAt_take hlen]
  exact List.take_prefix _ _

-- A TLS ClientHello (rfc8446 4.1.2) up to its extensions.
structure ClientHelloHeader where
  length : Nat
  random : List UInt8
  cipherSuites : List UInt8
  compressionMethods : List UInt8
  extensionsLength : Nat

-- Each field big-endian in its width: msg_type, length, legacy_version and random, an empty
-- legacy_session_id, cipher_suites, legacy_compression_methods, and the extensions' length.
def ClientHelloHeader.encode (h : ClientHelloHeader) : List UInt8 :=
  putBe 1 TLS_MT_CLIENT_HELLO ++ putBe 3 h.length ++ h.random ++ putBe 1 0 ++
    putBe 2 h.cipherSuites.length ++ h.cipherSuites ++ putBe 1 h.compressionMethods.length ++
    h.compressionMethods ++ putBe 2 h.extensionsLength

structure ClientHelloHeader.WellFormed (h : ClientHelloHeader) : Prop where
  random : h.random.length = TLS_CH_RANDOM_LEN + TLS_CH_VERSION_LEN
  length : h.length < 2 ^ 24
  cipherSuites : h.cipherSuites.length < 2 ^ 16
  compressionMethods : h.compressionMethods.length < 2 ^ 8
  extensionsLength : h.extensionsLength < 2 ^ 16

-- An extension: its type, the length of its data, and the data.
def encodeExtension (e : Nat × List UInt8) : List UInt8 :=
  putBe 2 e.1 ++ putBe 2 e.2.length ++ e.2

-- A ClientHello up to the ProtocolNameList (rfc7301 3.1) of its first ALPN extension: the
-- extensions before that one, the length of its data, and the names of the list.
structure ClientHelloAlpn extends ClientHelloHeader where
  extensions : List (Nat × List UInt8)
  alpnLength : Nat
  names : List (List UInt8)

def ClientHelloAlpn.encode (h : ClientHelloAlpn) : List UInt8 :=
  h.toClientHelloHeader.encode ++
    (h.extensions.flatMap encodeExtension ++ putBe 2 TLS_EXT_alpn ++ putBe 2 h.alpnLength) ++
    (putBe 2 (quicDataList h.names).length ++ quicDataList h.names)

-- The bytes of the extensions up to the end of the ALPN extension's data.
def ClientHelloAlpn.extensionsEnd (h : ClientHelloAlpn) : Nat :=
  (h.extensions.flatMap encodeExtension).length + 4 + h.alpnLength

structure ClientHelloAlpn.WellFormed (h : ClientHelloAlpn) : Prop where
  header : h.toClientHelloHeader.WellFormed
  extensions : ∀ e ∈ h.extensions, e.1 < 2 ^ 16 ∧ e.1 ≠ TLS_EXT_alpn ∧ e.2.length < 2 ^ 16
  extensions_le : h.extensions.length ≤ TLS_MAX_EXTENSIONS
  alpnLength : h.alpnLength ≤ QUIC_ALPN_MAX_LEN
  names : ∀ d ∈ h.names, d.length < 2 ^ 8
  names_le : 2 + (quicDataList h.names).length ≤ h.alpnLength
  -- up to the end of the ALPN extension, within the message's and the extensions' lengths
  within_length : h.toClientHelloHeader.encode.length - 4 + h.extensionsEnd ≤ h.length
  within_extensions : h.extensionsEnd ≤ h.extensionsLength

theorem quicPacketGetAlpnHeader_sound {buf : List UInt8} {p len q l : Nat}
    (hbuf : p + len ≤ buf.length) (h : quicPacketGetAlpnHeader buf p len = some (q, l)) :
    ∃ hdr : ClientHelloHeader, hdr.WellFormed ∧ HoldsAt buf p hdr.encode ∧
      q = p + hdr.encode.length ∧ hdr.encode.length ≤ 4 + min (len - 4) hdr.length ∧
      l = min (4 + min (len - 4) hdr.length - hdr.encode.length) hdr.extensionsLength := by
  simp only [quicPacketGetAlpnHeader, Option.bind_eq_bind, Option.bind_eq_some_iff,
    Option.pure_def, Option.some.injEq, Prod.mk.injEq, Option.guard_eq_some'] at h
  simp only [TLS_CH_RANDOM_LEN, TLS_CH_VERSION_LEN, Nat.reduceAdd] at h
  obtain ⟨type, htype, -, rfl, length, hlength, -, ⟨hlen, -⟩, sid, hsid, -, rfl, cs, hcs, -, hcsle,
    cm, hcm, -, hcmle, ext, hext, rfl, rfl⟩ := h
  obtain ⟨-, -, hlength_lt⟩ := quicGetIntAt_some hlength
  obtain ⟨-, -, hcs_lt⟩ := quicGetIntAt_some hcs
  obtain ⟨-, -, hcm_lt⟩ := quicGetIntAt_some hcm
  obtain ⟨hext_le, -, hext_lt⟩ := quicGetIntAt_some hext
  have hrandom : (bytesAt buf (p + 4) 34).length = 34 := bytesAt_length (by omega)
  have hcsLen : (bytesAt buf (p + 4 + 34 + 3) cs).length = cs := bytesAt_length (by omega)
  have hcmLen : (bytesAt buf (p + 4 + 34 + 3 + cs + 1) cm).length = cm :=
    bytesAt_length (by omega)
  let hdr : ClientHelloHeader := ⟨length, bytesAt buf (p + 4) 34, bytesAt buf (p + 4 + 34 + 3) cs,
    bytesAt buf (p + 4 + 34 + 3 + cs + 1) cm, ext⟩
  have hencode : hdr.encode.length = 44 + cs + cm := by
    simp only [hdr, ClientHelloHeader.encode, List.length_append, putBe_length, hrandom, hcsLen,
      hcmLen]
    omega
  have hfields : hdr.length = length ∧ hdr.extensionsLength = ext := ⟨rfl, rfl⟩
  refine ⟨hdr, ⟨hrandom, hlength_lt, by rw [hcsLen]; exact hcs_lt, by rw [hcmLen]; exact hcm_lt,
    hext_lt⟩, ?_, by rw [hencode]; omega, by rw [hencode, hfields.1]; omega,
    by rw [hencode, hfields.1, hfields.2]; omega⟩
  -- the fields one after another, where the reads and the skips found them
  simp only [hdr, ClientHelloHeader.encode, hcsLen, hcmLen]
  refine ((((((((quicGetIntAt_holdsAt htype).append (quicGetIntAt_holdsAt hlength) ?_).append
    (holdsAt_bytesAt (by omega)) ?_).append (quicGetIntAt_holdsAt hsid) ?_).append
    (quicGetIntAt_holdsAt hcs) ?_).append (holdsAt_bytesAt (by omega)) ?_).append
    (quicGetIntAt_holdsAt hcm) ?_).append (holdsAt_bytesAt (by omega)) ?_).append
    (quicGetIntAt_holdsAt hext) ?_ <;>
  simp only [List.length_append, putBe_length, hrandom, hcsLen, hcmLen] <;> omega

-- What one round of the extensions loop has read when the loop finds the ALPN extension: the
-- type and length of an extension that fits in `len`, and either this is the ALPN one or the
-- loop finds it among the rest.
theorem quicPacketGetAlpnExts_found {buf : List UInt8} {p len left r m : Nat}
    (h : quicPacketGetAlpnExts buf p len left = .found r m) :
    ∃ type length, 4 < len ∧ quicGetIntAt buf p len 2 = some type ∧
      quicGetIntAt buf (p + 2) (len - 2) 2 = some length ∧ length ≤ len - 4 ∧
      ((type = TLS_EXT_alpn ∧ length ≤ QUIC_ALPN_MAX_LEN ∧ r = p + 4 ∧ m = length) ∨
        (type ≠ TLS_EXT_alpn ∧ ∃ left', left = left' + 1 ∧
          quicPacketGetAlpnExts buf (p + 4 + length) (len - 4 - length) left' = .found r m)) := by
  unfold quicPacketGetAlpnExts at h
  split_ifs at h with hsmall
  split at h
  · cases h
  rename_i type htype
  split at h
  · cases h
  rename_i length hlength
  refine ⟨type, length, by omega, htype, hlength, ?_⟩
  split_ifs at h with hlong htyp hmax
  · simp only [AlpnExtScan.found.injEq] at h
    exact ⟨by omega, .inl ⟨htyp, by omega, h.1.symm, h.2.symm⟩⟩
  · refine ⟨by omega, .inr ⟨htyp, ?_⟩⟩
    cases left with
    | zero => cases h
    | succ left' => exact ⟨left', rfl, h⟩

-- The extensions loop, finding the ALPN extension, has walked over at most `left` others that
-- fit in `len` and then over that one's type and length, its data fitting in `len` too.
theorem quicPacketGetAlpnExts_sound {buf : List UInt8} (left : Nat) :
    ∀ {p len r m : Nat}, p + len ≤ buf.length →
      quicPacketGetAlpnExts buf p len left = .found r m →
      ∃ exts : List (Nat × List UInt8), exts.length ≤ left ∧
        (∀ e ∈ exts, e.1 < 2 ^ 16 ∧ e.1 ≠ TLS_EXT_alpn ∧ e.2.length < 2 ^ 16) ∧
        m ≤ QUIC_ALPN_MAX_LEN ∧
        HoldsAt buf p (exts.flatMap encodeExtension ++ putBe 2 TLS_EXT_alpn ++ putBe 2 m) ∧
        r = p + (exts.flatMap encodeExtension).length + 4 ∧
        (exts.flatMap encodeExtension).length + 4 + m ≤ len := by
  induction left with
  | zero =>
    intro p len r m hbuf h
    obtain ⟨type, length, hlen, htype, hlength, hle, ⟨rfl, hmax, rfl, rfl⟩ | ⟨-, left', hleft, -⟩⟩ :=
      quicPacketGetAlpnExts_found h
    · exact ⟨[], le_rfl, by simp, hmax,
        (quicGetIntAt_holdsAt htype).append (quicGetIntAt_holdsAt hlength) (by simp [putBe_length]),
        by simp, by simp; omega⟩
    · cases hleft
  | succ left ih =>
    intro p len r m hbuf h
    obtain ⟨type, length, hlen, htype, hlength, hle, ⟨rfl, hmax, rfl, rfl⟩ |
      ⟨hne, left', hleft, hrest⟩⟩ := quicPacketGetAlpnExts_found h
    · exact ⟨[], by simp, by simp, hmax,
        (quicGetIntAt_holdsAt htype).append (quicGetIntAt_holdsAt hlength) (by simp [putBe_length]),
        by simp, by simp; omega⟩
    obtain rfl : left' = left := by omega
    obtain ⟨exts, hlen, hexts, hmax, hholds, hr, hend⟩ := ih (by omega) hrest
    -- the extension skipped here, then the ones the rest of the loop skipped
    have hdata : (bytesAt buf (p + 4) length).length = length := bytesAt_length (by omega)
    have htype_lt := (quicGetIntAt_some htype).2.2
    have hlength_lt := (quicGetIntAt_some hlength).2.2
    have hext : HoldsAt buf p (encodeExtension (type, bytesAt buf (p + 4) length)) := by
      unfold encodeExtension
      rw [hdata]
      exact ((quicGetIntAt_holdsAt htype).append (quicGetIntAt_holdsAt hlength)
        (by simp [putBe_length])).append (holdsAt_bytesAt (by omega)) (by simp [putBe_length])
    have hextLen : (encodeExtension (type, bytesAt buf (p + 4) length)).length = 4 + length := by
      simp only [encodeExtension, List.length_append, putBe_length, hdata]
    refine ⟨(type, bytesAt buf (p + 4) length) :: exts, by simp; omega, ?_, hmax, ?_, ?_, ?_⟩
    · intro e he
      rcases List.mem_cons.mp he with rfl | he
      · exact ⟨htype_lt, hne, by rw [hdata]; exact hlength_lt⟩
      · exact hexts e he
    · simp only [List.flatMap_cons, List.append_assoc] at hholds ⊢
      exact hext.append hholds (by rw [hextLen]; omega)
    · simp only [List.flatMap_cons, List.length_append, hextLen]
      omega
    · simp only [List.flatMap_cons, List.length_append, hextLen]
      omega

-- A ProtocolNameList that `quicPacketGetAlpnNames` accepts is a list of names, each behind its
-- length byte, filling exactly the `len` bytes checked.
theorem quicPacketGetAlpnNames_sound {buf : List UInt8} (len : Nat) :
    ∀ {p : Nat}, p + len ≤ buf.length → quicPacketGetAlpnNames buf p len = true →
      ∃ names : List (List UInt8), (∀ d ∈ names, d.length < 2 ^ 8) ∧
        HoldsAt buf p (quicDataList names) ∧ (quicDataList names).length = len := by
  induction len using Nat.strong_induction_on with
  | _ len ih =>
    intro p hbuf h
    rw [quicPacketGetAlpnNames] at h
    split_ifs at h with h0
    · subst h0
      exact ⟨[], by simp, by simp [HoldsAt, bytesAt], rfl⟩
    rcases hlength : quicGetIntAt buf p len 1 with _ | length
    · simp [hlength] at h
    rw [hlength] at h
    dsimp only at h
    split_ifs at h with hlong
    obtain ⟨names, hnames, hholds, hlen⟩ := ih _ (by omega) (by omega) h
    have hname : (bytesAt buf (p + 1) length).length = length := bytesAt_length (by omega)
    have hlt := (quicGetIntAt_some hlength).2.2
    have hbyte : putBe 1 length = [UInt8.ofNat (bytesAt buf (p + 1) length).length] := by
      simp [putBe, hname]
    refine ⟨bytesAt buf (p + 1) length :: names, ?_, ?_, ?_⟩
    · intro d hd
      rcases List.mem_cons.mp hd with rfl | hd
      · rw [hname]
        exact hlt
      · exact hnames d hd
    · rw [quicDataList_cons, ← List.singleton_append, ← hbyte, ← List.append_assoc]
      exact ((quicGetIntAt_holdsAt hlength).append (holdsAt_bytesAt (by omega))
        (by simp [putBe_length])).append hholds (by simp [putBe_length, hname]; omega)
    · rw [quicDataList_cons, List.length_cons, List.length_append, hname, hlen]
      omega

-- When `quic_packet_get_alpn`, started from the empty `alpn` of its callers, returns 0 with a
-- nonempty list, the bytes under its cursor start with a ClientHello whose extensions, up to and
-- including the first ALPN one, lie within its declared lengths, and `alpn` is that extension's
-- ProtocolNameList: names behind their length bytes, filling `alpn->len` exactly.
theorem quicPacketGetAlpn_sound {buf : List UInt8} {p len : Nat} {a : QuicDataRef}
    (hbuf : p + len ≤ buf.length) (h : quicPacketGetAlpn buf ⟨none, 0⟩ p len = (0, a))
    (hpos : 0 < a.len) :
    ∃ hello : ClientHelloAlpn, hello.WellFormed ∧ hello.encode <+: bytesAt buf p len ∧
      hello.toClientHelloHeader.encode.length + hello.extensionsEnd ≤ len ∧
      a = ⟨some (p + hello.encode.length - (quicDataList hello.names).length),
        (quicDataList hello.names).length⟩ ∧
      bytesAt buf (p + hello.encode.length - a.len) a.len = quicDataList hello.names := by
  unfold quicPacketGetAlpn at h
  rcases hh : quicPacketGetAlpnHeader buf p len with _ | ⟨q, l⟩
  · simp [hh, EINVAL] at h
  rw [hh] at h
  dsimp only at h
  obtain ⟨hq, hl⟩ := quicPacketGetAlpnHeader_inside hh
  rcases hs : quicPacketGetAlpnExts buf q l TLS_MAX_EXTENSIONS with ⟨r, m⟩ | r | _ | _
  rotate_left
  · simp only [hs, Prod.mk.injEq] at h
    rw [← h.2] at hpos
    exact absurd hpos (Nat.lt_irrefl 0)
  · simp only [hs, Prod.mk.injEq] at h
    rw [← h.2] at hpos
    exact absurd hpos (Nat.lt_irrefl 0)
  · simp [hs, EINVAL] at h
  rw [hs] at h
  dsimp only at h
  rcases hlen : quicGetIntAt buf r m 2 with _ | length
  · simp [hlen, EINVAL] at h
  rw [hlen] at h
  dsimp only at h
  split_ifs at h with hlong hnamesOk
  · simp [EINVAL] at h
  swap
  · simp [EINVAL] at h
  obtain ⟨-, rfl⟩ := Prod.mk.inj h
  obtain ⟨hdr, hwf, hhdr, rfl, hhdrLen, rfl⟩ := quicPacketGetAlpnHeader_sound hbuf hh
  obtain ⟨exts, hextsLen, hexts, hmax, hholds, rfl, hend⟩ :=
    quicPacketGetAlpnExts_sound _ (by omega) hs
  have h2 := quicGetIntAt_le hlen
  obtain ⟨names, hnames, hnamesHolds, hnamesLen⟩ :=
    quicPacketGetAlpnNames_sound _ (by omega) hnamesOk
  have hencode : (ClientHelloAlpn.encode ⟨hdr, exts, m, names⟩).length =
      hdr.encode.length + (exts.flatMap encodeExtension).length + 4 + 2 + length := by
    simp only [ClientHelloAlpn.encode, List.length_append, putBe_length, hnamesLen]
    omega
  have hminLen := Nat.min_le_right (len - 4) hdr.length
  have hhdr4 : 4 ≤ hdr.encode.length := by
    simp only [ClientHelloHeader.encode, List.length_append, putBe_length]
    omega
  have hminExt := Nat.min_le_right (4 + min (len - 4) hdr.length - hdr.encode.length)
    hdr.extensionsLength
  -- the ProtocolNameList's length field, then the list, right after the ALPN extension's header
  have hlist : HoldsAt buf (p + hdr.encode.length + (exts.flatMap encodeExtension).length + 4)
      (putBe 2 (quicDataList names).length ++ quicDataList names) := by
    rw [hnamesLen]
    exact (quicGetIntAt_holdsAt hlen).append hnamesHolds (by simp [putBe_length])
  have hall : HoldsAt buf p (ClientHelloAlpn.encode ⟨hdr, exts, m, names⟩) :=
    (hhdr.append hholds rfl).append hlist (by simp only [List.length_append, putBe_length]; omega)
  have hat : p + (ClientHelloAlpn.encode ⟨hdr, exts, m, names⟩).length - (quicDataList names).length =
      p + hdr.encode.length + (exts.flatMap encodeExtension).length + 4 + 2 := by
    rw [hencode, hnamesLen]
    omega
  refine ⟨⟨hdr, exts, m, names⟩, ⟨hwf, hexts, hextsLen, hmax, hnames, ?_, ?_, ?_⟩,
    hall.prefix (by omega), ?_, ?_, ?_⟩
  · show 2 + (quicDataList names).length ≤ m
    omega
  · show hdr.encode.length - 4 + ((exts.flatMap encodeExtension).length + 4 + m) ≤ hdr.length
    omega
  · show (exts.flatMap encodeExtension).length + 4 + m ≤ hdr.extensionsLength
    omega
  · show hdr.encode.length + ((exts.flatMap encodeExtension).length + 4 + m) ≤ len
    omega
  · show (⟨some (p + hdr.encode.length + (exts.flatMap encodeExtension).length + 4 + 2), length⟩ :
      QuicDataRef) = ⟨some (p + (ClientHelloAlpn.encode ⟨hdr, exts, m, names⟩).length -
        (quicDataList names).length), (quicDataList names).length⟩
    rw [hat, hnamesLen]
  · show bytesAt buf (p + (ClientHelloAlpn.encode ⟨hdr, exts, m, names⟩).length - length) length =
      quicDataList names
    rw [← hnamesLen, hat]
    exact hnamesHolds

-- A ClientHello with one cipher suite, no compression and only an ALPN extension naming "h3".
-- The ALPN extractor on any decrypted Initial payload: what `quic_packet_parse_alpn` and
-- `quic_packet_get_alpn` return depends only on the bytes under their cursor (the payload's
-- frames, the CRYPTO data), and `alpn` ends as it was, NULL or pointing at bytes under it; both
-- are total, the extensions loop bounded by TLS_MAX_EXTENSIONS and the names check by `len`.
-- A nonempty ALPN list returned with 0 is the ProtocolNameList of the first ALPN extension of a
-- ClientHello lying within its declared lengths, in the form `quic_data_has` looks names up in.
theorem quicPacketAlpn_extractor_sound :
    (∀ (buf buf' : List UInt8) (alpn : QuicDataRef) (p len : Nat),
      bytesAt buf p len = bytesAt buf' p len →
      quicPacketParseAlpnFrames buf alpn p len = quicPacketParseAlpnFrames buf' alpn p len ∧
        quicPacketGetAlpn buf alpn p len = quicPacketGetAlpn buf' alpn p len) ∧
    (∀ (buf : List UInt8) (alpn : QuicDataRef) (p len : Nat),
      ((quicPacketParseAlpnFrames buf alpn p len).2 = alpn ∨
        (quicPacketParseAlpnFrames buf alpn p len).2 = ⟨none, 0⟩ ∨
        (quicPacketParseAlpnFrames buf alpn p len).2.Inside p len) ∧
      ((quicPacketGetAlpn buf alpn p len).2 = alpn ∨
        (quicPacketGetAlpn buf alpn p len).2 = ⟨none, 0⟩ ∨
        (quicPacketGetAlpn buf alpn p len).2.Inside p len)) ∧
    (∀ (buf : List UInt8) (p len : Nat) (a : QuicDataRef), p + len ≤ buf.length →
      quicPacketGetAlpn buf ⟨none, 0⟩ p len = (0, a) → 0 < a.len →
      ∃ hello : ClientHelloAlpn, hello.WellFormed ∧ hello.encode <+: bytesAt buf p len ∧
        hello.toClientHelloHeader.encode.length + hello.extensionsEnd ≤ len ∧
        a = ⟨some (p + hello.encode.length - (quicDataList hello.names).length),
          (quicDataList hello.names).length⟩ ∧
        ∀ d, quicDataHas (bytesAt buf (p + hello.encode.length - a.len) a.len) d = true ↔
          d ∈ hello.names) := by
  refine ⟨fun buf buf' alpn p len hw => ⟨quicPacketParseAlpnFrames_frame hw alpn,
    quicPacketGetAlpn_frame hw alpn le_rfl (.inl le_rfl)⟩,
    fun buf alpn p len => ⟨quicPacketParseAlpnFrames_alpn buf alpn p len,
      quicPacketGetAlpn_alpn buf alpn p len⟩, ?_⟩
  intro buf p len a hbuf h hpos
  obtain ⟨hello, hwf, hprefix, hend, ha, hbytes⟩ := quicPacketGetAlpn_sound hbuf h hpos
  refine ⟨hello, hwf, hprefix, hend, ha, fun d => ?_⟩
  rw [hbytes]
  exact quicDataHas_quicDataList (fun x hx => by have := hwf.names x hx; omega) d

-- A ClientHello offering cipher suite 0x1301 and the one ALPN name "h3": the list found is the
-- extension's three bytes, and it holds exactly the names of a well-formed ClientHello.
theorem quicPacketAlpn_extractor_sound_h3 :
    let buf : List UInt8 := [1, 0, 0, 52] ++ List.replicate 34 3 ++
      [0, 0, 2, 0x13, 0x01, 1, 0, 0, 9, 0, 16, 0, 5, 0, 3, 2, 104, 51]
    quicPacketGetAlpn buf ⟨none, 0⟩ 0 56 = (0, ⟨some 53, 3⟩) ∧
      ∃ hello : ClientHelloAlpn, hello.WellFormed ∧ hello.encode <+: bytesAt buf 0 56 ∧
        hello.toClientHelloHeader.encode.length + hello.extensionsEnd ≤ 56 ∧
        (⟨some 53, 3⟩ : QuicDataRef) = ⟨some (0 + hello.encode.length -
          (quicDataList hello.names).length), (quicDataList hello.names).length⟩ ∧
        ∀ d, quicDataHas (bytesAt buf (0 + hello.encode.length - 3) 3) d = true ↔
          d ∈ hello.names := by
  intro buf
  have h : quicPacketGetAlpn buf ⟨none, 0⟩ 0 56 = (0, ⟨some 53, 3⟩) := by decide +kernel
  exact ⟨h, quicPacketAlpn_extractor_sound.2.2 buf 0 56 _ (by decide) h (by decide)⟩

end Quic.Packet
