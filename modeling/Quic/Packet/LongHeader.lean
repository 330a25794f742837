import Quic.Frame.TransportParam
import Quic.Path.Ampl

namespace Quic.Packet

-- Header field sizes of packet.c; the packet number and the Length field are always written
-- in four bytes ("Make these fixed for easy coding").
def QUIC_HLEN : Nat := 1
def QUIC_PN_MAX_LEN : Nat := 4
def QUIC_PACKET_NUMBER_LEN : Nat := QUIC_PN_MAX_LEN
def QUIC_PACKET_LENGTH_LEN : Nat := 4
def QUIC_TOKEN_MAX_LEN : Nat := 120

-- Long-header packet types of each version (packet.h); the internal types are those of V1.
def QUIC_PACKET_INITIAL_V1 : Nat := 0
def QUIC_PACKET_0RTT_V1 : Nat := 1
def QUIC_PACKET_HANDSHAKE_V1 : Nat := 2
def QUIC_PACKET_RETRY_V1 : Nat := 3

def QUIC_PACKET_INITIAL_V2 : Nat := 1
def QUIC_PACKET_0RTT_V2 : Nat := 2
def QUIC_PACKET_HANDSHAKE_V2 : Nat := 3
def QUIC_PACKET_RETRY_V2 : Nat := 0

def QUIC_PACKET_INITIAL : Nat := QUIC_PACKET_INITIAL_V1
def QUIC_PACKET_0RTT : Nat := QUIC_PACKET_0RTT_V1
def QUIC_PACKET_HANDSHAKE : Nat := QUIC_PACKET_HANDSHAKE_V1
def QUIC_PACKET_RETRY : Nat := QUIC_PACKET_RETRY_V1

def QUIC_PACKET_INVALID : Nat := 0xff

def QUIC_PACKET_FORM_LONG : Nat := 1

def quicPacketVersionGetType (version type : Nat) : Nat :=
  if version = QUIC_VERSION_V1 then type
  else if type = QUIC_PACKET_INITIAL_V2 then QUIC_PACKET_INITIAL
  else if type = QUIC_PACKET_0RTT_V2 then QUIC_PACKET_0RTT
  else if type = QUIC_PACKET_HANDSHAKE_V2 then QUIC_PACKET_HANDSHAKE
  else if type = QUIC_PACKET_RETRY_V2 then QUIC_PACKET_RETRY
  else QUIC_PACKET_INVALID

def quicPacketVersionPutType (version type : Nat) : Nat :=
  if version = QUIC_VERSION_V1 then type
  else if type = QUIC_PACKET_INITIAL then QUIC_PACKET_INITIAL_V2
  else if type = QUIC_PACKET_0RTT then QUIC_PACKET_0RTT_V2
  else if type = QUIC_PACKET_HANDSHAKE then QUIC_PACKET_HANDSHAKE_V2
  else if type = QUIC_PACKET_RETRY then QUIC_PACKET_RETRY_V2
  else QUIC_PACKET_INVALID

-- `quic_put_int`: `len` bytes of `num`, most significant first. The C returns NULL for
-- other lengths; no caller here passes one.
def quicPutInt (num : Nat) : Nat → List UInt8
  | 1 => putBe 1 num
  | 2 => putBe 2 num
  | 4 => putBe 4 num
  | 8 => putBe 8 num
  | _ => []

-- `quic_get_int` on the `*plen` bytes at `*pp`: the value and the bytes after it, or `none`
-- where the C returns 0.
def quicGetInt (buf : List UInt8) (len : Nat) : Option (Nat × List UInt8) :=
  if buf.length < len then none
  else match len with
    | 1 | 2 | 3 | 4 | 8 => some (getBe (buf.take len), buf.drop len)
    | _ => none

-- `struct quic_conn_id`: at most `QUIC_CONN_ID_MAX_LEN` bytes.
structure QuicConnId where
  data : List UInt8
  len_le : data.length ≤ QUIC_CONN_ID_MAX_LEN
  deriving DecidableEq

-- `QUIC_LONG_HLEN`: the long header up to the end of the Source Connection ID.
def QUIC_LONG_HLEN (dcid scid : QuicConnId) : Nat :=
  QUIC_HLEN + QUIC_VERSION_LEN + 1 + dcid.data.length + 1 + scid.data.length

/- Receive side. -/

-- One connection ID of `quic_packet_get_version_and_connid`: its length byte, checked against
-- the bytes left and `QUIC_CONN_ID_MAX_LEN`, then `quic_conn_id_update`.
def quicPacketGetConnId (p : List UInt8) : Except (Int × Nat) (QuicConnId × List UInt8) :=
  match quicGetInt p 1 with
  | none => .error (-EINVAL, 0)
  | some (len, p) =>
    if h : len > p.length ∨ len > QUIC_CONN_ID_MAX_LEN then .error (-EINVAL, 0)
    else
      have hlen : len ≤ QUIC_CONN_ID_MAX_LEN := Nat.le_of_not_lt fun hlt => h (.inr hlt)
      .ok (⟨p.take len, Nat.le_trans (List.length_take_le len p) hlen⟩, p.drop len)

-- `quic_packet_get_version_and_connid` on the packet's bytes: the version, DCID and SCID, and
-- the bytes after them.
def quicPacketGetVersionAndConnid (buf : List UInt8) :
    Except (Int × Nat) (Nat × QuicConnId × QuicConnId × List UInt8) := do
  let p := buf.drop QUIC_HLEN
  let some (version, p) := quicGetInt p QUIC_VERSION_LEN | .error (-EINVAL, 0)
  let (dcid, p) ← quicPacketGetConnId p
  let (scid, p) ← quicPacketGetConnId p
  pure (version, dcid, scid, p)

-- `quic_packet_get_token`: a varint length, checked against the bytes left, then the token.
def quicPacketGetToken (p : List UInt8) : Except (Int × Nat) (List UInt8 × List UInt8) :=
  match quicGetVar p with
  | none => .error (-EINVAL, 0)
  | some (len, p) => if len > p.length then .error (-EINVAL, 0) else .ok (p.take len, p.drop len)

-- The `type` bits of `struct quichshdr` in the first byte.
def quicHshdrType (b : UInt8) : Nat := b.toNat / 16 % 4

-- What `quic_packet_handshake_header_process` reads besides the packet: the socket's role and
-- negotiated version, whether Handshake and 0-RTT keys can decrypt yet, and what the calls it
-- makes return: `backlog` that `quic_packet_backlog_schedule` took the packet to the work
-- queue, `versionChange` what installing new Initial keys returned.
structure QuicHsRecv where
  isServ : Bool
  version : Nat
  handshakeReady : Bool
  earlyReady : Bool
  backlog : Bool
  versionChange : Int
  deriving DecidableEq, Repr

-- How the header processing ends: the packet is consumed here (`packet->level` stays 0), or it
-- is to be decrypted at `level`, with the token read and `cb->length`, `cb->number_offset`.
inductive QuicHsNext
  | versionProcess
  | retryProcess
  | scheduled
  | inqBacklog
  | decrypt (type : Nat) (token : List UInt8) (level length numberOffset : Nat)
  deriving DecidableEq, Repr

-- `packet->dcid`, `packet->scid` and the version read, and how the processing goes on.
structure QuicHsHeader where
  dcid : QuicConnId
  scid : QuicConnId
  version : Nat
  next : QuicHsNext
  deriving DecidableEq

-- The Length field, after the level of a packet to decrypt is known.
def quicPacketGetLength (buf p : List UInt8) (type : Nat) (token : List UInt8) (level : Nat) :
    Except (Int × Nat) QuicHsNext :=
  match quicGetVar p with
  | none => .error (-EINVAL, 0)
  | some (length, p) =>
    if length > p.length then .error (-EINVAL, 0)
    else .ok (.decrypt type token level (length % 2 ^ 16) ((buf.length - p.length) % 2 ^ 16))

-- The `switch (type)` of `quic_packet_handshake_header_process`, on the bytes `p` after the
-- Source Connection ID.
def quicPacketHandshakeSwitch (r : QuicHsRecv) (buf p : List UInt8) (type : Nat) :
    Except (Int × Nat) QuicHsNext :=
  if type = QUIC_PACKET_INITIAL then do
    let (token, p) ← quicPacketGetToken p
    -- rfc9000#section-17.2.2: a server's Initial carries no token
    if !r.isServ ∧ token.length ≠ 0 then throw (-EINVAL, QUIC_TRANSPORT_ERROR_PROTOCOL_VIOLATION)
    quicPacketGetLength buf p type token QUIC_CRYPTO_INITIAL
  else if type = QUIC_PACKET_HANDSHAKE then
    if !r.handshakeReady then pure .inqBacklog
    else quicPacketGetLength buf p type [] QUIC_CRYPTO_HANDSHAKE
  else if type = QUIC_PACKET_0RTT then
    if !r.earlyReady then pure .inqBacklog
    else quicPacketGetLength buf p type [] QUIC_CRYPTO_EARLY
  else if type = QUIC_PACKET_RETRY then pure (if r.backlog then .scheduled else .retryProcess)
  else throw (-EINVAL, 0)

-- `quic_packet_handshake_header_process` on the bytes of one long-header packet and the rest
-- of its datagram (`skb->data`, `skb->len`), with header protection already removed. Errors
-- carry the `packet->errcode` set.
def quicPacketHandshakeHeaderProcess (r : QuicHsRecv) (buf : List UInt8) :
    Except (Int × Nat) QuicHsHeader := do
  let (version, dcid, scid, p) ← quicPacketGetVersionAndConnid buf
  let hdr (next : QuicHsNext) : QuicHsHeader := ⟨dcid, scid, version, next⟩
  -- version 0 is a Version Negotiation packet
  if version = 0 then
    return hdr (if r.backlog then .scheduled else .versionProcess)
  let type := quicPacketVersionGetType version (quicHshdrType (buf.headD 0))
  if version ≠ r.version then
    if type ≠ QUIC_PACKET_INITIAL ∨ quicPacketCompatibleVersions version = none then
      throw (-EINVAL, 0)
    if r.backlog then return hdr .scheduled
    if r.versionChange ≠ 0 then throw (r.versionChange, 0)
  hdr <$> quicPacketHandshakeSwitch r buf p type

/- Send side. -/

-- What `quic_packet_config` and `quic_packet_handshake_create` read of the socket: its role,
-- the active destination ID and the alternative one `quic_conn_id_choose` takes on path 1, the
-- active source ID, `quic_token(sk)`, the peer's grease_quic_bit parameter and the PLPMTUD
-- probe interval.
structure QuicHsSock where
  isServ : Bool
  dest : QuicConnId
  destAlt : Option QuicConnId
  source : QuicConnId
  token : List UInt8
  greaseQuicBit : Bool
  plpmtudInterval : Nat
  deriving DecidableEq

def quicConnIdChoose (sk : QuicHsSock) (alt : Nat) : QuicConnId :=
  match sk.destAlt with
  | some id => if alt ≠ 0 then id else sk.dest
  | none => sk.dest

-- A frame handed to `quic_packet_tail`: the fields it checks, and the bytes
-- `quic_packet_pack_frames` writes for it (`frame->data`, then its fragments).
structure QuicTxFrame where
  level : Nat
  path : Nat
  dgram : Bool
  ping : Bool
  padding : Bool
  ackEliciting : Bool
  data : List UInt8
  deriving DecidableEq, Repr

-- `frame->len`, the length with the appended fragments.
def QuicTxFrame.len (frame : QuicTxFrame) : Nat := frame.data.length

-- `struct quic_packet` on the send side. The two-entry arrays `taglen` (short, long header)
-- and `mss` (normal, datagram) are kept as two fields each.
structure QuicPacket where
  frameList : List QuicTxFrame
  frameLen : Nat
  taglenShort : Nat
  taglenLong : Nat
  version : Nat
  overhead : Nat
  frames : Nat
  mssNormal : Nat
  mssDgram : Nat
  len : Nat
  ackEliciting : Bool
  ipfragok : Bool
  padding : Bool
  path : Nat
  level : Nat
  deriving DecidableEq, Repr

def quicPacketInit : QuicPacket :=
  { frameList := [], frameLen := 0, taglenShort := QUIC_TAG_LEN, taglenLong := QUIC_TAG_LEN,
    version := QUIC_VERSION_V1, overhead := 0, frames := 0, mssNormal := QUIC_MIN_UDP_PAYLOAD,
    mssDgram := QUIC_MIN_UDP_PAYLOAD, len := 0, ackEliciting := false, ipfragok := false,
    padding := false, path := 0, level := 0 }

def quicPacketTaglen (packet : QuicPacket) : Nat :=
  if packet.level ≠ QUIC_CRYPTO_APP then packet.taglenLong else packet.taglenShort

def QuicPacket.mss (packet : QuicPacket) (dgram : Bool) : Nat :=
  if dgram then packet.mssDgram else packet.mssNormal

-- The header length `quic_packet_config` counts for `level` on `path`, before it is stored in
-- the u16 `len` and the u8 `overhead`.
def quicPacketConfigHlen (sk : QuicHsSock) (level path : Nat) : Nat :=
  let hlen := QUIC_HLEN + QUIC_PACKET_NUMBER_LEN + (quicConnIdChoose sk path).data.length
  if level = 0 then hlen
  else
    hlen + 1 + (1 + sk.source.data.length) +
      (if level = QUIC_CRYPTO_INITIAL then quicVarLen sk.token.length + sk.token.length else 0) +
      QUIC_VERSION_LEN + QUIC_PACKET_LENGTH_LEN

-- `quic_packet_config`, without the routing and MSS update of `quic_packet_route`.
def quicPacketConfig (sk : QuicHsSock) (packet : QuicPacket) (level path : Nat) : QuicPacket :=
  if packet.frameList ≠ [] then packet
  else
    let hlen := quicPacketConfigHlen sk level path
    { packet with
      ackEliciting := false, frameLen := 0, padding := false, frames := 0,
      ipfragok := level != 0 && sk.plpmtudInterval != 0,
      level := level, len := hlen % 2 ^ 16, overhead := hlen % 2 ^ 8, path := path }

-- `quic_packet_tail`: the packet with the frame appended and the frame's length, or the packet
-- unchanged and 0 where the frame is of another level or path, padding closed the packet, or
-- the frame does not fit behind what the packet already holds.
def quicPacketTail (packet : QuicPacket) (frame : QuicTxFrame) : QuicPacket × Nat :=
  if frame.level ≠ packet.level % QUIC_CRYPTO_EARLY ∨ frame.path ≠ packet.path ∨ packet.padding then
    (packet, 0)
  else
    let exceeds : Bool :=
      (packet.len + frame.len : Int) > (packet.mss frame.dgram : Int) - quicPacketTaglen packet
    if exceeds ∧ packet.len ≠ packet.overhead then (packet, 0)
    else
      let tracked := frame.ackEliciting && !frame.ping
      ({ packet with
        ipfragok := packet.ipfragok || (exceeds && !frame.ping),
        padding := packet.padding || frame.padding,
        ackEliciting := packet.ackEliciting || frame.ackEliciting,
        frames := if tracked then (packet.frames + 1) % 2 ^ 16 else packet.frames,
        frameLen := if tracked then (packet.frameLen + frame.len) % 2 ^ 16 else packet.frameLen,
        frameList := packet.frameList ++ [frame],
        len := (packet.len + frame.len) % 2 ^ 16 }, frame.len)

-- The packet type of a long-header level.
def quicPacketHandshakeType (level : Nat) : Nat :=
  if level = QUIC_CRYPTO_HANDSHAKE then QUIC_PACKET_HANDSHAKE
  else if level = QUIC_CRYPTO_EARLY then QUIC_PACKET_0RTT
  else QUIC_PACKET_INITIAL

-- The first byte of `struct quichshdr`: form, fixed bit, the 2-bit type, reserved bits 0 and
-- the packet number length less one.
def quicHshdrByte (fixed : Bool) (type : Nat) : UInt8 :=
  UInt8.ofNat (QUIC_PACKET_FORM_LONG * 128 + (if fixed then 64 else 0) + type % 4 * 16 +
    (QUIC_PACKET_NUMBER_LEN - 1))

-- The long header `quic_packet_handshake_create` writes before the Length field: only the
-- Initial packets of a client carry the token.
def quicPacketHandshakeHeader (sk : QuicHsSock) (packet : QuicPacket) : List UInt8 :=
  let fixed := if packet.level = QUIC_CRYPTO_HANDSHAKE then !sk.greaseQuicBit else true
  let type := quicPacketVersionPutType packet.version (quicPacketHandshakeType packet.level)
  let hdr := quicHshdrByte fixed type :: quicPutInt packet.version QUIC_VERSION_LEN ++
    quicPutInt sk.dest.data.length 1 ++ sk.dest.data ++
    quicPutInt sk.source.data.length 1 ++ sk.source.data
  if packet.level = QUIC_CRYPTO_INITIAL then
    let hlen := if sk.isServ then 0 else sk.token.length
    hdr ++ quicPutVar hlen ++ sk.token.take hlen
  else hdr

-- The length `quic_packet_handshake_create` pushes: an Initial that is ack-eliciting, or any
-- Initial of a client, is padded so that with its tag it fills the smallest datagram.
def quicPacketHandshakeLen (sk : QuicHsSock) (packet : QuicPacket) : Nat :=
  let hlen := QUIC_MIN_UDP_PAYLOAD - packet.taglenLong
  if (packet.ackEliciting ∨ sk.isServ = false) ∧ packet.level = QUIC_CRYPTO_INITIAL ∧
      packet.len < hlen then hlen
  else packet.len

-- The bytes `quic_packet_pack_frames` writes: the packet number, then each frame's bytes.
-- Its bookkeeping of sent frames is `Quic.StreamFrames.quicPacketPackFrames`.
def quicPacketPackFrames (packet : QuicPacket) (number : Nat) : List UInt8 :=
  quicPutInt number QUIC_PACKET_NUMBER_LEN ++ (packet.frameList.map QuicTxFrame.data).flatten

-- `quic_packet_handshake_create`: the `len` bytes of the packet before encryption adds the
-- tag, `number` being the next packet number of the level. The Length field counts from the
-- packet number to the end of the tag; `plen` padding bytes are zeroed at the end.
def quicPacketHandshakeCreate (sk : QuicHsSock) (packet : QuicPacket) (number : Nat) :
    List UInt8 :=
  let len := quicPacketHandshakeLen sk packet
  let plen := len - packet.len
  let hdr := quicPacketHandshakeHeader sk packet
  let off : Nat := (hdr.length + QUIC_PACKET_LENGTH_LEN) % 2 ^ 16
  hdr ++ quicPutVarint (toU32 ((len : Int) - off + QUIC_TAG_LEN)) QUIC_PACKET_LENGTH_LEN ++
    quicPacketPackFrames packet number ++ List.replicate plen 0

-- `quic_data_dup` into `to` (here `dst`): an empty source leaves it as it was; otherwise the copy
-- (`kmemdup`, which succeeds when `alloc`) replaces it.
def quicDataDup (dst data : List UInt8) (alloc : Bool) : List UInt8 × Int :=
  if data.length = 0 then (dst, 0)
  else if !alloc then (dst, -ENOMEM)
  else (data, 0)

-- `quic_packet_retry_process` on a Retry whose header carried `dcid` and `scid`: the token is
-- every byte between the long header and the 16-byte integrity tag, with no bound of its own.
-- `tagErr` and `tagOk` are what `quic_crypto_get_retry_tag` returns and whether its tag equals
-- the packet's, `dupAlloc` whether the token's copy is allocated, `versionChange` what
-- installing the new Initial keys returns.
def quicPacketRetryProcess (sk : QuicHsSock) (dcid scid : QuicConnId) (skb : List UInt8)
    (tagErr : Int) (tagOk dupAlloc : Bool) (versionChange : Int) : QuicHsSock × Int :=
  let hlen := QUIC_LONG_HLEN dcid scid
  let len := toU32 ((skb.length : Int) - hlen)
  if len < QUIC_TAG_LEN then (sk, -EINVAL)
  else if tagErr ≠ 0 then (sk, tagErr)
  else if !tagOk then (sk, -EINVAL)
  else
    let dup := quicDataDup sk.token ((skb.drop hlen).take (len - QUIC_TAG_LEN)) dupAlloc
    if dup.2 ≠ 0 then (sk, dup.2)
    else
      let sk := { sk with token := dup.1 }
      if versionChange ≠ 0 then (sk, versionChange)
      -- rfc9000#section-17.2.5.2: the next Initial goes to the Retry's Source Connection ID
      else ({ sk with dest := scid }, 0)

/- Reading back what the send side writes. -/

theorem quicGetInt_putBe {k : Nat} (hk : k = 1 ∨ k = 2 ∨ k = 3 ∨ k = 4 ∨ k = 8) (n : Nat)
    (rest : List UInt8) : quicGetInt (putBe k n ++ rest) k = some (n % 256 ^ k, rest) := by
  have htake : (putBe k n ++ rest).take k = putBe k n := List.take_left' (putBe_length k n)
  have hdrop : (putBe k n ++ rest).drop k = rest := List.drop_left' (putBe_length k n)
  have hlen : ¬(putBe k n ++ rest).length < k := by simp [putBe_length]
  unfold quicGetInt
  rw [if_neg hlen]
  rcases hk with rfl | rfl | rfl | rfl | rfl <;> simp only [htake, hdrop, getBe_putBe]

theorem quicPacketGetConnId_putBe (id : QuicConnId) (rest : List UInt8) :
    quicPacketGetConnId (putBe 1 id.data.length ++ (id.data ++ rest)) = .ok (id, rest) := by
  have hlen := id.len_le
  unfold QUIC_CONN_ID_MAX_LEN at hlen
  have hbyte : id.data.length % 256 ^ 1 = id.data.length := Nat.mod_eq_of_lt (by omega)
  unfold quicPacketGetConnId
  rw [quicGetInt_putBe (by decide), hbyte]
  dsimp only
  rw [dif_neg (by simp only [List.length_append, QUIC_CONN_ID_MAX_LEN]; omega)]
  simp only [List.take_left', List.drop_left']

theorem quicPacketGetVersionAndConnid_putBe (b : UInt8) {version : Nat} (hv : version < 2 ^ 32)
    (dcid scid : QuicConnId) (rest : List UInt8) :
    quicPacketGetVersionAndConnid (b :: (putBe 4 version ++ (putBe 1 dcid.data.length ++
      (dcid.data ++ (putBe 1 scid.data.length ++ (scid.data ++ rest)))))) =
      .ok (version, dcid, scid, rest) := by
  have hmod : version % 256 ^ 4 = version := Nat.mod_eq_of_lt (by omega)
  simp only [quicPacketGetVersionAndConnid, QUIC_HLEN, QUIC_VERSION_LEN, List.drop_succ_cons,
    List.drop_zero, quicGetInt_putBe (show 4 = 1 ∨ 4 = 2 ∨ 4 = 3 ∨ 4 = 4 ∨ 4 = 8 by decide), hmod,
    quicPacketGetConnId_putBe, bind, Except.bind, pure, Except.pure]

theorem quicPacketGetToken_putVar {token : List UInt8} (h : token.length < 2 ^ 62)
    (rest : List UInt8) :
    quicPacketGetToken (quicPutVar token.length ++ (token ++ rest)) = .ok (token, rest) := by
  unfold quicPacketGetToken
  rw [quicGetVar_quicPutVar, Nat.mod_eq_of_lt h]
  dsimp only
  rw [if_neg (by simp)]
  simp only [List.take_left', List.drop_left']

theorem quicHshdrType_quicHshdrByte (fixed : Bool) (type : Nat) :
    quicHshdrType (quicHshdrByte fixed type) = type % 4 := by
  have ht : type % 4 < 4 := Nat.mod_lt _ (by decide)
  unfold quicHshdrType quicHshdrByte QUIC_PACKET_FORM_LONG QUIC_PACKET_NUMBER_LEN QUIC_PN_MAX_LEN
  simp only [UInt8.toNat_ofNat', Nat.reducePow]
  split <;> omega

-- The versions this implementation speaks map the long-header types one to one.
theorem quicPacketVersionGetType_putType {version type : Nat}
    (hv : version = QUIC_VERSION_V1 ∨ version = QUIC_VERSION_V2) (ht : type < 4) :
    quicPacketVersionGetType version (quicPacketVersionPutType version type % 4) = type := by
  rcases hv with rfl | rfl <;> interval_cases type <;> decide

/- What `quic_packet_config` counts and what `quic_packet_handshake_create` writes. -/

theorem quicPacketHandshakeHeader_length (sk : QuicHsSock) (packet : QuicPacket) :
    (quicPacketHandshakeHeader sk packet).length =
      QUIC_LONG_HLEN sk.dest sk.source +
        (if packet.level = QUIC_CRYPTO_INITIAL then
          quicVarLen (if sk.isServ then 0 else sk.token.length) +
            (if sk.isServ then 0 else sk.token.length)
        else 0) := by
  have htake : (sk.token.take (if sk.isServ then 0 else sk.token.length)).length =
      if sk.isServ then 0 else sk.token.length := by
    split <;> simp
  unfold quicPacketHandshakeHeader QUIC_LONG_HLEN
  dsimp only
  by_cases hinit : packet.level = QUIC_CRYPTO_INITIAL
  · rw [if_pos hinit, if_pos hinit]
    simp only [List.length_append, List.length_cons, quicPutInt, putBe_length, quicPutVar_length,
      htake, QUIC_HLEN, QUIC_VERSION_LEN]
    omega
  · rw [if_neg hinit, if_neg hinit]
    simp only [List.length_append, List.length_cons, quicPutInt, putBe_length, QUIC_HLEN,
      QUIC_VERSION_LEN]
    omega

-- The header bytes written are those `quic_packet_config` counted, when the packet goes to the
-- active destination and only a client holds a token.
theorem quicPacketHandshakeHeader_length_config {sk : QuicHsSock} {packet : QuicPacket}
    (hlevel : packet.level ≠ 0) (hchoose : quicConnIdChoose sk packet.path = sk.dest)
    (htoken : sk.isServ = false ∨ sk.token = []) :
    (quicPacketHandshakeHeader sk packet).length + QUIC_PACKET_LENGTH_LEN + QUIC_PACKET_NUMBER_LEN =
      quicPacketConfigHlen sk packet.level packet.path := by
  rw [quicPacketHandshakeHeader_length]
  unfold quicPacketConfigHlen QUIC_LONG_HLEN
  rw [hchoose, if_neg hlevel]
  rcases htoken with hclient | hempty
  · simp only [hclient, Bool.false_eq_true, if_false]
    split <;> omega
  · cases sk.isServ <;> simp [hempty] <;> omega

-- `quic_packet_tail` either leaves the packet as it was or appends the frame and adds its
-- length, keeping the fields the header is built from.
theorem quicPacketTail_cases (packet : QuicPacket) (frame : QuicTxFrame) :
    quicPacketTail packet frame = (packet, 0) ∨
      ((quicPacketTail packet frame).1.frameList = packet.frameList ++ [frame] ∧
        (quicPacketTail packet frame).1.len = (packet.len + frame.len) % 2 ^ 16 ∧
        (quicPacketTail packet frame).1.level = packet.level ∧
        (quicPacketTail packet frame).1.path = packet.path ∧
        (quicPacketTail packet frame).1.version = packet.version ∧
        (quicPacketTail packet frame).1.overhead = packet.overhead ∧
        (quicPacketTail packet frame).1.taglenLong = packet.taglenLong) := by
  unfold quicPacketTail
  split
  · exact .inl rfl
  · dsimp only
    split
    · exact .inl rfl
    · exact .inr ⟨rfl, rfl, rfl, rfl, rfl, rfl, rfl⟩

-- A packet as `quic_packet_config` and `quic_packet_tail` leave it: its length is the header
-- `quic_packet_config` counted and the frames appended, and the long-header tag is 16 bytes.
structure QuicPacket.Built (sk : QuicHsSock) (packet : QuicPacket) : Prop where
  len_eq : packet.len = quicPacketConfigHlen sk packet.level packet.path +
    (packet.frameList.map QuicTxFrame.len).sum
  taglen_long : packet.taglenLong = QUIC_TAG_LEN

theorem quicPacketConfig_built {sk : QuicHsSock} {packet : QuicPacket} {level path : Nat}
    (hempty : packet.frameList = []) (hfit : quicPacketConfigHlen sk level path < 2 ^ 16)
    (htag : packet.taglenLong = QUIC_TAG_LEN) :
    (quicPacketConfig sk packet level path).Built sk := by
  have hconfig : quicPacketConfig sk packet level path =
      { packet with
        ackEliciting := false, frameLen := 0, padding := false, frames := 0,
        ipfragok := level != 0 && sk.plpmtudInterval != 0, level := level,
        len := quicPacketConfigHlen sk level path % 2 ^ 16,
        overhead := quicPacketConfigHlen sk level path % 2 ^ 8, path := path } := by
    simp [quicPacketConfig, hempty]
  rw [hconfig]
  exact ⟨by simpa [hempty] using hfit, htag⟩

theorem quicPacketTail_built {sk : QuicHsSock} {packet : QuicPacket} (frame : QuicTxFrame)
    (hbuilt : packet.Built sk) (hfit : packet.len + frame.len < 2 ^ 16) :
    (quicPacketTail packet frame).1.Built sk := by
  rcases quicPacketTail_cases packet frame with h | ⟨hlist, hlen, hlevel, hpath, -, -, htag⟩
  · rw [h]
    exact hbuilt
  · constructor
    · rw [hlen, hlist, hlevel, hpath, Nat.mod_eq_of_lt hfit, hbuilt.len_eq]
      simp only [List.map_append, List.sum_append, List.map_cons, List.map_nil, List.sum_cons,
        List.sum_nil]
      omega
    · rw [htag]
      exact hbuilt.taglen_long

theorem quicPacketTail_len_le (packet : QuicPacket) (frame : QuicTxFrame) :
    (quicPacketTail packet frame).1.len ≤ packet.len + frame.len := by
  rcases quicPacketTail_cases packet frame with h | ⟨-, hlen, -⟩
  · rw [h]
    exact Nat.le_add_right _ _
  · rw [hlen]
    exact Nat.mod_le _ _

-- The frames queued behind `quic_packet_config`, one `quic_packet_tail` after the other, as
-- long as the u16 length does not wrap.
theorem quicPacketTail_foldl_built {sk : QuicHsSock} :
    ∀ (frames : List QuicTxFrame) {packet : QuicPacket}, packet.Built sk →
      packet.len + (frames.map QuicTxFrame.len).sum < 2 ^ 16 →
      (frames.foldl (fun p f => (quicPacketTail p f).1) packet).Built sk
  | [], _, hbuilt, _ => hbuilt
  | frame :: frames, packet, hbuilt, hfit => by
    have hle := quicPacketTail_len_le packet frame
    simp only [List.map_cons, List.sum_cons] at hfit
    have hnext : (quicPacketTail packet frame).1.len + (frames.map QuicTxFrame.len).sum < 2 ^ 16 := by
      omega
    exact quicPacketTail_foldl_built frames (quicPacketTail_built frame hbuilt (by omega)) hnext

theorem quicPacketHandshakeLen_ge (sk : QuicHsSock) (packet : QuicPacket) :
    packet.len ≤ quicPacketHandshakeLen sk packet := by
  unfold quicPacketHandshakeLen
  dsimp only
  split <;> omega

theorem length_flatten_data (frames : List QuicTxFrame) :
    (frames.map QuicTxFrame.data).flatten.length = (frames.map QuicTxFrame.len).sum := by
  induction frames with
  | nil => rfl
  | cons frame frames ih => simp [ih, QuicTxFrame.len]

-- The header split at its fields; the first byte holds the type as the version writes it.
theorem quicPacketHandshakeHeader_append (sk : QuicHsSock) (packet : QuicPacket)
    (rest : List UInt8) :
    ∃ b, quicHshdrType b =
        quicPacketVersionPutType packet.version (quicPacketHandshakeType packet.level) % 4 ∧
      quicPacketHandshakeHeader sk packet ++ rest =
        b :: (putBe 4 packet.version ++ (putBe 1 sk.dest.data.length ++ (sk.dest.data ++
          (putBe 1 sk.source.data.length ++ (sk.source.data ++
            ((if packet.level = QUIC_CRYPTO_INITIAL then
              quicPutVar (if sk.isServ then 0 else sk.token.length) ++
                sk.token.take (if sk.isServ then 0 else sk.token.length)
            else []) ++ rest)))))) := by
  refine ⟨quicHshdrByte (if packet.level = QUIC_CRYPTO_HANDSHAKE then !sk.greaseQuicBit else true)
    (quicPacketVersionPutType packet.version (quicPacketHandshakeType packet.level)),
    quicHshdrType_quicHshdrByte _ _, ?_⟩
  unfold quicPacketHandshakeHeader
  dsimp only
  split <;> simp [quicPutInt, QUIC_VERSION_LEN]

-- What `quic_packet_handshake_create` writes for a built packet: the header, the Length field
-- counting from the packet number to the end of the tag, the packet number, the frames and
-- the padding.
theorem quicPacketHandshakeCreate_eq {sk : QuicHsSock} {packet : QuicPacket} (number : Nat)
    (hbuilt : packet.Built sk) (hlevel : packet.level ≠ 0)
    (hchoose : quicConnIdChoose sk packet.path = sk.dest)
    (htoken : sk.isServ = false ∨ sk.token = [])
    (hfit : quicPacketHandshakeLen sk packet + QUIC_TAG_LEN < 2 ^ 16) :
    quicPacketHandshakeCreate sk packet number =
      quicPacketHandshakeHeader sk packet ++
        (quicPutVarint (quicPacketHandshakeLen sk packet + QUIC_TAG_LEN -
            ((quicPacketHandshakeHeader sk packet).length + QUIC_PACKET_LENGTH_LEN))
          QUIC_PACKET_LENGTH_LEN ++
        (putBe 4 number ++ ((packet.frameList.map QuicTxFrame.data).flatten ++
          List.replicate (quicPacketHandshakeLen sk packet - packet.len) 0))) := by
  have hhdr := quicPacketHandshakeHeader_length_config hlevel hchoose htoken
  have hlen := hbuilt.len_eq
  have hge := quicPacketHandshakeLen_ge sk packet
  unfold QUIC_PACKET_LENGTH_LEN QUIC_PACKET_NUMBER_LEN QUIC_PN_MAX_LEN at hhdr
  unfold QUIC_TAG_LEN at hfit
  have hoff : ((quicPacketHandshakeHeader sk packet).length + QUIC_PACKET_LENGTH_LEN) % 2 ^ 16 =
      (quicPacketHandshakeHeader sk packet).length + QUIC_PACKET_LENGTH_LEN := by
    unfold QUIC_PACKET_LENGTH_LEN
    exact Nat.mod_eq_of_lt (by omega)
  have hvalue : toU32 ((quicPacketHandshakeLen sk packet : Int) -
        ((quicPacketHandshakeHeader sk packet).length + QUIC_PACKET_LENGTH_LEN : Nat) + QUIC_TAG_LEN) =
      quicPacketHandshakeLen sk packet + QUIC_TAG_LEN -
        ((quicPacketHandshakeHeader sk packet).length + QUIC_PACKET_LENGTH_LEN) := by
    unfold QUIC_PACKET_LENGTH_LEN QUIC_TAG_LEN
    rw [← toU32_natCast (n := quicPacketHandshakeLen sk packet + 16 -
      ((quicPacketHandshakeHeader sk packet).length + 4)) (by omega)]
    congr 1
    omega
  unfold quicPacketHandshakeCreate
  dsimp only
  rw [hoff, hvalue]
  simp only [quicPacketPackFrames, QUIC_PACKET_NUMBER_LEN, QUIC_PN_MAX_LEN, quicPutInt,
    List.append_assoc]

theorem quicPacketHandshakeCreate_length {sk : QuicHsSock} {packet : QuicPacket} (number : Nat)
    (hbuilt : packet.Built sk) (hlevel : packet.level ≠ 0)
    (hchoose : quicConnIdChoose sk packet.path = sk.dest)
    (htoken : sk.isServ = false ∨ sk.token = [])
    (hfit : quicPacketHandshakeLen sk packet + QUIC_TAG_LEN < 2 ^ 16) :
    (quicPacketHandshakeCreate sk packet number).length = quicPacketHandshakeLen sk packet := by
  have hhdr := quicPacketHandshakeHeader_length_config hlevel hchoose htoken
  have hlen := hbuilt.len_eq
  have hge := quicPacketHandshakeLen_ge sk packet
  rw [quicPacketHandshakeCreate_eq number hbuilt hlevel hchoose htoken hfit]
  simp only [List.length_append, quicPutVarint, QUIC_PACKET_LENGTH_LEN, orFirst, putBe,
    List.length_cons, List.length_nil, length_flatten_data, List.length_replicate]
  unfold QUIC_PACKET_LENGTH_LEN QUIC_PACKET_NUMBER_LEN QUIC_PN_MAX_LEN at hhdr
  omega

/- The receiving side reads back what was written. -/

theorem quicPacketGetLength_putVarint (buf : List UInt8) {v : Nat} (hv : v < 2 ^ 30)
    {rest : List UInt8} (hrest : v ≤ rest.length) (type : Nat) (token : List UInt8)
    (level : Nat) :
    quicPacketGetLength buf (quicPutVarint v 4 ++ rest) type token level =
      .ok (.decrypt type token level (v % 2 ^ 16) ((buf.length - rest.length) % 2 ^ 16)) := by
  unfold quicPacketGetLength
  rw [show quicPutVarint v 4 = orFirst QUIC_VARINT_4BYTE_PREFIX (putBe 4 v) from rfl,
    quicGetVar_orFirst_putBe_four hv]
  dsimp only
  rw [if_neg (by omega)]

theorem quicPacketHandshakeHeaderProcess_of_parse {r : QuicHsRecv} {buf p : List UInt8}
    {version : Nat} {dcid scid : QuicConnId}
    (hparse : quicPacketGetVersionAndConnid buf = .ok (version, dcid, scid, p))
    (hv0 : version ≠ 0) (hv : version = r.version) :
    quicPacketHandshakeHeaderProcess r buf =
      (fun next => (⟨dcid, scid, version, next⟩ : QuicHsHeader)) <$>
        quicPacketHandshakeSwitch r buf p
          (quicPacketVersionGetType version (quicHshdrType (buf.headD 0))) := by
  subst hv
  simp [quicPacketHandshakeHeaderProcess, hparse, hv0, bind, Except.bind]

-- An Initial: the token is read, and a client takes only an empty one.
theorem quicPacketHandshakeSwitch_initial {r : QuicHsRecv} (buf : List UInt8) {n : Nat}
    {token rest : List UInt8} (hn : n = token.length) (htoken : token.length < 2 ^ 62)
    (hclient : r.isServ = false → token = []) {v : Nat} (hv : v < 2 ^ 30)
    (hrest : v ≤ rest.length) :
    quicPacketHandshakeSwitch r buf (quicPutVar n ++ (token ++ (quicPutVarint v 4 ++ rest)))
        QUIC_PACKET_INITIAL =
      .ok (.decrypt QUIC_PACKET_INITIAL token QUIC_CRYPTO_INITIAL (v % 2 ^ 16)
        ((buf.length - rest.length) % 2 ^ 16)) := by
  have hcheck : ¬((!r.isServ) = true ∧ token.length ≠ 0) := by
    cases hserv : r.isServ
    · simp [hclient hserv]
    · simp
  rw [hn]
  simp only [quicPacketHandshakeSwitch, if_true, quicPacketGetToken_putVar htoken, bind,
    Except.bind]
  rw [if_neg hcheck]
  exact quicPacketGetLength_putVarint buf hv hrest _ _ _

theorem quicPacketHandshakeSwitch_handshake {r : QuicHsRecv} (buf : List UInt8)
    {rest : List UInt8} (hready : r.handshakeReady = true) {v : Nat} (hv : v < 2 ^ 30)
    (hrest : v ≤ rest.length) :
    quicPacketHandshakeSwitch r buf (quicPutVarint v 4 ++ rest) QUIC_PACKET_HANDSHAKE =
      .ok (.decrypt QUIC_PACKET_HANDSHAKE [] QUIC_CRYPTO_HANDSHAKE (v % 2 ^ 16)
        ((buf.length - rest.length) % 2 ^ 16)) := by
  simp only [quicPacketHandshakeSwitch, QUIC_PACKET_HANDSHAKE, QUIC_PACKET_INITIAL,
    QUIC_PACKET_HANDSHAKE_V1, QUIC_PACKET_INITIAL_V1, hready]
  exact quicPacketGetLength_putVarint buf hv hrest _ _ _

theorem quicPacketHandshakeSwitch_early {r : QuicHsRecv} (buf : List UInt8)
    {rest : List UInt8} (hready : r.earlyReady = true) {v : Nat} (hv : v < 2 ^ 30)
    (hrest : v ≤ rest.length) :
    quicPacketHandshakeSwitch r buf (quicPutVarint v 4 ++ rest) QUIC_PACKET_0RTT =
      .ok (.decrypt QUIC_PACKET_0RTT [] QUIC_CRYPTO_EARLY (v % 2 ^ 16)
        ((buf.length - rest.length) % 2 ^ 16)) := by
  simp only [quicPacketHandshakeSwitch, QUIC_PACKET_0RTT, QUIC_PACKET_HANDSHAKE,
    QUIC_PACKET_INITIAL, QUIC_PACKET_0RTT_V1, QUIC_PACKET_HANDSHAKE_V1, QUIC_PACKET_INITIAL_V1,
    hready]
  exact quicPacketGetLength_putVarint buf hv hrest _ _ _

-- The round trip: the receiving side of a long-header packet built by `quic_packet_config`,
-- `quic_packet_tail` and `quic_packet_handshake_create`, with protection taken as the identity
-- plus the tag, reads back the version, the type, both connection IDs and the token, and its
-- Length field and packet number offset say where the packet number and the tag end.
theorem quicPacketHandshakeHeaderProcess_create {sk : QuicHsSock} {packet : QuicPacket}
    {r : QuicHsRecv} (number : Nat) {tag : List UInt8} (rest : List UInt8)
    (hlevel : packet.level = QUIC_CRYPTO_INITIAL ∨ packet.level = QUIC_CRYPTO_HANDSHAKE ∨
      packet.level = QUIC_CRYPTO_EARLY)
    (hversion : packet.version = QUIC_VERSION_V1 ∨ packet.version = QUIC_VERSION_V2)
    (hbuilt : packet.Built sk) (hchoose : quicConnIdChoose sk packet.path = sk.dest)
    (htoken : sk.isServ = false ∨ sk.token = [])
    (hfit : quicPacketHandshakeLen sk packet + QUIC_TAG_LEN < 2 ^ 16)
    (htag : tag.length = QUIC_TAG_LEN) (hrecv : r.version = packet.version)
    (hrole : r.isServ = !sk.isServ)
    (hready : (packet.level = QUIC_CRYPTO_HANDSHAKE → r.handshakeReady = true) ∧
      (packet.level = QUIC_CRYPTO_EARLY → r.earlyReady = true)) :
    quicPacketHandshakeHeaderProcess r (quicPacketHandshakeCreate sk packet number ++ tag ++ rest) =
      .ok ⟨sk.dest, sk.source, packet.version,
        .decrypt (quicPacketHandshakeType packet.level)
          (if packet.level = QUIC_CRYPTO_INITIAL ∧ sk.isServ = false then sk.token else [])
          packet.level
          (quicPacketHandshakeLen sk packet + QUIC_TAG_LEN -
            ((quicPacketHandshakeHeader sk packet).length + QUIC_PACKET_LENGTH_LEN))
          ((quicPacketHandshakeHeader sk packet).length + QUIC_PACKET_LENGTH_LEN)⟩ := by
  have hlevel0 : packet.level ≠ 0 := by
    rcases hlevel with h | h | h <;> rw [h] <;> decide
  have hhdr := quicPacketHandshakeHeader_length_config hlevel0 hchoose htoken
  have hlen := hbuilt.len_eq
  have hge := quicPacketHandshakeLen_ge sk packet
  unfold QUIC_PACKET_LENGTH_LEN QUIC_PACKET_NUMBER_LEN QUIC_PN_MAX_LEN at hhdr
  unfold QUIC_TAG_LEN at hfit htag
  unfold QUIC_PACKET_LENGTH_LEN QUIC_TAG_LEN
  -- the bytes after the Length field, and the value it holds
  generalize hv : quicPacketHandshakeLen sk packet + 16 -
    ((quicPacketHandshakeHeader sk packet).length + 4) = v
  generalize htail : putBe 4 number ++ ((packet.frameList.map QuicTxFrame.data).flatten ++
    (List.replicate (quicPacketHandshakeLen sk packet - packet.len) 0 ++ (tag ++ rest))) = tail
  have htaillen : tail.length = v + rest.length := by
    rw [← htail, ← hv]
    simp only [List.length_append, putBe_length, length_flatten_data, List.length_replicate, htag]
    omega
  have hbuf : quicPacketHandshakeCreate sk packet number ++ tag ++ rest =
      quicPacketHandshakeHeader sk packet ++ (quicPutVarint v 4 ++ tail) := by
    rw [quicPacketHandshakeCreate_eq number hbuilt hlevel0 hchoose htoken hfit, ← htail, ← hv]
    simp only [List.append_assoc, QUIC_PACKET_LENGTH_LEN, QUIC_TAG_LEN]
  have hbuflen : (quicPacketHandshakeHeader sk packet ++ (quicPutVarint v 4 ++ tail)).length -
      tail.length = (quicPacketHandshakeHeader sk packet).length + 4 := by
    simp only [List.length_append, quicPutVarint, orFirst, putBe, List.length_cons,
      List.length_nil]
    omega
  have hv30 : v < 2 ^ 30 := by omega
  have hvle : v ≤ tail.length := by omega
  have hvmod : v % 2 ^ 16 = v := Nat.mod_eq_of_lt (by omega)
  have hoffmod : ((quicPacketHandshakeHeader sk packet).length + 4) % 2 ^ 16 =
      (quicPacketHandshakeHeader sk packet).length + 4 := Nat.mod_eq_of_lt (by omega)
  have hversion32 : packet.version < 2 ^ 32 := by
    rcases hversion with h | h <;> rw [h] <;> decide
  have hversion0 : packet.version ≠ 0 := by
    rcases hversion with h | h <;> rw [h] <;> decide
  have htype : quicPacketHandshakeType packet.level < 4 := by
    unfold quicPacketHandshakeType
    split_ifs <;> decide
  rw [hbuf]
  obtain ⟨b, hb, hsplit⟩ := quicPacketHandshakeHeader_append sk packet (quicPutVarint v 4 ++ tail)
  generalize hB : quicPacketHandshakeHeader sk packet ++ (quicPutVarint v 4 ++ tail) = B at hsplit hbuflen
  have hparse := quicPacketGetVersionAndConnid_putBe b hversion32 sk.dest sk.source
    ((if packet.level = QUIC_CRYPTO_INITIAL then
      quicPutVar (if sk.isServ then 0 else sk.token.length) ++
        sk.token.take (if sk.isServ then 0 else sk.token.length)
    else []) ++ (quicPutVarint v 4 ++ tail))
  rw [← hsplit] at hparse
  have hhead : B.headD 0 = b := by
    rw [hsplit]
    rfl
  rw [quicPacketHandshakeHeaderProcess_of_parse hparse hversion0 hrecv.symm, hhead, hb,
    quicPacketVersionGetType_putType hversion htype]
  rcases hlevel with h | h | h
  · -- an Initial carries the client's token, and none from a server
    have htype : quicPacketHandshakeType packet.level = QUIC_PACKET_INITIAL := by
      rw [h]
      decide
    have htake : sk.token.take (if sk.isServ then 0 else sk.token.length) =
        if packet.level = QUIC_CRYPTO_INITIAL ∧ sk.isServ = false then sk.token else [] := by
      cases sk.isServ <;> simp [h]
    have hclient : r.isServ = false →
        sk.token.take (if sk.isServ then 0 else sk.token.length) = [] := by
      cases hs : sk.isServ <;> simp_all
    have htl : (sk.token.take (if sk.isServ then 0 else sk.token.length)).length < 2 ^ 62 := by
      have hhlen := hhdr
      rw [quicPacketHandshakeHeader_length, if_pos h] at hhlen
      have := List.length_take_le (if sk.isServ then 0 else sk.token.length) sk.token
      cases hs : sk.isServ
      · simp only [hs, Bool.false_eq_true, if_false] at hhlen this ⊢
        omega
      · simp only [hs, if_true] at this ⊢
        omega
    rw [if_pos h, List.append_assoc, htype,
      quicPacketHandshakeSwitch_initial B (by cases sk.isServ <;> simp) htl hclient hv30 hvle,
      hbuflen, hvmod, hoffmod, htake, h]
    rfl
  · have htype : quicPacketHandshakeType packet.level = QUIC_PACKET_HANDSHAKE := by
      rw [h]
      decide
    have hinit : ¬packet.level = QUIC_CRYPTO_INITIAL := by
      rw [h]
      decide
    rw [if_neg hinit, List.nil_append, htype,
      quicPacketHandshakeSwitch_handshake B (hready.1 h) hv30 hvle, hbuflen, hvmod, hoffmod,
      if_neg (fun hc => hinit hc.1), h]
    rfl
  · have htype : quicPacketHandshakeType packet.level = QUIC_PACKET_0RTT := by
      rw [h]
      decide
    have hinit : ¬packet.level = QUIC_CRYPTO_INITIAL := by
      rw [h]
      decide
    rw [if_neg hinit, List.nil_append, htype,
      quicPacketHandshakeSwitch_early B (hready.2 h) hv30 hvle, hbuflen, hvmod, hoffmod,
      if_neg (fun hc => hinit hc.1), h]
    rfl

-- A client's Initial fills the smallest datagram once encryption adds the tag.
theorem quicPacketHandshakeLen_client_initial {sk : QuicHsSock} {packet : QuicPacket}
    (hclient : sk.isServ = false) (hinit : packet.level = QUIC_CRYPTO_INITIAL)
    (htag : packet.taglenLong = QUIC_TAG_LEN) :
    QUIC_MIN_UDP_PAYLOAD ≤ quicPacketHandshakeLen sk packet + QUIC_TAG_LEN := by
  unfold quicPacketHandshakeLen
  rw [htag]
  simp only [hclient, hinit, or_true, true_and]
  unfold QUIC_MIN_UDP_PAYLOAD QUIC_TAG_LEN
  split <;> omega

/- The u8 `overhead`. -/

theorem quicPacketConfigHlen_le (sk : QuicHsSock) (level path : Nat) :
    quicPacketConfigHlen sk level path ≤
      QUIC_HLEN + QUIC_PACKET_NUMBER_LEN + QUIC_CONN_ID_MAX_LEN + 1 + (1 + QUIC_CONN_ID_MAX_LEN) +
        (quicVarLen sk.token.length + sk.token.length) + QUIC_VERSION_LEN +
        QUIC_PACKET_LENGTH_LEN := by
  have hdest := (quicConnIdChoose sk path).len_le
  have hsource := sk.source.len_le
  unfold quicPacketConfigHlen
  dsimp only
  split_ifs <;> omega

-- With a token no longer than the socket option and NEW_TOKEN frames take, the header fits
-- the u8 `overhead`, so `overhead` and `len` both hold the header length.
theorem quicPacketConfig_overhead {sk : QuicHsSock} {packet : QuicPacket} {level path : Nat}
    (hempty : packet.frameList = []) (htoken : sk.token.length ≤ QUIC_TOKEN_MAX_LEN) :
    (quicPacketConfig sk packet level path).overhead = quicPacketConfigHlen sk level path ∧
      (quicPacketConfig sk packet level path).len = quicPacketConfigHlen sk level path := by
  have hle := quicPacketConfigHlen_le sk level path
  have hvar : quicVarLen sk.token.length ≤ 2 := by
    unfold quicVarLen QUIC_VARINT_1BYTE_MAX QUIC_VARINT_2BYTE_MAX
    unfold QUIC_TOKEN_MAX_LEN at htoken
    split_ifs <;> omega
  unfold QUIC_HLEN QUIC_PACKET_NUMBER_LEN QUIC_PN_MAX_LEN QUIC_CONN_ID_MAX_LEN QUIC_VERSION_LEN
    QUIC_PACKET_LENGTH_LEN at hle
  unfold QUIC_TOKEN_MAX_LEN at htoken
  simp only [quicPacketConfig, hempty, ne_eq, not_true_eq_false, if_false]
  exact ⟨Nat.mod_eq_of_lt (by omega), Nat.mod_eq_of_lt (by omega)⟩

-- A client whose Initial token came from a Retry: `quic_packet_retry_process` keeps every byte
-- between the header and the tag, here 211, and the Initial header then counts 256 bytes,
-- which the u8 `overhead` holds as 0. `quic_packet_tail` takes `len != overhead` for a packet
-- that already holds frames and refuses a frame that needs IP fragmentation even as the first
-- one, which it takes once `overhead` is the header length.
theorem quicPacket_overhead_wraps :
    let sk : QuicHsSock :=
      ⟨false, ⟨List.replicate 8 1, by decide⟩, none, ⟨List.replicate 8 2, by decide⟩, [], false, 0⟩
    let r : QuicHsRecv := ⟨false, QUIC_VERSION_V1, false, false, false, 0⟩
    let retry : List UInt8 := 0xf0 :: putBe 4 QUIC_VERSION_V1 ++ putBe 1 8 ++
      List.replicate 8 2 ++ putBe 1 20 ++ List.replicate 20 3 ++ List.replicate 211 4 ++
      List.replicate 16 5
    let sk' : QuicHsSock := (quicPacketRetryProcess sk ⟨List.replicate 8 2, by decide⟩
      ⟨List.replicate 20 3, by decide⟩ retry 0 true true 0).1
    let packet : QuicPacket := quicPacketConfig sk' quicPacketInit QUIC_CRYPTO_INITIAL 0
    let frame : QuicTxFrame :=
      ⟨QUIC_CRYPTO_INITIAL, 0, false, false, false, true, List.replicate 1000 6⟩
    quicPacketHandshakeHeaderProcess r retry =
        .ok ⟨⟨List.replicate 8 2, by decide⟩, ⟨List.replicate 20 3, by decide⟩, QUIC_VERSION_V1,
          .retryProcess⟩ ∧
      sk'.token = List.replicate 211 4 ∧
      (quicPacketHandshakeHeader sk' packet).length + QUIC_PACKET_LENGTH_LEN +
        QUIC_PACKET_NUMBER_LEN = 256 ∧
      packet.len = 256 ∧ packet.overhead = 0 ∧
      quicPacketTail packet frame = (packet, 0) ∧
      (quicPacketTail { packet with overhead := 256 } frame).2 = 1000 := by
  decide +kernel

end Quic.Packet
