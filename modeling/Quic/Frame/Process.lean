import Quic.Lib.Dispatch
import Quic.Frame.Ack
import Quic.Frame.Stream
import Quic.Inqueue.Handshake
import Quic.Inqueue.FlowControl
import Quic.Outqueue.Credit
import Quic.ConnId
import Quic.Stream.Table
import Quic.Packet.Alpn

namespace Quic

/-! The frames of a decrypted packet (`quic_frame_process` and the `frame_process` entries of
`quic_frame_ops`): the loop reads a type byte, checks it against `QUIC_FRAME_MAX` and the
packet's level, hands the bytes after it to the type's handler and skips what the handler
says it took. The socket each handler reads is an environment per frame; what a handler does
to the socket beyond its return value and `frame->errcode` is not modelled here. -/

def QUIC_FRAME_PADDING : Nat := 0x00
def QUIC_FRAME_PING : Nat := 0x01
def QUIC_FRAME_RESET_STREAM : Nat := 0x04
def QUIC_FRAME_STOP_SENDING : Nat := 0x05
def QUIC_FRAME_NEW_TOKEN : Nat := 0x07
def QUIC_FRAME_MAX_DATA : Nat := 0x10
def QUIC_FRAME_MAX_STREAM_DATA : Nat := 0x11
def QUIC_FRAME_MAX_STREAMS_BIDI : Nat := 0x12
def QUIC_FRAME_MAX_STREAMS_UNI : Nat := 0x13
def QUIC_FRAME_DATA_BLOCKED : Nat := 0x14
def QUIC_FRAME_STREAM_DATA_BLOCKED : Nat := 0x15
def QUIC_FRAME_STREAMS_BLOCKED_BIDI : Nat := 0x16
def QUIC_FRAME_STREAMS_BLOCKED_UNI : Nat := 0x17
def QUIC_FRAME_NEW_CONNECTION_ID : Nat := 0x18
def QUIC_FRAME_RETIRE_CONNECTION_ID : Nat := 0x19
def QUIC_FRAME_PATH_CHALLENGE : Nat := 0x1a
def QUIC_FRAME_PATH_RESPONSE : Nat := 0x1b
def QUIC_FRAME_CONNECTION_CLOSE : Nat := 0x1c
def QUIC_FRAME_CONNECTION_CLOSE_APP : Nat := 0x1d
def QUIC_FRAME_HANDSHAKE_DONE : Nat := 0x1e
def QUIC_FRAME_DATAGRAM : Nat := 0x30
def QUIC_FRAME_DATAGRAM_LEN : Nat := 0x31
def QUIC_FRAME_MAX : Nat := QUIC_FRAME_DATAGRAM_LEN

def EPROTONOSUPPORT : Int := 93
def QUIC_TRANSPORT_ERROR_STREAM_LIMIT : Nat := 0x04
def QUIC_TRANSPORT_ERROR_STREAM_STATE : Nat := 0x05
def QUIC_CLOSE_PHRASE_MAX_LEN : Nat := 80
def QUIC_PATH_ENTROPY_LEN : Nat := 8
def QUIC_MAX_STREAMS_LIMIT : Nat := 2 ^ 60

-- What the handlers read of the socket when a frame is processed, and how the calls they make
-- that can fail turn out: `alloc` for the allocations (a frame handed to the inqueue, a stream
-- opened, a token, phrase or connection ID copied), `rmem` for the receive buffer, `transmit`
-- for every frame a handler queues in reply.
structure QuicFrameEnv where
  isServ : Bool
  nextPn : Int
  ackDelayExponent : Nat
  crypto : Handshake.QuicInqCrypto
  cryptoAlloc : Nat → Bool
  ticketEvent : Handshake.QuicTicketEvent
  streams : QuicStreamTable
  recv : Int → QuicRecvState
  stopSent : Int → Bool
  inq : QuicRecvState
  credit : StreamFrames.QuicOutqCredit
  dest : QuicConnIdSet
  source : QuicConnIdSet
  maxDatagramFrameSize : Nat
  pressure : Bool
  alloc : Bool
  rmem : Bool
  transmit : Bool

-- `quic_frame_level_valid`: the Frame Types table of RFC 9000 section 12.4.
def quicFrameLevelValid (level type : Nat) : Bool :=
  if level = QUIC_CRYPTO_APP then true
  else if level = QUIC_CRYPTO_EARLY then
    !(type == QUIC_FRAME_ACK || type == QUIC_FRAME_ACK_ECN || type == Packet.QUIC_FRAME_CRYPTO ||
      type == QUIC_FRAME_HANDSHAKE_DONE || type == QUIC_FRAME_NEW_TOKEN ||
      type == QUIC_FRAME_PATH_RESPONSE)
  else
    type == QUIC_FRAME_ACK || type == QUIC_FRAME_ACK_ECN || type == QUIC_FRAME_PADDING ||
      type == QUIC_FRAME_PING || type == Packet.QUIC_FRAME_CRYPTO ||
      type == QUIC_FRAME_CONNECTION_CLOSE

-- `quic_frame_stream_error`: a released stream (`-ENOSTR`) is skipped; otherwise the error
-- and the `frame->errcode` it sets.
def quicFrameStreamError (err : Int) : Int × Nat :=
  if err = -ENOSTR then (0, 0)
  else (err, if err = -EAGAIN then QUIC_TRANSPORT_ERROR_STREAM_LIMIT
    else QUIC_TRANSPORT_ERROR_STREAM_STATE)

namespace Ops

-- Each handler takes the frame's environment, `frame->level`, the type byte and the
-- `frame->len` bytes after it, and gives the count it returns or its negative return value
-- with `frame->errcode`.

-- The handlers that look a stream up: `quic_stream_get`, and `quic_frame_stream_error` where
-- it fails; `taken` is what the frame's fields took.
def quicFrameStreamLookup (env : QuicFrameEnv) (streamId : Nat) (send : Bool) (taken : Nat)
    (found : Except (Int × Nat) Nat) : Except (Int × Nat) Nat :=
  match (quicStreamGet env.streams streamId 0 env.isServ send env.alloc).1 with
  | .error err =>
    let r := quicFrameStreamError err
    if r.1 = 0 then .ok taken else .error r
  | .ok _ => found

-- `quic_frame_padding_process`: the zero bytes that follow.
def quicFramePaddingProcess (buf : List UInt8) : Except (Int × Nat) Nat :=
  .ok (buf.takeWhile (· == 0)).length

def quicFramePingProcess : Except (Int × Nat) Nat := .ok 0

def quicFrameAckProcess (env : QuicFrameEnv) (type : Nat) (buf : List UInt8) :
    Except (Int × Nat) Nat :=
  (Quic.quicFrameAckProcess env.nextPn env.ackDelayExponent type buf).map AckInfo.consumed

def quicFrameResetStreamProcess (env : QuicFrameEnv) (buf : List UInt8) :
    Except (Int × Nat) Nat :=
  match quicGetVar buf with
  | none => .error (-EINVAL, 0)
  | some (streamId, p) =>
    match quicGetVar p with
    | none => .error (-EINVAL, 0)
    | some (_, p) =>
      match quicGetVar p with
      | none => .error (-EINVAL, 0)
      | some (finalsz, p) =>
        let taken := buf.length - p.length
        let recv := (env.recv streamId).stream
        quicFrameStreamLookup env streamId false taken <|
          if recv.state ≥ QUIC_STREAM_RECV_STATE_RECVD then .ok taken
          else if finalsz < recv.highest ∨ (recv.finalsz ≠ 0 ∧ recv.finalsz ≠ finalsz) then
            .error (-EINVAL, QUIC_TRANSPORT_ERROR_FINAL_SIZE)
          else .ok taken

def quicFrameStopSendingProcess (env : QuicFrameEnv) (buf : List UInt8) :
    Except (Int × Nat) Nat :=
  match quicGetVar buf with
  | none => .error (-EINVAL, 0)
  | some (streamId, p) =>
    match quicGetVar p with
    | none => .error (-EINVAL, 0)
    | some (_, p) =>
      let taken := buf.length - p.length
      -- the RESET_STREAM frame sent in reply
      quicFrameStreamLookup env streamId true taken <|
        if env.transmit then .ok taken else .error (-ENOMEM, 0)

def quicFrameCryptoProcess (env : QuicFrameEnv) (level : Nat) (buf : List UInt8) :
    Except (Int × Nat) Nat :=
  (Handshake.quicFrameCryptoProcess env.crypto level buf env.alloc env.rmem env.cryptoAlloc
    env.ticketEvent).map Prod.fst

def quicFrameNewTokenProcess (env : QuicFrameEnv) (buf : List UInt8) : Except (Int × Nat) Nat :=
  if env.isServ then .error (-EINVAL, QUIC_TRANSPORT_ERROR_PROTOCOL_VIOLATION)
  else
    match quicGetVar buf with
    | none => .error (-EINVAL, 0)
    | some (length, p) =>
      if length > p.length ∨ length > Packet.QUIC_TOKEN_MAX_LEN then .error (-EINVAL, 0)
      -- `quic_data_dup` copies a non-empty token
      else if length ≠ 0 ∧ !env.alloc then .error (-ENOMEM, 0)
      else .ok (buf.length - (p.length - length))

def quicFrameStreamProcess (env : QuicFrameEnv) (level type : Nat) (buf : List UInt8) :
    Except (Int × Nat) Nat :=
  match Frame.quicFrameStreamProcess type buf with
  | .error err => .error (err, 0)
  | .ok r =>
    quicFrameStreamLookup env r.streamId false r.consumed <|
      if env.stopSent r.streamId then .ok r.consumed
      else
        match Quic.quicFrameStreamProcess (env.recv r.streamId)
            ⟨r.offset, r.payload.length, r.fin, level⟩ env.alloc env.rmem with
        | .error e => .error e
        | .ok _ => .ok r.consumed

def quicFrameMaxDataProcess (env : QuicFrameEnv) (buf : List UInt8) : Except (Int × Nat) Nat :=
  match StreamFrames.quicFrameMaxDataProcess env.credit buf with
  | .error err => .error (err, 0)
  | .ok r => .ok r.2

def quicFrameMaxStreamDataProcess (env : QuicFrameEnv) (buf : List UInt8) :
    Except (Int × Nat) Nat :=
  match quicGetVar buf with
  | none => .error (-EINVAL, 0)
  | some (streamId, p) =>
    match quicGetVar p with
    | none => .error (-EINVAL, 0)
    | some (_, p) =>
      let taken := buf.length - p.length
      quicFrameStreamLookup env streamId true taken (.ok taken)

-- `quic_frame_max_streams_uni_process` and `_bidi_`: they differ only in which limit they raise.
def quicFrameMaxStreamsProcess (buf : List UInt8) : Except (Int × Nat) Nat :=
  match quicGetVar buf with
  | none => .error (-EINVAL, 0)
  | some (max, p) =>
    if max > QUIC_MAX_STREAMS_LIMIT then .error (-EINVAL, QUIC_TRANSPORT_ERROR_FRAME_ENCODING)
    else .ok (buf.length - p.length)

def quicFrameMaxStreamsUniProcess (buf : List UInt8) : Except (Int × Nat) Nat :=
  quicFrameMaxStreamsProcess buf

def quicFrameMaxStreamsBidiProcess (buf : List UInt8) : Except (Int × Nat) Nat :=
  quicFrameMaxStreamsProcess buf

def quicFrameDataBlockedProcess (env : QuicFrameEnv) (buf : List UInt8) :
    Except (Int × Nat) Nat :=
  match quicGetVar buf with
  | none => .error (-EINVAL, 0)
  | some (_, p) =>
    match Quic.quicFrameDataBlockedProcess env.inq env.pressure env.transmit with
    | .error err => .error (err, 0)
    | .ok _ => .ok (buf.length - p.length)

def quicFrameStreamDataBlockedProcess (env : QuicFrameEnv) (buf : List UInt8) :
    Except (Int × Nat) Nat :=
  match quicGetVar buf with
  | none => .error (-EINVAL, 0)
  | some (streamId, p) =>
    match quicGetVar p with
    | none => .error (-EINVAL, 0)
    | some (_, p) =>
      let taken := buf.length - p.length
      quicFrameStreamLookup env streamId false taken <|
        match Quic.quicFrameStreamDataBlockedProcess (env.recv streamId) env.pressure
            env.transmit with
        | .error err => .error (err, 0)
        | .ok _ => .ok taken

-- `quic_frame_streams_blocked_uni_process` and `_bidi_`: a MAX_STREAMS frame with the
-- current limit of the direction is sent unless the peer asks for more than it.
def quicFrameStreamsBlockedProcess (env : QuicFrameEnv) (uni : Bool) (buf : List UInt8) :
    Except (Int × Nat) Nat :=
  match quicGetVar buf with
  | none => .error (-EINVAL, 0)
  | some (max, p) =>
    let taken := buf.length - p.length
    if max > quicStreamIdToStreams (env.streams.recv.dir uni).maxStreamId then .ok taken
    else if env.transmit then .ok taken else .error (-ENOMEM, 0)

def quicFrameStreamsBlockedUniProcess (env : QuicFrameEnv) (buf : List UInt8) :
    Except (Int × Nat) Nat :=
  quicFrameStreamsBlockedProcess env true buf

def quicFrameStreamsBlockedBidiProcess (env : QuicFrameEnv) (buf : List UInt8) :
    Except (Int × Nat) Nat :=
  quicFrameStreamsBlockedProcess env false buf

def quicFrameNewConnIdProcess (env : QuicFrameEnv) (buf : List UInt8) :
    Except (Int × Nat) Nat :=
  match quicGetVar buf with
  | none => .error (-EINVAL, 0)
  | some (seqno, p) =>
    if seqno > U32_MAX then .error (-EINVAL, 0)
    else
      match quicGetVar p with
      | none => .error (-EINVAL, 0)
      | some (prior, p) =>
        match quicGetVar p with
        | none => .error (-EINVAL, 0)
        | some (length, p) =>
          if length = 0 ∨ length > QUIC_CONN_ID_MAX_LEN ∨
              length + QUIC_CONN_ID_TOKEN_LEN > p.length then .error (-EINVAL, 0)
          else
            match Quic.quicFrameNewConnIdProcess env.dest seqno prior with
            | .error e => .error e
            | .ok _ =>
              let first := quicConnIdFirstNumber env.dest
              -- `quic_conn_id_add` allocates an entry for a number not on the list, and the
              -- RETIRE_CONNECTION_ID frames for an increased Retire Prior To are queued
              if first ≤ seqno ∧ seqno ∉ env.dest.numbers ∧ !env.alloc then .error (-ENOMEM, 0)
              else if prior > first ∧ !env.transmit then .error (-ENOMEM, 0)
              else .ok (buf.length - (p.length - (length + QUIC_CONN_ID_TOKEN_LEN)))

def quicFrameRetireConnIdProcess (env : QuicFrameEnv) (buf : List UInt8) :
    Except (Int × Nat) Nat :=
  match quicGetVar buf with
  | none => .error (-EINVAL, 0)
  | some (seqno, p) =>
    match Quic.quicFrameRetireConnIdProcess env.source seqno with
    | .error e => .error e
    | .ok _ =>
      let first := quicConnIdFirstNumber env.source
      let source := if seqno ≥ first then quicConnIdRemove env.source seqno else env.source
      -- the NEW_CONNECTION_ID frames `quic_outq_transmit_new_conn_id` queues
      let count := source.maxCount + quicConnIdFirstNumber source -
        (quicConnIdLastNumber source + 1)
      if count ≠ 0 ∧ !env.transmit then .error (-ENOMEM, 0)
      else .ok (buf.length - p.length)

def quicFramePathChallengeProcess (env : QuicFrameEnv) (buf : List UInt8) :
    Except (Int × Nat) Nat :=
  if buf.length < QUIC_PATH_ENTROPY_LEN then .error (-EINVAL, 0)
  -- the PATH_RESPONSE frame sent in reply
  else if !env.transmit then .error (-ENOMEM, 0)
  else .ok QUIC_PATH_ENTROPY_LEN

def quicFramePathResponseProcess (buf : List UInt8) : Except (Int × Nat) Nat :=
  if buf.length < 8 then .error (-EINVAL, 0) else .ok 8

def quicFrameConnectionCloseProcess (env : QuicFrameEnv) (level type : Nat) (buf : List UInt8) :
    Except (Int × Nat) Nat :=
  match quicGetVar buf with
  | none => .error (-EINVAL, 0)
  | some (_, p) =>
    let p := if type = QUIC_FRAME_CONNECTION_CLOSE then (quicGetVar p).map Prod.snd else some p
    match p with
    | none => .error (-EINVAL, 0)
    | some p =>
      if type = QUIC_FRAME_CONNECTION_CLOSE_APP ∧ level ≠ QUIC_CRYPTO_APP then .error (-EINVAL, 0)
      else
        match quicGetVar p with
        | none => .error (-EINVAL, 0)
        | some (phraseLen, p) =>
          if phraseLen > p.length then .error (-EINVAL, 0)
          else if phraseLen ≠ 0 ∧ phraseLen > QUIC_CLOSE_PHRASE_MAX_LEN then .error (-EINVAL, 0)
          -- the phrase kept for getsockopt
          else if phraseLen ≠ 0 ∧ !env.alloc then .error (-ENOMEM, 0)
          else .ok (buf.length - (p.length - phraseLen))

def quicFrameHandshakeDoneProcess (env : QuicFrameEnv) : Except (Int × Nat) Nat :=
  if env.isServ then .error (-EINVAL, QUIC_TRANSPORT_ERROR_PROTOCOL_VIOLATION) else .ok 0

def quicFrameInvalidProcess : Except (Int × Nat) Nat :=
  .error (-EPROTONOSUPPORT, QUIC_TRANSPORT_ERROR_FRAME_ENCODING)

def quicFrameDatagramProcess (env : QuicFrameEnv) (type : Nat) (buf : List UInt8) :
    Except (Int × Nat) Nat :=
  let fields : Option (Nat × List UInt8) :=
    if type = QUIC_FRAME_DATAGRAM_LEN then
      match quicGetVar buf with
      | none => none
      | some (payloadLen, p) => if payloadLen > p.length then none else some (payloadLen, p)
    else some (buf.length, buf)
  match fields with
  | none => .error (-EINVAL, 0)
  | some (payloadLen, p) =>
    if payloadLen + (buf.length - p.length) + 1 > env.maxDatagramFrameSize then
      .error (-EINVAL, QUIC_TRANSPORT_ERROR_PROTOCOL_VIOLATION)
    else if !env.alloc then .error (-ENOMEM, 0)
    -- `quic_inq_dgram_recv`
    else if !env.rmem then .error (-ENOBUFS, 0)
    else .ok (buf.length - (p.length - payloadLen))

end Ops

-- An entry of `quic_frame_ops`: its `frame_process` and `ack_eliciting`.
structure QuicFrameOp where
  process : QuicFrameEnv → Nat → Nat → List UInt8 → Except (Int × Nat) Nat
  ackEliciting : Bool

open Ops in
-- `quic_frame_ops`, by type; the types from 0x1f to 0x2f are the invalid entries, and the
-- loop never looks a type beyond `QUIC_FRAME_MAX` up.
def quicFrameOps (type : Nat) : QuicFrameOp :=
  if type = QUIC_FRAME_PADDING then ⟨fun _ _ _ buf => quicFramePaddingProcess buf, false⟩
  else if type = QUIC_FRAME_PING then ⟨fun _ _ _ _ => quicFramePingProcess, true⟩
  else if type = QUIC_FRAME_ACK ∨ type = QUIC_FRAME_ACK_ECN then
    ⟨fun env _ type buf => Ops.quicFrameAckProcess env type buf, false⟩
  else if type = QUIC_FRAME_RESET_STREAM then
    ⟨fun env _ _ buf => quicFrameResetStreamProcess env buf, true⟩
  else if type = QUIC_FRAME_STOP_SENDING then
    ⟨fun env _ _ buf => quicFrameStopSendingProcess env buf, true⟩
  else if type = Packet.QUIC_FRAME_CRYPTO then
    ⟨fun env level _ buf => Ops.quicFrameCryptoProcess env level buf, true⟩
  else if type = QUIC_FRAME_NEW_TOKEN then
    ⟨fun env _ _ buf => quicFrameNewTokenProcess env buf, true⟩
  else if Frame.QUIC_FRAME_STREAM ≤ type ∧ type < QUIC_FRAME_MAX_DATA then
    ⟨Ops.quicFrameStreamProcess, true⟩
  else if type = QUIC_FRAME_MAX_DATA then
    ⟨fun env _ _ buf => Ops.quicFrameMaxDataProcess env buf, true⟩
  else if type = QUIC_FRAME_MAX_STREAM_DATA then
    ⟨fun env _ _ buf => Ops.quicFrameMaxStreamDataProcess env buf, true⟩
  else if type = QUIC_FRAME_MAX_STREAMS_BIDI then
    ⟨fun _ _ _ buf => quicFrameMaxStreamsBidiProcess buf, true⟩
  else if type = QUIC_FRAME_MAX_STREAMS_UNI then
    ⟨fun _ _ _ buf => quicFrameMaxStreamsUniProcess buf, true⟩
  else if type = QUIC_FRAME_DATA_BLOCKED then
    ⟨fun env _ _ buf => Ops.quicFrameDataBlockedProcess env buf, true⟩
  else if type = QUIC_FRAME_STREAM_DATA_BLOCKED then
    ⟨fun env _ _ buf => Ops.quicFrameStreamDataBlockedProcess env buf, true⟩
  else if type = QUIC_FRAME_STREAMS_BLOCKED_BIDI then
    ⟨fun env _ _ buf => quicFrameStreamsBlockedBidiProcess env buf, true⟩
  else if type = QUIC_FRAME_STREAMS_BLOCKED_UNI then
    ⟨fun env _ _ buf => quicFrameStreamsBlockedUniProcess env buf, true⟩
  else if type = QUIC_FRAME_NEW_CONNECTION_ID then
    ⟨fun env _ _ buf => Ops.quicFrameNewConnIdProcess env buf, true⟩
  else if type = QUIC_FRAME_RETIRE_CONNECTION_ID then
    ⟨fun env _ _ buf => Ops.quicFrameRetireConnIdProcess env buf, true⟩
  else if type = QUIC_FRAME_PATH_CHALLENGE then
    ⟨fun env _ _ buf => quicFramePathChallengeProcess env buf, false⟩
  else if type = QUIC_FRAME_PATH_RESPONSE then
    ⟨fun _ _ _ buf => quicFramePathResponseProcess buf, false⟩
  else if type = QUIC_FRAME_CONNECTION_CLOSE ∨ type = QUIC_FRAME_CONNECTION_CLOSE_APP then
    ⟨quicFrameConnectionCloseProcess, false⟩
  else if type = QUIC_FRAME_HANDSHAKE_DONE then
    ⟨fun env _ _ _ => quicFrameHandshakeDoneProcess env, true⟩
  else if type = QUIC_FRAME_DATAGRAM ∨ type = QUIC_FRAME_DATAGRAM_LEN then
    ⟨fun env _ type buf => quicFrameDatagramProcess env type buf, true⟩
  else ⟨fun _ _ _ _ => quicFrameInvalidProcess, false⟩

-- The fields of `struct quic_packet` the loop sets.
structure QuicPacketInfo where
  errcode : Nat
  errframe : Nat
  hasSack : Bool
  nonProbing : Bool
  ackRequested : Bool
  ackImmediate : Bool
  deriving DecidableEq, Repr

-- `quic_packet_reset`, for these fields.
def quicPacketReset : QuicPacketInfo := ⟨0, 0, false, false, false, false⟩

-- What an accepted frame of `type` marks in the packet: an ACK-eliciting frame requests an
-- ACK, an immediate one unless it is CRYPTO or STREAM without FIN, and makes the packet
-- non-probing unless it is NEW_CONNECTION_ID; an ACK frame is noted.
def quicFrameProcessMark (packet : QuicPacketInfo) (type : Nat) : QuicPacketInfo :=
  let packet :=
    if (quicFrameOps type).ackEliciting then
      { packet with
        ackRequested := true
        ackImmediate := packet.ackImmediate ||
          (type != Packet.QUIC_FRAME_CRYPTO &&
            (!(Frame.QUIC_FRAME_STREAM ≤ type && type < QUIC_FRAME_MAX_DATA) ||
              type &&& Frame.QUIC_STREAM_BIT_FIN != 0))
        nonProbing := packet.nonProbing || type != QUIC_FRAME_NEW_CONNECTION_ID }
    else packet
  if type = QUIC_FRAME_ACK ∨ type = QUIC_FRAME_ACK_ECN then { packet with hasSack := true }
  else packet

-- One pass of the loop of `quic_frame_process`, on the type byte and the bytes after it; the
-- state is the index of the frame, which picks its environment, and the packet's fields.
def quicFrameProcessStep (env : Nat → QuicFrameEnv) (level : Nat) (s : Nat × QuicPacketInfo)
    (type : UInt8) (rest : List UInt8) :
    Except (Int × QuicPacketInfo) (Nat × (Nat × QuicPacketInfo)) :=
  let t := type.toNat
  if t > QUIC_FRAME_MAX then
    .error (-EPROTONOSUPPORT, { s.2 with errcode := QUIC_TRANSPORT_ERROR_FRAME_ENCODING })
  else if !quicFrameLevelValid level t then .error (-EINVAL, s.2)
  else
    match (quicFrameOps t).process (env s.1) level t rest with
    | .error (err, errcode) => .error (err, { s.2 with errframe := t, errcode := errcode })
    | .ok n => .ok (n, (s.1 + 1, quicFrameProcessMark s.2 t))

-- `quic_frame_process` on the `frame->len` bytes of a packet's payload at `level`: the value
-- it returns and the packet's fields after it.
def quicFrameProcess (env : Nat → QuicFrameEnv) (level : Nat) (packet : QuicPacketInfo)
    (payload : List UInt8) : Int × QuicPacketInfo :=
  if payload = [] then
    (-EINVAL, { packet with errcode := QUIC_TRANSPORT_ERROR_PROTOCOL_VIOLATION })
  else
    match Dispatch.run (quicFrameProcessStep env level) (0, packet) payload with
    | .ok s => (0, s.2)
    | .error (err, packet) => (err, packet)

end Quic

namespace Quic

/-! ## The handlers' contract -/

-- What the loop relies on in a handler's return: a negative error, or a count no larger than
-- the bytes after the type byte.
def QuicFrameRet (len : Nat) : Except (Int × Nat) Nat → Prop
  | .ok n => n ≤ len
  | .error e => e.1 < 0

section Contract

variable {len n : Nat} {err : Int} {errcode : Nat}

@[simp] theorem quicFrameRet_ok : QuicFrameRet len (.ok n) ↔ n ≤ len := Iff.rfl

@[simp] theorem quicFrameRet_error : QuicFrameRet len (.error (err, errcode)) ↔ err < 0 :=
  Iff.rfl

theorem quicStreamGet_error_neg {t : QuicStreamTable} {streamId : Int} {flags : Nat}
    {isServ send alloc : Bool} (h : (quicStreamGet t streamId flags isServ send alloc).1 = .error err) :
    err < 0 := by
  unfold quicStreamGet at h
  repeat' split at h
  all_goals first
    | (cases h; done)
    | (simp only [Except.error.injEq] at h; subst h; simp [EINVAL, ENOSTR, EAGAIN])

@[simp] theorem EINVAL_pos : 0 < EINVAL := by decide
@[simp] theorem ENOMEM_pos : 0 < ENOMEM := by decide
@[simp] theorem ENOBUFS_pos : 0 < ENOBUFS := by decide
@[simp] theorem EPROTONOSUPPORT_pos : 0 < EPROTONOSUPPORT := by decide

-- `quic_frame_ack_process` fails with -EINVAL only, and takes no more than the frame's bytes.
theorem quicFrameAckProcess_error {nextPn : Int} {ackDelayExponent type : Nat}
    {data : List UInt8} {e : Int × Nat}
    (h : quicFrameAckProcess nextPn ackDelayExponent type data = .error e) : e.1 = -EINVAL := by
  unfold quicFrameAckProcess at h
  repeat' split at h
  all_goals try dsimp only at h
  all_goals repeat' split at h
  all_goals cases h
  all_goals rfl

theorem quicFrameAckProcess_consumed_le {nextPn : Int} {ackDelayExponent type : Nat}
    {data : List UInt8} {info : AckInfo}
    (h : quicFrameAckProcess nextPn ackDelayExponent type data = .ok info) :
    info.consumed ≤ data.length := by
  unfold quicFrameAckProcess at h
  repeat' split at h
  all_goals try dsimp only at h
  all_goals repeat' split at h
  all_goals cases h
  all_goals exact Nat.sub_le _ _

-- The errors and counts of the handlers' parts modelled elsewhere.
theorem quicInqHandshakeRecv_error {s : Handshake.QuicInqCrypto} {frame : Handshake.QuicCryptoFrame}
    {rmem : Bool} {alloc : Nat → Bool} {ev : Handshake.QuicTicketEvent} {e : Int × Nat}
    (h : Handshake.quicInqHandshakeRecv s frame rmem alloc ev = .error e) :
    e.1 = -ENOBUFS := by
  unfold Handshake.quicInqHandshakeRecv at h
  repeat' first | (dsimp only at h) | (split_ifs at h) | (split at h)
  all_goals cases h
  rfl

theorem quicFrameCryptoParse_taken_le {level : Nat} {buf : List UInt8}
    {frame : Handshake.QuicCryptoFrame} {taken : Nat}
    (h : Handshake.quicFrameCryptoParse level buf = some (frame, taken)) : taken ≤ buf.length := by
  unfold Handshake.quicFrameCryptoParse at h
  repeat' split at h
  all_goals cases h
  exact Nat.sub_le _ _

theorem Frame.quicFrameStreamProcess_error {type : Nat} {buf : List UInt8} {err : Int}
    (h : Frame.quicFrameStreamProcess type buf = .error err) : err = -EINVAL := by
  unfold Frame.quicFrameStreamProcess at h
  repeat' split at h
  all_goals try dsimp only at h
  all_goals cases h
  all_goals rfl

theorem Frame.quicFrameStreamProcess_consumed_le {type : Nat} {buf : List UInt8}
    {r : Frame.QuicStreamFrameRecv} (h : Frame.quicFrameStreamProcess type buf = .ok r) :
    r.consumed ≤ buf.length := by
  unfold Frame.quicFrameStreamProcess at h
  repeat' split at h
  all_goals try dsimp only at h
  all_goals cases h
  all_goals exact Nat.sub_le _ _

theorem quicInqStreamRecv_error_neg {s : QuicRecvState} {frame : QuicRecvFrame} {rmem : Bool}
    {e : Int × Nat} (h : quicInqStreamRecv s frame rmem = .error e) : e.1 < 0 := by
  unfold quicInqStreamRecv at h
  repeat' first | (dsimp only at h) | (split_ifs at h) | (split at h)
  all_goals cases h
  all_goals simp

theorem quicFrameStreamProcess_error_neg {s : QuicRecvState} {frame : QuicRecvFrame}
    {alloc rmem : Bool} {e : Int × Nat} (h : quicFrameStreamProcess s frame alloc rmem = .error e) :
    e.1 < 0 := by
  unfold quicFrameStreamProcess at h
  split_ifs at h
  all_goals first | exact quicInqStreamRecv_error_neg h | (cases h; done) | (cases h; simp)

theorem quicFrameStreamDataBlockedProcess_error {s : QuicRecvState} {pressure transmit : Bool}
    {err : Int} (h : quicFrameStreamDataBlockedProcess s pressure transmit = .error err) :
    err = -ENOMEM := by
  unfold quicFrameStreamDataBlockedProcess at h
  repeat' first | (dsimp only at h) | (split_ifs at h) | (split at h)
  all_goals cases h
  rfl

theorem quicFrameNewConnIdProcess_error {dest : QuicConnIdSet} {seqno prior : Nat}
    {e : Int × Nat} (h : quicFrameNewConnIdProcess dest seqno prior = .error e) :
    e.1 = -EINVAL := by
  unfold quicFrameNewConnIdProcess at h
  repeat' first | (dsimp only at h) | (split_ifs at h) | (split at h)
  all_goals cases h
  all_goals rfl

theorem quicFrameRetireConnIdProcess_error {source : QuicConnIdSet} {seqno : Nat}
    {e : Int × Nat} (h : quicFrameRetireConnIdProcess source seqno = .error e) :
    e.1 = -EINVAL := by
  unfold quicFrameRetireConnIdProcess at h
  repeat' first | (dsimp only at h) | (split_ifs at h) | (split at h)
  all_goals cases h
  all_goals rfl

theorem quicFrameDataBlockedProcess_error {s : QuicRecvState} {pressure transmit : Bool}
    {err : Int} (h : quicFrameDataBlockedProcess s pressure transmit = .error err) :
    err = -ENOMEM := by
  unfold quicFrameDataBlockedProcess at h
  repeat' first | (dsimp only at h) | (split_ifs at h) | (split at h)
  all_goals cases h
  rfl

theorem StreamFrames.quicFrameMaxDataProcess_error {s : StreamFrames.QuicOutqCredit}
    {buf : List UInt8} {err : Int} (h : StreamFrames.quicFrameMaxDataProcess s buf = .error err) :
    err = -EINVAL := by
  unfold StreamFrames.quicFrameMaxDataProcess at h
  split at h
  all_goals cases h
  rfl

theorem StreamFrames.quicFrameMaxDataProcess_taken_le {s : StreamFrames.QuicOutqCredit}
    {buf : List UInt8} {r : StreamFrames.QuicOutqCredit × Nat}
    (h : StreamFrames.quicFrameMaxDataProcess s buf = .ok r) : r.2 ≤ buf.length := by
  unfold StreamFrames.quicFrameMaxDataProcess at h
  split at h
  all_goals cases h
  exact Nat.sub_le _ _

-- The value `quic_frame_stream_error` returns.
theorem quicFrameStreamError_fst (err : Int) :
    (quicFrameStreamError err).1 = if err = -ENOSTR then 0 else err := by
  unfold quicFrameStreamError
  split_ifs <;> rfl

namespace Ops

variable {env : QuicFrameEnv} {level type : Nat} {buf : List UInt8}

theorem quicFrameStreamLookup_ret {streamId : Nat} {send : Bool} {taken : Nat}
    {found : Except (Int × Nat) Nat} (htaken : taken ≤ len) (hfound : QuicFrameRet len found) :
    QuicFrameRet len (quicFrameStreamLookup env streamId send taken found) := by
  unfold quicFrameStreamLookup
  split
  · rename_i err herr
    dsimp only
    split_ifs with hr
    · exact htaken
    · show (quicFrameStreamError err).1 < 0
      rw [quicFrameStreamError_fst] at hr ⊢
      split_ifs at hr ⊢
      · exact absurd rfl hr
      · exact quicStreamGet_error_neg herr
  · exact hfound

theorem quicFramePaddingProcess_ret : QuicFrameRet buf.length (quicFramePaddingProcess buf) :=
  (List.takeWhile_sublist _).length_le

theorem quicFrameAckProcess_ret : QuicFrameRet buf.length (quicFrameAckProcess env type buf) := by
  unfold quicFrameAckProcess
  cases h : Quic.quicFrameAckProcess env.nextPn env.ackDelayExponent type buf with
  | error e =>
    show e.1 < 0
    rw [quicFrameAckProcess_error h]
    simp [EINVAL]
  | ok info => exact quicFrameAckProcess_consumed_le h

theorem quicFrameResetStreamProcess_ret :
    QuicFrameRet buf.length (quicFrameResetStreamProcess env buf) := by
  unfold quicFrameResetStreamProcess
  split
  · simp
  split
  · simp
  split
  · simp
  refine quicFrameStreamLookup_ret (Nat.sub_le _ _) ?_
  split_ifs <;> simp

theorem quicFrameStopSendingProcess_ret :
    QuicFrameRet buf.length (quicFrameStopSendingProcess env buf) := by
  unfold quicFrameStopSendingProcess
  split
  · simp
  split
  · simp
  refine quicFrameStreamLookup_ret (Nat.sub_le _ _) ?_
  split_ifs <;> simp

theorem quicFrameCryptoProcess_ret :
    QuicFrameRet buf.length (quicFrameCryptoProcess env level buf) := by
  unfold quicFrameCryptoProcess Handshake.quicFrameCryptoProcess
  split
  · simp [Except.map]
  · rename_i frame taken hparse
    split
    · simp [Except.map]
    · cases hr : Handshake.quicInqHandshakeRecv env.crypto frame env.rmem env.cryptoAlloc
          env.ticketEvent with
      | error e =>
        show e.1 < 0
        rw [quicInqHandshakeRecv_error hr]
        simp
      | ok t => exact quicFrameCryptoParse_taken_le hparse

theorem quicFrameNewTokenProcess_ret :
    QuicFrameRet buf.length (quicFrameNewTokenProcess env buf) := by
  unfold quicFrameNewTokenProcess
  split
  · simp
  split
  · simp
  split_ifs
  · simp
  · simp
  · exact Nat.sub_le _ _

theorem quicFrameStreamProcess_ret :
    QuicFrameRet buf.length (quicFrameStreamProcess env level type buf) := by
  unfold quicFrameStreamProcess
  split
  · rename_i err herr
    rw [Frame.quicFrameStreamProcess_error herr]
    simp
  · rename_i r hr
    have hle := Frame.quicFrameStreamProcess_consumed_le hr
    refine quicFrameStreamLookup_ret hle ?_
    split_ifs
    · exact hle
    · split
      · rename_i e he
        exact quicFrameStreamProcess_error_neg he
      · exact hle

theorem quicFrameMaxDataProcess_ret :
    QuicFrameRet buf.length (quicFrameMaxDataProcess env buf) := by
  unfold quicFrameMaxDataProcess
  split
  · rename_i err herr
    rw [StreamFrames.quicFrameMaxDataProcess_error herr]
    simp
  · rename_i r hr
    exact StreamFrames.quicFrameMaxDataProcess_taken_le hr

theorem quicFrameMaxStreamDataProcess_ret :
    QuicFrameRet buf.length (quicFrameMaxStreamDataProcess env buf) := by
  unfold quicFrameMaxStreamDataProcess
  split
  · simp
  split
  · simp
  exact quicFrameStreamLookup_ret (Nat.sub_le _ _) (Nat.sub_le _ _)

theorem quicFrameMaxStreamsProcess_ret :
    QuicFrameRet buf.length (quicFrameMaxStreamsProcess buf) := by
  unfold quicFrameMaxStreamsProcess
  split
  · simp
  split_ifs
  · simp
  · exact Nat.sub_le _ _

theorem quicFrameDataBlockedProcess_ret :
    QuicFrameRet buf.length (quicFrameDataBlockedProcess env buf) := by
  unfold quicFrameDataBlockedProcess
  split
  · simp
  split
  · rename_i err herr
    rw [quicFrameDataBlockedProcess_error herr]
    simp
  · exact Nat.sub_le _ _

theorem quicFrameStreamDataBlockedProcess_ret :
    QuicFrameRet buf.length (quicFrameStreamDataBlockedProcess env buf) := by
  unfold quicFrameStreamDataBlockedProcess
  split
  · simp
  split
  · simp
  refine quicFrameStreamLookup_ret (Nat.sub_le _ _) ?_
  split
  · rename_i err herr
    rw [quicFrameStreamDataBlockedProcess_error herr]
    simp
  · exact Nat.sub_le _ _

theorem quicFrameStreamsBlockedProcess_ret {uni : Bool} :
    QuicFrameRet buf.length (quicFrameStreamsBlockedProcess env uni buf) := by
  unfold quicFrameStreamsBlockedProcess
  split
  · simp
  split_ifs
  · exact Nat.sub_le _ _
  · exact Nat.sub_le _ _
  · simp

theorem quicFrameNewConnIdProcess_ret :
    QuicFrameRet buf.length (quicFrameNewConnIdProcess env buf) := by
  unfold quicFrameNewConnIdProcess
  split
  · simp
  split_ifs
  · simp
  split
  · simp
  split
  · simp
  split_ifs
  · simp
  split
  · rename_i e he
    show e.1 < 0
    rw [quicFrameNewConnIdProcess_error he]
    simp
  dsimp only
  split_ifs
  · simp
  · simp
  · exact Nat.sub_le _ _

theorem quicFrameRetireConnIdProcess_ret :
    QuicFrameRet buf.length (quicFrameRetireConnIdProcess env buf) := by
  unfold quicFrameRetireConnIdProcess
  split
  · simp
  split
  · rename_i e he
    show e.1 < 0
    rw [quicFrameRetireConnIdProcess_error he]
    simp
  dsimp only
  split_ifs <;> simp

theorem quicFramePathChallengeProcess_ret :
    QuicFrameRet buf.length (quicFramePathChallengeProcess env buf) := by
  unfold quicFramePathChallengeProcess
  split_ifs with hlen
  · simp
  · simp
  · simp only [quicFrameRet_ok]
    omega

theorem quicFramePathResponseProcess_ret :
    QuicFrameRet buf.length (quicFramePathResponseProcess buf) := by
  unfold quicFramePathResponseProcess
  split_ifs with hlen
  · simp
  · simp only [quicFrameRet_ok]
    omega

theorem quicFrameConnectionCloseProcess_ret :
    QuicFrameRet buf.length (quicFrameConnectionCloseProcess env level type buf) := by
  unfold quicFrameConnectionCloseProcess
  repeat' first | dsimp only | split_ifs | split
  all_goals simp

theorem quicFrameHandshakeDoneProcess_ret :
    QuicFrameRet buf.length (quicFrameHandshakeDoneProcess env) := by
  unfold quicFrameHandshakeDoneProcess
  split_ifs
  · simp
  · simp

theorem quicFrameDatagramProcess_ret :
    QuicFrameRet buf.length (quicFrameDatagramProcess env type buf) := by
  unfold quicFrameDatagramProcess
  repeat' first | dsimp only | split_ifs | split
  all_goals simp

end Ops

end Contract

/-! ## The loop -/

-- Every entry of `quic_frame_ops` keeps the contract.
def QuicFrameOp.Contract (op : QuicFrameOp) : Prop :=
  ∀ env level type buf, QuicFrameRet buf.length (op.process env level type buf)

theorem QuicFrameOp.Contract.ite {c : Prop} [Decidable c] {a b : QuicFrameOp} (ha : a.Contract)
    (hb : b.Contract) : (if c then a else b).Contract := by
  split_ifs
  · exact ha
  · exact hb

open Ops in
theorem quicFrameOps_contract (type : Nat) : (quicFrameOps type).Contract := by
  unfold quicFrameOps
  repeat' refine QuicFrameOp.Contract.ite ?_ ?_
  all_goals intro env level t buf
  all_goals first
    | exact quicFramePaddingProcess_ret
    | exact Nat.zero_le _
    | exact Ops.quicFrameAckProcess_ret
    | exact quicFrameResetStreamProcess_ret
    | exact quicFrameStopSendingProcess_ret
    | exact Ops.quicFrameCryptoProcess_ret
    | exact quicFrameNewTokenProcess_ret
    | exact Ops.quicFrameStreamProcess_ret
    | exact Ops.quicFrameMaxDataProcess_ret
    | exact Ops.quicFrameMaxStreamDataProcess_ret
    | exact quicFrameMaxStreamsProcess_ret
    | exact Ops.quicFrameDataBlockedProcess_ret
    | exact Ops.quicFrameStreamDataBlockedProcess_ret
    | exact quicFrameStreamsBlockedProcess_ret
    | exact Ops.quicFrameNewConnIdProcess_ret
    | exact Ops.quicFrameRetireConnIdProcess_ret
    | exact quicFramePathChallengeProcess_ret
    | exact quicFramePathResponseProcess_ret
    | exact quicFrameConnectionCloseProcess_ret
    | exact quicFrameHandshakeDoneProcess_ret
    | exact quicFrameDatagramProcess_ret
    | simp [quicFrameInvalidProcess]

section Loop

variable {env : Nat → QuicFrameEnv} {level : Nat}

-- One pass of the loop: what it accepts and the state after it.
theorem quicFrameProcessStep_eq_ok {i : Nat} {p : QuicPacketInfo} {type : UInt8}
    {rest : List UInt8} {n : Nat} {s : Nat × QuicPacketInfo} :
    quicFrameProcessStep env level (i, p) type rest = .ok (n, s) ↔
      type.toNat ≤ QUIC_FRAME_MAX ∧ quicFrameLevelValid level type.toNat = true ∧
        (quicFrameOps type.toNat).process (env i) level type.toNat rest = .ok n ∧
        s = (i + 1, quicFrameProcessMark p type.toNat) := by
  unfold quicFrameProcessStep
  by_cases hmax : type.toNat > QUIC_FRAME_MAX
  · simp [hmax]
  by_cases hvalid : quicFrameLevelValid level type.toNat = true
  · rw [if_neg hmax, if_neg (by simp [hvalid])]
    cases hp : (quicFrameOps type.toNat).process (env i) level type.toNat rest with
    | error e => simp
    | ok m =>
      simp only [Except.ok.injEq, Prod.mk.injEq]
      constructor
      · rintro ⟨rfl, rfl⟩
        exact ⟨by omega, hvalid, rfl, rfl⟩
      · rintro ⟨-, -, rfl, rfl⟩
        exact ⟨rfl, rfl⟩
  · simp [hmax, hvalid]

theorem quicFrameProcessStep_error_neg {s : Nat × QuicPacketInfo} {type : UInt8}
    {rest : List UInt8} {e : Int × QuicPacketInfo}
    (h : quicFrameProcessStep env level s type rest = .error e) : e.1 < 0 := by
  unfold quicFrameProcessStep at h
  dsimp only at h
  split_ifs at h
  · cases h
    simp
  · cases h
    simp
  · split at h
    · rename_i err errcode hp
      cases h
      have hc := quicFrameOps_contract type.toNat (env s.1) level type.toNat rest
      rw [hp] at hc
      exact hc
    · cases h

theorem quicFrameProcessStep_bounded : Dispatch.Bounded (quicFrameProcessStep env level) := by
  intro s type rest n s' h
  obtain ⟨i, p⟩ := s
  obtain ⟨-, -, hp, -⟩ := quicFrameProcessStep_eq_ok.1 h
  have hc := quicFrameOps_contract type.toNat (env i) level type.toNat rest
  rw [hp] at hc
  exact hc

-- `frames`, from the `i`-th of the packet on, each of a type known and allowed at `level` and
-- taken whole by its handler, with `after` following the last.
def QuicFramesAccepted (env : Nat → QuicFrameEnv) (level : Nat) :
    Nat → List (UInt8 × List UInt8) → List UInt8 → Prop
  | _, [], _ => True
  | i, (type, body) :: frames, after =>
    type.toNat ≤ QUIC_FRAME_MAX ∧ quicFrameLevelValid level type.toNat = true ∧
      (quicFrameOps type.toNat).process (env i) level type.toNat
        (body ++ (Dispatch.join frames ++ after)) = .ok body.length ∧
      QuicFramesAccepted env level (i + 1) frames after

-- The runs of the loop that accept `frames` are those the frames' handlers accept, and they
-- leave the packet marked by each frame in turn.
theorem splits_quicFrameProcessStep_iff {after : List UInt8} {frames : List (UInt8 × List UInt8)}
    {i : Nat} {p : QuicPacketInfo} {s : Nat × QuicPacketInfo} :
    Dispatch.Splits (quicFrameProcessStep env level) after (i, p) frames s ↔
      QuicFramesAccepted env level i frames after ∧
        s = (i + frames.length, (frames.map fun f => f.1.toNat).foldl quicFrameProcessMark p) := by
  induction frames generalizing i p with
  | nil =>
    constructor
    · rintro ⟨⟩
      exact ⟨trivial, rfl⟩
    · rintro ⟨-, rfl⟩
      exact .nil _
  | cons f frames ih =>
    obtain ⟨type, body⟩ := f
    constructor
    · rintro (_ | ⟨head, tail⟩)
      obtain ⟨hmax, hvalid, hp, rfl⟩ := quicFrameProcessStep_eq_ok.1 head
      obtain ⟨hacc, rfl⟩ := ih.1 tail
      refine ⟨⟨hmax, hvalid, hp, hacc⟩, ?_⟩
      simp only [List.length_cons, List.map_cons, List.foldl_cons]
      rw [Nat.add_right_comm, Nat.add_assoc]
    · rintro ⟨⟨hmax, hvalid, hp, hacc⟩, rfl⟩
      refine .cons (quicFrameProcessStep_eq_ok.2 ⟨hmax, hvalid, hp, rfl⟩) ?_
      refine ih.2 ⟨hacc, ?_⟩
      simp only [List.length_cons, List.map_cons, List.foldl_cons]
      rw [Nat.add_right_comm, Nat.add_assoc]

/-! ## A packet's payload -/

-- Marking a frame leaves the packet's error fields as they were.
section Payload

variable {env : Nat → QuicFrameEnv} {level : Nat} {packet p : QuicPacketInfo}
  {payload : List UInt8}

-- A payload the loop returns 0 on is frames its handlers accept, and the packet is marked by
-- each of them in turn.
theorem quicFrameProcess_frames (h : quicFrameProcess env level packet payload = (0, p)) :
    ∃ frames, frames ≠ [] ∧ Dispatch.join frames = payload ∧
      QuicFramesAccepted env level 0 frames [] ∧
      p = (frames.map fun f => f.1.toNat).foldl quicFrameProcessMark packet := by
  unfold quicFrameProcess at h
  split_ifs at h with hempty
  · simp only [Prod.mk.injEq] at h
    exact absurd h.1 (by simp [EINVAL])
  split at h
  · rename_i s hrun
    simp only [Prod.mk.injEq] at h
    obtain ⟨frames, hj, hs⟩ := Dispatch.splits_of_run quicFrameProcessStep_bounded hrun
    obtain ⟨hacc, rfl⟩ := splits_quicFrameProcessStep_iff.1 hs
    refine ⟨frames, ?_, hj, hacc, h.2.symm⟩
    rintro rfl
    exact hempty hj.symm
  · rename_i err q hrun
    obtain ⟨_, _, _, _, _, _, hstep⟩ := Dispatch.run_error quicFrameProcessStep_bounded hrun
    have hneg := quicFrameProcessStep_error_neg hstep
    simp only [Prod.mk.injEq] at h
    simp only at hneg
    omega

-- Frames the handlers accept, laid end to end, are processed whole.
theorem quicFrameProcess_of_frames {frames : List (UInt8 × List UInt8)} (hne : frames ≠ [])
    (hacc : QuicFramesAccepted env level 0 frames []) :
    quicFrameProcess env level packet (Dispatch.join frames) =
      (0, (frames.map fun f => f.1.toNat).foldl quicFrameProcessMark packet) := by
  have hs := (@splits_quicFrameProcessStep_iff env level [] frames 0 packet _).2 ⟨hacc, rfl⟩
  unfold quicFrameProcess
  rw [if_neg (Dispatch.join_ne_nil hne), hs.run_eq]

-- `quic_frame_process` returns 0 exactly on a payload of one or more frames, each of a known
-- type allowed at the packet's level and taken whole by its handler; the packet is then
-- marked by each frame in turn.
theorem quicFrameProcess_eq_ok_iff :
    quicFrameProcess env level packet payload = (0, p) ↔
      ∃ frames, frames ≠ [] ∧ Dispatch.join frames = payload ∧
        QuicFramesAccepted env level 0 frames [] ∧
        p = (frames.map fun f => f.1.toNat).foldl quicFrameProcessMark packet := by
  constructor
  · exact quicFrameProcess_frames
  · rintro ⟨frames, hne, rfl, hacc, rfl⟩
    exact quicFrameProcess_of_frames hne hacc

end Payload

end Loop

end Quic

namespace Quic

section Failure

variable {env : Nat → QuicFrameEnv} {level : Nat}

-- One pass of the loop that fails: an unknown type, a type not allowed at the level (the
-- packet's fields untouched), or the handler's error with its `frame->errcode`.
theorem quicFrameProcessStep_eq_error {i : Nat} {p : QuicPacketInfo} {type : UInt8}
    {rest : List UInt8} {e : Int × QuicPacketInfo}
    (h : quicFrameProcessStep env level (i, p) type rest = .error e) :
    (QUIC_FRAME_MAX < type.toNat ∧
        e = (-EPROTONOSUPPORT, { p with errcode := QUIC_TRANSPORT_ERROR_FRAME_ENCODING })) ∨
      (type.toNat ≤ QUIC_FRAME_MAX ∧ quicFrameLevelValid level type.toNat = false ∧
        e = (-EINVAL, p)) ∨
      (type.toNat ≤ QUIC_FRAME_MAX ∧ quicFrameLevelValid level type.toNat = true ∧
        (quicFrameOps type.toNat).process (env i) level type.toNat rest = .error (e.1, e.2.errcode) ∧
        e.2 = { p with errframe := type.toNat, errcode := e.2.errcode }) := by
  unfold quicFrameProcessStep at h
  dsimp only at h
  by_cases hmax : type.toNat > QUIC_FRAME_MAX
  · rw [if_pos hmax] at h
    cases h
    exact .inl ⟨hmax, rfl⟩
  rw [if_neg hmax] at h
  by_cases hvalid : quicFrameLevelValid level type.toNat = true
  · rw [if_neg (by simp [hvalid])] at h
    split at h
    · rename_i err errcode hp
      cases h
      exact .inr (.inr ⟨by omega, hvalid, hp, rfl⟩)
    · cases h
  · rw [if_pos (by simpa using hvalid)] at h
    cases h
    exact .inr (.inl ⟨by omega, by simpa using hvalid, rfl⟩)

-- A failed run: the frames before the one that fails are accepted, and the result is that
-- frame's failed pass.
theorem quicFrameProcess_error_step {packet : QuicPacketInfo} {payload : List UInt8}
    (h : (quicFrameProcess env level packet payload).1 ≠ 0) :
    (quicFrameProcess env level packet payload).1 < 0 ∧
    ((payload = [] ∧ (quicFrameProcess env level packet payload).2 =
        { packet with errcode := QUIC_TRANSPORT_ERROR_PROTOCOL_VIOLATION }) ∨
      ∃ frames type rest, payload = Dispatch.join frames ++ type :: rest ∧
        QuicFramesAccepted env level 0 frames (type :: rest) ∧
        quicFrameProcessStep env level
          (frames.length, (frames.map fun f => f.1.toNat).foldl quicFrameProcessMark packet)
          type rest = .error (quicFrameProcess env level packet payload)) := by
  unfold quicFrameProcess at h ⊢
  split_ifs with hempty
  · exact ⟨by simp, .inl ⟨hempty, rfl⟩⟩
  rw [if_neg hempty] at h
  split at h
  · exact absurd rfl h
  rename_i err q hrun
  simp only
  obtain ⟨frames, s₁, type, rest, hj, hs, hstep⟩ :=
    Dispatch.run_error quicFrameProcessStep_bounded hrun
  obtain ⟨hacc, rfl⟩ := splits_quicFrameProcessStep_iff.1 hs
  rw [Nat.zero_add] at hstep
  exact ⟨quicFrameProcessStep_error_neg hstep, .inr ⟨frames, type, rest, hj, hacc, hstep⟩⟩

-- `quic_frame_process` fails with a negative value, and the packet's `errcode` is then set by
-- the empty-payload check, by an unknown frame type, or by the failing handler: a frame not
-- allowed at the level leaves the packet's fields as the frames before it left them.
theorem quicFrameProcess_error_cases {packet : QuicPacketInfo} {payload : List UInt8}
    (h : (quicFrameProcess env level packet payload).1 ≠ 0) :
    let r := quicFrameProcess env level packet payload
    r.1 < 0 ∧
    ((payload = [] ∧ r.2 = { packet with errcode := QUIC_TRANSPORT_ERROR_PROTOCOL_VIOLATION }) ∨
      ∃ frames type rest, payload = Dispatch.join frames ++ type :: rest ∧
        QuicFramesAccepted env level 0 frames (type :: rest) ∧
        let q := (frames.map fun f => f.1.toNat).foldl quicFrameProcessMark packet
        ((QUIC_FRAME_MAX < type.toNat ∧
            r = (-EPROTONOSUPPORT, { q with errcode := QUIC_TRANSPORT_ERROR_FRAME_ENCODING })) ∨
          (type.toNat ≤ QUIC_FRAME_MAX ∧ quicFrameLevelValid level type.toNat = false ∧
            r = (-EINVAL, q)) ∨
          (type.toNat ≤ QUIC_FRAME_MAX ∧ quicFrameLevelValid level type.toNat = true ∧
            (quicFrameOps type.toNat).process (env frames.length) level type.toNat rest =
              .error (r.1, r.2.errcode) ∧
            r.2 = { q with errframe := type.toNat, errcode := r.2.errcode }))) := by
  intro r
  obtain ⟨hneg, hcases⟩ := quicFrameProcess_error_step h
  refine ⟨hneg, ?_⟩
  rcases hcases with hempty | ⟨frames, type, rest, hj, hacc, hstep⟩
  · exact .inl hempty
  · exact .inr ⟨frames, type, rest, hj, hacc, quicFrameProcessStep_eq_error hstep⟩

-- A STREAM frame in an Initial packet: refused with -EINVAL and no error code recorded.
theorem quicFrameProcess_error_cases_initial_stream :
    let env : Nat → QuicFrameEnv := fun _ =>
      ⟨false, 0, 0, Handshake.quicInqCryptoInit 0, fun _ => true, ⟨true, 0, []⟩, quicStreamInit,
        fun _ => quicStreamRecvInit 0 0, fun _ => false, quicStreamRecvInit 0 0,
        StreamFrames.quicOutqCreditInit fun _ => 0, quicConnIdSetInit 2, quicConnIdSetInit 2, 0,
        false, true, true, true⟩
    let r := quicFrameProcess env QUIC_CRYPTO_INITIAL quicPacketReset [8]
    r = (-EINVAL, quicPacketReset) ∧ r.2.errcode = 0 ∧
    r.1 < 0 ∧
    (([8] : List UInt8) = [] ∧
        r.2 = { quicPacketReset with errcode := QUIC_TRANSPORT_ERROR_PROTOCOL_VIOLATION } ∨
      ∃ frames type rest, [8] = Dispatch.join frames ++ type :: rest ∧
        QuicFramesAccepted env QUIC_CRYPTO_INITIAL 0 frames (type :: rest) ∧
        let q := (frames.map fun f => f.1.toNat).foldl quicFrameProcessMark quicPacketReset
        ((QUIC_FRAME_MAX < type.toNat ∧
            r = (-EPROTONOSUPPORT, { q with errcode := QUIC_TRANSPORT_ERROR_FRAME_ENCODING })) ∨
          (type.toNat ≤ QUIC_FRAME_MAX ∧ quicFrameLevelValid QUIC_CRYPTO_INITIAL type.toNat = false ∧
            r = (-EINVAL, q)) ∨
          (type.toNat ≤ QUIC_FRAME_MAX ∧ quicFrameLevelValid QUIC_CRYPTO_INITIAL type.toNat = true ∧
            (quicFrameOps type.toNat).process (env frames.length) QUIC_CRYPTO_INITIAL type.toNat
              rest = .error (r.1, r.2.errcode) ∧
            r.2 = { q with errframe := type.toNat, errcode := r.2.errcode }))) := by
  intro env r
  have hr : r = (-EINVAL, quicPacketReset) := by
    show quicFrameProcess env QUIC_CRYPTO_INITIAL quicPacketReset [8] = _
    unfold quicFrameProcess
    rw [if_neg (by simp), Dispatch.run_cons_error
      (show quicFrameProcessStep env QUIC_CRYPTO_INITIAL (0, quicPacketReset) 8 [] =
        .error (-EINVAL, quicPacketReset) from rfl)]
  have h : r.1 ≠ 0 := by
    rw [hr]
    decide
  exact ⟨hr, by rw [hr]; rfl, quicFrameProcess_error_cases h⟩

end Failure

end Quic
