import Quic.Common.Basic

namespace Quic

-- The receive states of a stream (`enum` of uapi quic.h, after the six send states). A new
-- stream is zeroed, so `recv.state` starts at 0, below all of them.
def QUIC_STREAM_RECV_STATE_RECV : Nat := 6
def QUIC_STREAM_RECV_STATE_SIZE_KNOWN : Nat := 7
def QUIC_STREAM_RECV_STATE_RECVD : Nat := 8

-- A STREAM frame of the stream as `quic_frame_stream_process` allocates it: `offset`, the
-- u16 `len`, `stream_fin` and the encryption `level` it came at.
structure QuicRecvFrame where
  offset : Nat
  len : Nat
  fin : Bool
  level : Nat
  deriving DecidableEq, Repr

-- A slice queued by `quic_inq_stream_tail`: the stream offset its `data` points at, its
-- `len`, the frame it was cut from, and whether it went to `early_list` (0-RTT) or `recv_list`.
structure QuicRecvSlice where
  offset : Nat
  len : Nat
  frame : QuicRecvFrame
  early : Bool
  deriving DecidableEq, Repr

-- A `QUIC_EVENT_STREAM_UPDATE` for the stream: the state and final size it reports.
structure QuicStreamUpdate where
  state : Nat
  finalsz : Nat
  deriving DecidableEq, Repr

-- The fields of `stream->recv` the receive path and its flow control read and write.
structure QuicStreamRecv where
  maxBytes : Nat
  window : Nat
  bytes : Nat
  highest : Nat
  offset : Nat
  finalsz : Nat
  frags : Nat
  state : Nat
  deriving DecidableEq, Repr

-- The inqueue, restricted to one stream: the connection-level `highest`, `max_bytes`, `bytes`
-- and `max_data`, the stream's entries of `stream_list` in list order, the slices of
-- `recv_list`/`early_list` in the order they were queued, and the events handed to the
-- application.
structure QuicRecvState where
  stream : QuicStreamRecv
  highest : Nat
  maxBytes : Nat
  bytes : Nat
  maxData : Nat
  streamList : List QuicRecvFrame
  queued : List QuicRecvSlice
  events : List QuicStreamUpdate
  deriving DecidableEq, Repr

def QuicRecvState.recvList (s : QuicRecvState) : List QuicRecvSlice :=
  s.queued.filter (fun q => !q.early)

def QuicRecvState.earlyList (s : QuicRecvState) : List QuicRecvSlice :=
  s.queued.filter (fun q => q.early)

-- A new stream with the receive windows of `quic_stream_create` and `quic_inq_set_param`: each
-- `max_bytes` starts at its window.
def quicStreamRecvInit (streamWindow maxData : Nat) : QuicRecvState :=
  { stream := { maxBytes := streamWindow, window := streamWindow, bytes := 0, highest := 0,
                offset := 0, finalsz := 0, frags := 0, state := 0 },
    highest := 0, maxBytes := maxData, bytes := 0, maxData := maxData, streamList := [],
    queued := [], events := [] }

-- `quic_inq_stream_tail`: trim the prefix already received (with the u16 `frame->len`),
-- advance `recv.offset`, enter RECVD on FIN, and queue the slice.
def quicInqStreamTail (s : QuicRecvState) (frame : QuicRecvFrame) : QuicRecvState :=
  let overlap := toU64 ((s.stream.offset : Int) - frame.offset)
  let offset := if overlap ≠ 0 then frame.offset + overlap else frame.offset
  let len := if overlap ≠ 0 then toU16 ((frame.len : Int) - overlap) else frame.len
  let stream := { s.stream with offset := s.stream.offset + len }
  let stream := if frame.fin then { stream with state := QUIC_STREAM_RECV_STATE_RECVD } else stream
  let events :=
    if frame.fin then s.events ++ [⟨QUIC_STREAM_RECV_STATE_RECVD, offset + len⟩] else s.events
  { s with stream := stream, events := events,
           queued := s.queued ++ [⟨offset, len, frame, frame.level ≠ 0⟩] }

-- The walk of `stream_list` on the out-of-order path: `none` where an entry already covers
-- the frame (and has FIN or the frame has none), otherwise the list with the frame inserted
-- before the first entry of a larger offset.
def quicInqStreamInsert (frame : QuicRecvFrame) : List QuicRecvFrame → Option (List QuicRecvFrame)
  | [] => some [frame]
  | pos :: rest =>
    if pos.offset > frame.offset then some (frame :: pos :: rest)
    else if pos.offset + pos.len ≥ frame.offset + frame.len ∧ (pos.fin ∨ frame.fin = false) then
      none
    else (quicInqStreamInsert frame rest).map (pos :: ·)

-- The merge loop after an in-order frame: take the buffered frames up to `recv.offset`, drop the
-- covered ones (unless they carry FIN before RECVD) and pass the others to the tail; the
-- buffered frames left over come back with the state.
def quicInqStreamMerge (s : QuicRecvState) : List QuicRecvFrame → QuicRecvState × List QuicRecvFrame
  | [] => (s, [])
  | frame :: rest =>
    if frame.offset > s.stream.offset then (s, frame :: rest)
    else
      let s := { s with stream := { s.stream with frags := toU32 ((s.stream.frags : Int) - 1) } }
      if s.stream.offset ≥ frame.offset + frame.len ∧
          (s.stream.state = QUIC_STREAM_RECV_STATE_RECVD ∨ frame.fin = false) then
        quicInqStreamMerge s rest
      else quicInqStreamMerge (quicInqStreamTail s frame) rest

-- `quic_inq_stream_recv` for a frame of the stream; `rmem` is whether the receive buffer
-- accepts `frame->len` more bytes. An error carries the return value and `frame->errcode`.
def quicInqStreamRecv (s : QuicRecvState) (frame : QuicRecvFrame) (rmem : Bool) :
    Except (Int × Nat) QuicRecvState :=
  let offset := frame.offset
  if s.stream.offset ≥ offset + frame.len ∧
      (s.stream.state = QUIC_STREAM_RECV_STATE_SIZE_KNOWN ∨ frame.fin = false) then .ok s
  else if !rmem then .error (-ENOBUFS, 0)
  else
    let off := offset + frame.len
    let highest := if off > s.stream.highest then off - s.stream.highest else 0
    if off > s.stream.highest ∧
        (s.highest + highest > s.maxBytes ∨ s.stream.highest + highest > s.stream.maxBytes) then
      .error (-ENOBUFS, QUIC_TRANSPORT_ERROR_FLOW_CONTROL)
    else if off > s.stream.highest ∧ s.stream.finalsz ≠ 0 ∧ off > s.stream.finalsz then
      .error (-EINVAL, QUIC_TRANSPORT_ERROR_FINAL_SIZE)
    else
      let s := if s.stream.highest = 0 then
        { s with events := s.events ++ [⟨QUIC_STREAM_RECV_STATE_RECV, 0⟩] } else s
      if s.stream.offset < offset then
        -- out of order: buffer the frame in `stream_list`
        match quicInqStreamInsert frame s.streamList with
        | none => .ok s
        | some list =>
          if frame.fin ∧ (off < s.stream.highest ∨ (s.stream.finalsz ≠ 0 ∧ s.stream.finalsz ≠ off)) then
            .error (-EINVAL, QUIC_TRANSPORT_ERROR_FINAL_SIZE)
          else
            let s := if frame.fin then
              { s with stream := { s.stream with state := QUIC_STREAM_RECV_STATE_SIZE_KNOWN,
                                                 finalsz := off },
                       events := s.events ++ [⟨QUIC_STREAM_RECV_STATE_SIZE_KNOWN, off⟩] } else s
            .ok { s with streamList := list, highest := s.highest + highest,
                         stream := { s.stream with frags := toU32 (s.stream.frags + 1),
                                                   highest := s.stream.highest + highest } }
      else
        -- in order: queue it, then whatever buffered frames it makes contiguous
        let s := { s with highest := s.highest + highest,
                          stream := { s.stream with highest := s.stream.highest + highest } }
        let s := quicInqStreamTail s frame
        if s.stream.frags = 0 then .ok s
        else
          let merged := quicInqStreamMerge s s.streamList
          .ok { merged.1 with streamList := merged.2 }

-- `quic_frame_stream_process` after the frame is parsed and its stream looked up: a stream
-- that has received everything ignores the frame; `alloc` is whether the new frame is allocated.
def quicFrameStreamProcess (s : QuicRecvState) (frame : QuicRecvFrame) (alloc rmem : Bool) :
    Except (Int × Nat) QuicRecvState :=
  if s.stream.state ≥ QUIC_STREAM_RECV_STATE_RECVD then .ok s
  else if !alloc then .error (-ENOMEM, 0)
  else quicInqStreamRecv s frame rmem

@[simp] theorem quicInqStreamTail_frags (s : QuicRecvState) (frame : QuicRecvFrame) :
    (quicInqStreamTail s frame).stream.frags = s.stream.frags := by
  unfold quicInqStreamTail
  split <;> rfl

-- A FIN frame lying wholly below `recv.offset` passes the duplicate filter before the final size
-- is known and goes down the in-order path; `quic_inq_stream_tail` then computes its trimmed
-- u16 length as `len - overlap`, which wraps, and `recv.offset` jumps past the frame.
theorem quicFrameStreamProcess_covered_fin {s : QuicRecvState} {frame : QuicRecvFrame}
    (hfin : frame.fin = true) (hstate : s.stream.state < QUIC_STREAM_RECV_STATE_SIZE_KNOWN)
    (hcov : frame.offset + frame.len < s.stream.offset)
    (hgap : s.stream.offset - (frame.offset + frame.len) < 2 ^ 16)
    (hhigh : s.stream.offset ≤ s.stream.highest) (hmax : s.stream.highest < 2 ^ 64)
    (hfrags : s.stream.frags = 0) :
    quicFrameStreamProcess s frame true true = .ok (quicInqStreamTail s frame) ∧
      (quicInqStreamTail s frame).stream.offset =
        s.stream.offset + (2 ^ 16 - (s.stream.offset - (frame.offset + frame.len))) := by
  have hlt : s.stream.state < QUIC_STREAM_RECV_STATE_RECVD := by
    unfold QUIC_STREAM_RECV_STATE_SIZE_KNOWN at hstate
    unfold QUIC_STREAM_RECV_STATE_RECVD
    omega
  have hne : s.stream.state ≠ QUIC_STREAM_RECV_STATE_SIZE_KNOWN := Nat.ne_of_lt hstate
  have hoff : ¬ s.stream.highest < frame.offset + frame.len := by omega
  have hzero : s.stream.highest ≠ 0 := by omega
  have hord : ¬ s.stream.offset < frame.offset := by omega
  constructor
  · simp [quicFrameStreamProcess, quicInqStreamRecv, Nat.not_le.2 hlt, hne, hfin, hoff, hzero, hord,
      hfrags]
    congr 1
    rw [← hfrags]
  · -- the overlap exceeds the frame by less than 2^16, so the u16 length wraps once
    have hov : toU64 ((s.stream.offset : Int) - frame.offset) = s.stream.offset - frame.offset := by
      rw [toU64_of_nonneg (by omega) (by omega)]
      omega
    have hlen : toU16 ((frame.len : Int) - (s.stream.offset - frame.offset : Nat)) =
        2 ^ 16 - (s.stream.offset - (frame.offset + frame.len)) := by
      unfold toU16 toUnsigned
      omega
    simp only [quicInqStreamTail, hov, hlen, hfin, if_true, ne_eq,
      show ¬ s.stream.offset - frame.offset = 0 by omega, not_false_eq_true]

-- From a new stream: bytes [0, 100) in order, then a FIN frame for [0, 50). The FIN frame ends
-- below the data received yet is accepted, `recv.offset` wraps to 65586 past `recv.highest`,
-- and a slice of 65486 bytes starting past the frame's end is queued for the application.
theorem quicInqStream_fin_duplicate_wraps :
    let a : QuicRecvFrame := ⟨0, 100, false, 0⟩
    let b : QuicRecvFrame := ⟨0, 50, true, 0⟩
    ∃ s₁ s₂, quicFrameStreamProcess (quicStreamRecvInit 1000 1000) a true true = .ok s₁ ∧
      quicFrameStreamProcess s₁ b true true = .ok s₂ ∧
      s₂.stream.highest = 100 ∧ s₂.stream.offset = 65586 ∧
      s₂.stream.state = QUIC_STREAM_RECV_STATE_RECVD ∧
      s₂.queued = [⟨0, 100, a, false⟩, ⟨100, 65486, b, false⟩] :=
  ⟨_, _, rfl, rfl, rfl, rfl, rfl, rfl⟩

end Quic
