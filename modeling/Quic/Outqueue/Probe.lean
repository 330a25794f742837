import Quic.Path.Plpmtud

-- The PLPMTUD probe on its way out: `quic_outq_transmit_probe` takes the application space's
-- next packet number as the probe's, queues a padded PING with `quic_outq_ctrl_tail`, and
-- `quic_outq_transmit` walks the control list (`quic_outq_transmit_ctrl`), filling packets with
-- `quic_packet_tail` and sending each with `quic_packet_create_and_xmit`. An acknowledged range
-- reaches the state machine through `quic_outq_path_confirm`. The model is of an established
-- connection at the application level, on one path whose route stays cached between calls.
namespace Quic

/-! ## Control frames and the packet being filled -/

-- A frame on `control_list` at the application level as the packet builder sees it, with the
-- `padding` flag of a PING probe.
structure QuicCtrlFrame where
  frame : QuicOutFrame
  padding : Bool
  deriving DecidableEq, Repr

-- `quic_frame_ping_create` for a probe of `size` bytes: the type byte, then zeros up to the size
-- less the packet's header.
def quicFramePingCreate (size overhead : Nat) : QuicCtrlFrame :=
  let frameLen := if size > overhead then size - overhead else 1
  { frame := { len := frameLen, ackEliciting := true, ping := true },
    padding := decide (frameLen > 1) }

-- The ACK frame `quic_frame_ack_create` builds, of the length its ranges take; it elicits no ACK.
def quicCtrlFrameAck (len : Nat) : QuicCtrlFrame :=
  { frame := { len := len, ackEliciting := false, ping := false }, padding := false }

-- `quic_outq_ctrl_tail` for a frame of the application level, on that level's frames: an
-- ack-eliciting frame goes to the end, any other to the head.
def quicOutqCtrlTail (control : List QuicCtrlFrame) (frame : QuicCtrlFrame) :
    List QuicCtrlFrame :=
  if frame.frame.ackEliciting then control ++ [frame] else frame :: control

-- The packet being filled: the builder's counters, its `padding` flag and its `frame_list`.
structure QuicProbePacket where
  build : QuicPacketBuild
  padding : Bool
  frameList : List QuicCtrlFrame
  deriving DecidableEq, Repr

-- `quic_packet_config` of an empty packet at the application level.
def quicProbePacketConfig (overhead mss taglen : Nat) : QuicProbePacket :=
  { build := quicPacketConfig 0 overhead mss taglen, padding := false, frameList := [] }

-- `quic_packet_tail`: nothing more goes into a packet once a frame asked for padding.
def quicPacketTailPadded (packet : QuicProbePacket) (frame : QuicCtrlFrame) :
    Option QuicProbePacket :=
  if packet.padding then none
  else (quicPacketTail packet.build frame.frame).map fun build =>
    { build := build, padding := frame.padding, frameList := packet.frameList ++ [frame] }

/-! ## The socket -/

-- What sending changes: the application space's next packet number and `need_sack`, its frames
-- on `control_list`, the bytes in flight, and, as the run's record, every packet sent with its
-- number.
structure QuicProbeTx where
  nextPn : Nat
  needSack : Bool
  control : List QuicCtrlFrame
  inflight : Nat
  wire : List (Nat × List QuicCtrlFrame)
  deriving DecidableEq, Repr

-- The rest of what the probe's path reads and writes: the PLPMTUD state, the MSS of regular
-- packets with the peer's `max_udp_payload_size`, the short header and AEAD tag lengths, and
-- the congestion window.
structure QuicProbeSock where
  pl : QuicPathPl
  mss : Nat
  maxUdpPayloadSize : Nat
  overhead : Nat
  taglen : Nat
  window : Nat
  tx : QuicProbeTx
  deriving DecidableEq, Repr

-- `quic_outq_limit_check` on an established connection outside single-packet mode, its path
-- validated: only the congestion window holds a frame back.
def quicProbeLimitCheck (s : QuicProbeSock) (tx : QuicProbeTx) (packet : QuicProbePacket)
    (frame : QuicCtrlFrame) : Bool :=
  (quicOutqLimitCheck false false 0 tx.inflight s.window packet.build frame.frame
    ⟨0, 0, true, false⟩).1

-- `quic_packet_create_and_xmit` at the application level: the packet takes the next number,
-- and its tracked frames count as bytes in flight.
def quicPacketCreateAndXmit (tx : QuicProbeTx) (packet : QuicProbePacket) : QuicProbeTx :=
  { tx with
    nextPn := tx.nextPn + 1
    wire := tx.wire ++ [(tx.nextPn, packet.frameList)]
    inflight := if packet.build.frames = 0 then tx.inflight
      else tx.inflight + packet.build.frameLen }

@[simp] theorem quicProbePacketConfig_frameList (overhead mss taglen : Nat) :
    (quicProbePacketConfig overhead mss taglen).frameList = [] := rfl

@[simp] theorem quicPacketCreateAndXmit_wire (tx : QuicProbeTx) (packet : QuicProbePacket) :
    (quicPacketCreateAndXmit tx packet).wire = tx.wire ++ [(tx.nextPn, packet.frameList)] := rfl

@[simp] theorem quicPacketCreateAndXmit_nextPn (tx : QuicProbeTx) (packet : QuicProbePacket) :
    (quicPacketCreateAndXmit tx packet).nextPn = tx.nextPn + 1 := rfl

@[simp] theorem quicPacketCreateAndXmit_control (tx : QuicProbeTx) (packet : QuicProbePacket) :
    (quicPacketCreateAndXmit tx packet).control = tx.control := rfl

-- `quic_outq_transmit_ctrl` at the application level over the frames `control`, appending to
-- `packet`: what sending changed, the packet then being filled, and the frames left.
def quicOutqTransmitCtrl (s : QuicProbeSock) (tx : QuicProbeTx) (packet : QuicProbePacket) :
    List QuicCtrlFrame → QuicProbeTx × QuicProbePacket × List QuicCtrlFrame
  | [] => (tx, packet, [])
  | frame :: rest =>
    if quicProbeLimitCheck s tx packet frame then (tx, packet, frame :: rest)
    else
      match quicPacketTailPadded packet frame with
      | some packet' => quicOutqTransmitCtrl s tx packet' rest
      | none =>
        -- `next = frame`: the packet goes out and a new one is offered the frame again, which
        -- it always takes (`quicPacketTailPadded_config`)
        let tx' := quicPacketCreateAndXmit tx packet
        let fresh := quicProbePacketConfig s.overhead s.mss s.taglen
        if quicProbeLimitCheck s tx' fresh frame then (tx', fresh, frame :: rest)
        else
          match quicPacketTailPadded fresh frame with
          | some packet' => quicOutqTransmitCtrl s tx' packet' rest
          | none => (tx', fresh, frame :: rest)

-- The start of `quic_outq_transmit_ctrl`: an ACK that is due goes onto the control list.
def quicOutqSackTail (tx : QuicProbeTx) (ackLen : Nat) : QuicProbeTx :=
  if tx.needSack then
    { tx with needSack := false,
              control := quicOutqCtrlTail tx.control (quicCtrlFrameAck ackLen) }
  else tx

-- `quic_outq_transmit_flush`: what is left in the packet goes out.
def quicOutqTransmitFlush (tx : QuicProbeTx) (packet : QuicProbePacket) : QuicProbeTx :=
  if packet.frameList = [] then tx else quicPacketCreateAndXmit tx packet

-- `quic_outq_transmit` at the application level: the control frames, the ACK first if one is
-- due, then the last packet flushed.
def quicOutqTransmit (s : QuicProbeSock) (ackLen : Nat) : QuicProbeSock :=
  let tx := quicOutqSackTail s.tx ackLen
  let r := quicOutqTransmitCtrl s tx (quicProbePacketConfig s.overhead s.mss s.taglen) tx.control
  { s with tx := quicOutqTransmitFlush { r.1 with control := r.2.2 } r.2.1 }

-- `quic_packet_mss_update` for regular packets, capped by the peer's `max_udp_payload_size`.
def quicPacketMssUpdate (maxUdpPayloadSize mss : Nat) : Nat :=
  toU16 (if maxUdpPayloadSize ≠ 0 ∧ mss > maxUdpPayloadSize then maxUdpPayloadSize else mss)

-- The `if (pathmtu) quic_packet_mss_update(sk, pathmtu + taglen)` after each PLPMTUD call.
def QuicProbeSock.setPathmtu (s : QuicProbeSock) (pathmtu : Nat) : QuicProbeSock :=
  if pathmtu = 0 then s
  else { s with mss := quicPacketMssUpdate s.maxUdpPayloadSize (pathmtu + s.taglen) }

-- `quic_outq_transmit_probe`: the number is taken before the PING is queued and sent.
def quicOutqTransmitProbe (s : QuicProbeSock) (ackLen : Nat) : QuicProbeSock :=
  let number := s.tx.nextPn
  let ping := quicFramePingCreate s.pl.probeSize s.overhead
  let s := quicOutqTransmit
    { s with tx := { s.tx with control := quicOutqCtrlTail s.tx.control ping } } ackLen
  match quicPathPlSend s.pl number with
  | (pathmtu, pl) => { s with pl := pl }.setPathmtu pathmtu

-- `quic_outq_path_confirm` for an acknowledged range at the application level.
def quicOutqPathConfirm (s : QuicProbeSock) (largest smallest : Int) (ackLen : Nat) :
    QuicProbeSock :=
  if quicPathPlConfirm s.pl largest smallest then
    match quicPathPlRecv s.pl with
    | (pathmtu, _, complete, pl) =>
      let s := { s with pl := pl }.setPathmtu pathmtu
      if complete then s else quicOutqTransmitProbe s ackLen
  else s

-- `quic_packet_rcv_err_pmtu` with PLPMTUD on, for the hint `info` less header and tag.
def quicPacketRcvErrPmtu (s : QuicProbeSock) (info : Nat) : QuicProbeSock :=
  match quicPathPlToobig s.pl info with
  | (pathmtu, _, pl) => { s with pl := pl }.setPathmtu pathmtu

-- `quic_packet_route` on a new route of MSS `mss`: the path is probed again from BASE.
def quicPacketRoute (s : QuicProbeSock) (mss : Nat) : QuicProbeSock :=
  { s with mss := quicPacketMssUpdate s.maxUdpPayloadSize mss, pl := quicPathPlReset s.pl }

/-! ## Runs -/

-- What happens to the socket: the PMTU timer fires (`quic_timer_pmtu_handler`), a range of an
-- ACK frame is processed (`quic_outq_transmitted_sack`), a Packet Too Big hint arrives, the route
-- changes, a received packet asks for an ACK, a control frame is queued with `cork`, the queue is
-- transmitted, and acknowledgements or losses move the bytes in flight and the window. Each
-- transmission carries the length of the ACK frame it would build from the received ranges.
inductive QuicProbeCall where
  | probe (ackLen : Nat)
  | ack (largest smallest : Int) (ackLen : Nat)
  | toobig (info : Nat)
  | route (mss : Nat)
  | sack
  | queue (frame : QuicCtrlFrame)
  | transmit (ackLen : Nat)
  | cong (inflight window : Nat)
  deriving DecidableEq, Repr

def QuicProbeCall.apply (s : QuicProbeSock) : QuicProbeCall → QuicProbeSock
  | .probe ackLen => quicOutqTransmitProbe s ackLen
  | .ack largest smallest ackLen => quicOutqPathConfirm s largest smallest ackLen
  | .toobig info => quicPacketRcvErrPmtu s info
  | .route mss => quicPacketRoute s mss
  | .sack => { s with tx := { s.tx with needSack := true } }
  | .queue frame => { s with tx := { s.tx with control := quicOutqCtrlTail s.tx.control frame } }
  | .transmit ackLen => quicOutqTransmit s ackLen
  | .cong inflight window => { s with window := window, tx := { s.tx with inflight := inflight } }

def ProbeStep (s t : QuicProbeSock) : Prop :=
  ∃ call : QuicProbeCall, t = call.apply s

-- Any socket whose path was just reset, with nothing sent yet.
def ProbeInit (s : QuicProbeSock) : Prop :=
  (∃ pl₀, s.pl = quicPathPlReset pl₀) ∧ s.tx.wire = []

theorem probeStep_apply (s : QuicProbeSock) (call : QuicProbeCall) :
    ProbeStep s (call.apply s) :=
  ⟨call, rfl⟩

/-! ## What one transmission does -/

theorem quicPacketTailPadded_frameList {packet packet' : QuicProbePacket} {frame : QuicCtrlFrame}
    (h : quicPacketTailPadded packet frame = some packet') :
    packet'.frameList = packet.frameList ++ [frame] := by
  unfold quicPacketTailPadded at h
  split_ifs at h
  obtain ⟨build, -, rfl⟩ := Option.map_eq_some_iff.1 h
  rfl

-- A packet just configured takes any frame: one longer than the MSS goes out fragmented.
theorem quicPacketTailPadded_config (overhead mss taglen : Nat) (frame : QuicCtrlFrame) :
    quicPacketTailPadded (quicProbePacketConfig overhead mss taglen) frame ≠ none := by
  simp [quicPacketTailPadded, quicProbePacketConfig, quicPacketTail, quicPacketConfig]

-- Neither an ACK nor a PING waits for the congestion window.
theorem quicProbeLimitCheck_exempt {s : QuicProbeSock} {tx : QuicProbeTx}
    {packet : QuicProbePacket} {frame : QuicCtrlFrame}
    (h : frame.frame.ackEliciting = false ∨ frame.frame.ping = true) :
    quicProbeLimitCheck s tx packet frame = false := by
  rcases h with h | h <;> simp [quicProbeLimitCheck, quicOutqLimitCheck, h]

-- The packets sent after `tx`'s, numbered on from `tx.nextPn`.
def QuicProbeTx.SentAfter (tx tx' : QuicProbeTx) : Prop :=
  ∃ sent : List (Nat × List QuicCtrlFrame), tx'.wire = tx.wire ++ sent ∧
    sent.map Prod.fst = List.range' tx.nextPn sent.length ∧ tx'.nextPn = tx.nextPn + sent.length

namespace QuicProbeTx.SentAfter

theorem refl (tx : QuicProbeTx) : tx.SentAfter tx :=
  ⟨[], by simp, rfl, rfl⟩

theorem trans {tx tx' tx'' : QuicProbeTx} (h : tx.SentAfter tx') (h' : tx'.SentAfter tx'') :
    tx.SentAfter tx'' := by
  obtain ⟨sent, hw, hn, hp⟩ := h
  obtain ⟨sent', hw', hn', hp'⟩ := h'
  refine ⟨sent ++ sent', by rw [hw', hw, List.append_assoc], ?_, by simp [hp', hp]; omega⟩
  rw [List.map_append, hn, hn', hp, List.length_append]
  simp

theorem of_eq {tx tx' : QuicProbeTx} (hw : tx'.wire = tx.wire) (hp : tx'.nextPn = tx.nextPn) :
    tx.SentAfter tx' :=
  ⟨[], by simp [hw], rfl, by simp [hp]⟩

theorem create (tx : QuicProbeTx) (packet : QuicProbePacket) :
    tx.SentAfter (quicPacketCreateAndXmit tx packet) :=
  ⟨[(tx.nextPn, packet.frameList)], rfl, by simp, rfl⟩

-- What was sent stays on the wire.
theorem mem {tx tx' : QuicProbeTx} (h : tx.SentAfter tx') {p : Nat × List QuicCtrlFrame}
    (hp : p ∈ tx.wire) : p ∈ tx'.wire := by
  obtain ⟨sent, hw, -, -⟩ := h
  rw [hw]
  exact List.mem_append_left _ hp

end QuicProbeTx.SentAfter

theorem quicOutqTransmitCtrl_sentAfter (s : QuicProbeSock) (tx : QuicProbeTx)
    (packet : QuicProbePacket) (control : List QuicCtrlFrame) :
    tx.SentAfter (quicOutqTransmitCtrl s tx packet control).1 := by
  fun_induction quicOutqTransmitCtrl s tx packet control with
  | case1 | case2 => exact .refl _
  | case3 tx packet frame rest hlim packet' htail ih => exact ih
  | case4 | case6 => exact .create _ _
  | case5 tx packet frame rest hlim htail tx' fresh hlim' packet' htail' ih =>
    exact (QuicProbeTx.SentAfter.create tx packet).trans ih

-- The walk leaves the ACK flag alone.
theorem quicOutqTransmitCtrl_needSack (s : QuicProbeSock) (tx : QuicProbeTx)
    (packet : QuicProbePacket) (control : List QuicCtrlFrame) :
    (quicOutqTransmitCtrl s tx packet control).1.needSack = tx.needSack := by
  fun_induction quicOutqTransmitCtrl s tx packet control with
  | case1 | case2 | case4 | case6 => rfl
  | case3 tx packet frame rest hlim packet' htail ih => exact ih
  | case5 tx packet frame rest hlim htail tx' fresh hlim' packet' htail' ih => exact ih

theorem quicOutqSackTail_sentAfter (tx : QuicProbeTx) (ackLen : Nat) :
    tx.SentAfter (quicOutqSackTail tx ackLen) := by
  unfold quicOutqSackTail
  split_ifs
  · exact .of_eq rfl rfl
  · exact .refl tx

theorem quicOutqSackTail_needSack (tx : QuicProbeTx) (ackLen : Nat) :
    (quicOutqSackTail tx ackLen).needSack = false := by
  unfold quicOutqSackTail
  split_ifs with h
  · rfl
  · simpa using h

theorem quicOutqTransmitFlush_sentAfter (tx : QuicProbeTx) (packet : QuicProbePacket) :
    tx.SentAfter (quicOutqTransmitFlush tx packet) := by
  unfold quicOutqTransmitFlush
  split_ifs
  · exact .refl tx
  · exact .create tx packet

theorem quicOutqTransmitFlush_needSack (tx : QuicProbeTx) (packet : QuicProbePacket) :
    (quicOutqTransmitFlush tx packet).needSack = tx.needSack := by
  unfold quicOutqTransmitFlush
  split_ifs <;> rfl

theorem quicOutqTransmit_sentAfter (s : QuicProbeSock) (ackLen : Nat) :
    s.tx.SentAfter (quicOutqTransmit s ackLen).tx :=
  ((quicOutqSackTail_sentAfter _ _).trans (quicOutqTransmitCtrl_sentAfter _ _ _ _)).trans
    ((QuicProbeTx.SentAfter.of_eq rfl rfl).trans (quicOutqTransmitFlush_sentAfter _ _))

theorem quicOutqTransmit_needSack (s : QuicProbeSock) (ackLen : Nat) :
    (quicOutqTransmit s ackLen).tx.needSack = false := by
  simp only [quicOutqTransmit, quicOutqTransmitFlush_needSack, quicOutqTransmitCtrl_needSack,
    quicOutqSackTail_needSack]

-- A frame that the congestion window does not hold back, alone on the list with no ACK due,
-- goes out alone in the next packet.
theorem quicOutqTransmit_alone (s : QuicProbeSock) (ackLen : Nat) {frame : QuicCtrlFrame}
    (hexempt : frame.frame.ackEliciting = false ∨ frame.frame.ping = true)
    (hsack : s.tx.needSack = false) (hcontrol : s.tx.control = [frame]) :
    (quicOutqTransmit s ackLen).tx.wire = s.tx.wire ++ [(s.tx.nextPn, [frame])] ∧
      (quicOutqTransmit s ackLen).tx.nextPn = s.tx.nextPn + 1 ∧
      (quicOutqTransmit s ackLen).tx.control = [] := by
  have hsackTail : quicOutqSackTail s.tx ackLen = s.tx := by
    simp [quicOutqSackTail, hsack]
  obtain ⟨packet, htail⟩ := Option.ne_none_iff_exists'.1
    (quicPacketTailPadded_config s.overhead s.mss s.taglen frame)
  have hlist : packet.frameList = [frame] := by
    simpa using quicPacketTailPadded_frameList htail
  have hctrl : quicOutqTransmitCtrl s s.tx (quicProbePacketConfig s.overhead s.mss s.taglen)
      [frame] = (s.tx, packet, []) := by
    simp [quicOutqTransmitCtrl, quicProbeLimitCheck_exempt hexempt, htail]
  simp [quicOutqTransmit, hsackTail, hcontrol, hctrl, quicOutqTransmitFlush, hlist]

@[simp] theorem QuicProbeSock.setPathmtu_pl (s : QuicProbeSock) (pathmtu : Nat) :
    (s.setPathmtu pathmtu).pl = s.pl := by
  unfold QuicProbeSock.setPathmtu
  split_ifs <;> rfl

@[simp] theorem QuicProbeSock.setPathmtu_tx (s : QuicProbeSock) (pathmtu : Nat) :
    (s.setPathmtu pathmtu).tx = s.tx := by
  unfold QuicProbeSock.setPathmtu
  split_ifs <;> rfl

@[simp] theorem QuicProbeSock.setPathmtu_overhead (s : QuicProbeSock) (pathmtu : Nat) :
    (s.setPathmtu pathmtu).overhead = s.overhead := by
  unfold QuicProbeSock.setPathmtu
  split_ifs <;> rfl

/-! ## The probe -/

theorem quicOutqTransmitProbe_pl (s : QuicProbeSock) (ackLen : Nat) :
    (quicOutqTransmitProbe s ackLen).pl = (quicPathPlSend s.pl s.tx.nextPn).2 := by
  simp [quicOutqTransmitProbe, quicOutqTransmit]

theorem quicOutqTransmitProbe_overhead (s : QuicProbeSock) (ackLen : Nat) :
    (quicOutqTransmitProbe s ackLen).overhead = s.overhead := by
  simp [quicOutqTransmitProbe, quicOutqTransmit]

theorem quicOutqTransmitProbe_sentAfter (s : QuicProbeSock) (ackLen : Nat) :
    s.tx.SentAfter (quicOutqTransmitProbe s ackLen).tx := by
  simp only [quicOutqTransmitProbe, QuicProbeSock.setPathmtu_tx]
  exact (QuicProbeTx.SentAfter.of_eq rfl rfl).trans (quicOutqTransmit_sentAfter _ _)

-- With no ACK due and no other frame of the level queued, the probe is the packet whose
-- number the state machine keeps: one PING padded to the probe size.
theorem quicOutqTransmitProbe_alone (s : QuicProbeSock) (ackLen : Nat)
    (hsack : s.tx.needSack = false) (hcontrol : s.tx.control = []) :
    (quicOutqTransmitProbe s ackLen).tx.wire =
        s.tx.wire ++ [(s.tx.nextPn, [quicFramePingCreate s.pl.probeSize s.overhead])] ∧
      (quicOutqTransmitProbe s ackLen).pl.number = s.tx.nextPn := by
  have hping : quicOutqCtrlTail s.tx.control (quicFramePingCreate s.pl.probeSize s.overhead) =
      [quicFramePingCreate s.pl.probeSize s.overhead] := by
    simp [hcontrol, quicOutqCtrlTail, quicFramePingCreate]
  have h := quicOutqTransmit_alone
    { s with tx := { s.tx with control := [quicFramePingCreate s.pl.probeSize s.overhead] } }
    ackLen (.inr rfl) hsack rfl
  refine ⟨?_, ?_⟩
  · simpa [quicOutqTransmitProbe, hping] using h.1
  · simp [quicOutqTransmitProbe_pl]

/-! ## An acknowledged range, a hint, a new route -/

-- What `quic_outq_path_confirm` does once the range holds the probe: the state machine takes
-- the acknowledgement, and a new probe goes out unless the search completed.
theorem quicOutqPathConfirm_of_confirm {s : QuicProbeSock} {largest smallest : Int}
    (hc : quicPathPlConfirm s.pl largest smallest = true) (ackLen : Nat) :
    quicOutqPathConfirm s largest smallest ackLen =
      if (quicPathPlRecv s.pl).2.2.1 then
        { s with pl := (quicPathPlRecv s.pl).2.2.2 }.setPathmtu (quicPathPlRecv s.pl).1
      else quicOutqTransmitProbe
        ({ s with pl := (quicPathPlRecv s.pl).2.2.2 }.setPathmtu (quicPathPlRecv s.pl).1) ackLen := by
  simp only [quicOutqPathConfirm, hc, if_true]

theorem quicOutqPathConfirm_of_not_confirm {s : QuicProbeSock} {largest smallest : Int}
    (hc : quicPathPlConfirm s.pl largest smallest = false) (ackLen : Nat) :
    quicOutqPathConfirm s largest smallest ackLen = s := by
  simp [quicOutqPathConfirm, hc]

theorem quicOutqPathConfirm_sentAfter (s : QuicProbeSock) (largest smallest : Int)
    (ackLen : Nat) : s.tx.SentAfter (quicOutqPathConfirm s largest smallest ackLen).tx := by
  cases hc : quicPathPlConfirm s.pl largest smallest
  · rw [quicOutqPathConfirm_of_not_confirm hc]
    exact .refl _
  · rw [quicOutqPathConfirm_of_confirm hc]
    split_ifs
    · exact .of_eq (by simp) (by simp)
    · have h := quicOutqTransmitProbe_sentAfter
        ({ s with pl := (quicPathPlRecv s.pl).2.2.2 }.setPathmtu (quicPathPlRecv s.pl).1) ackLen
      rwa [QuicProbeSock.setPathmtu_tx] at h

theorem quicOutqPathConfirm_overhead (s : QuicProbeSock) (largest smallest : Int)
    (ackLen : Nat) : (quicOutqPathConfirm s largest smallest ackLen).overhead = s.overhead := by
  cases hc : quicPathPlConfirm s.pl largest smallest
  · rw [quicOutqPathConfirm_of_not_confirm hc]
  · rw [quicOutqPathConfirm_of_confirm hc]
    split_ifs
    · simp
    · rw [quicOutqTransmitProbe_overhead]
      simp

-- The state machine's side of an acknowledged range: nothing, the acknowledgement, or the
-- acknowledgement and the next probe.
theorem quicOutqPathConfirm_pl (s : QuicProbeSock) (largest smallest : Int) (ackLen : Nat) :
    Relation.ReflTransGen PlStep s.pl (quicOutqPathConfirm s largest smallest ackLen).pl := by
  cases hc : quicPathPlConfirm s.pl largest smallest
  · rw [quicOutqPathConfirm_of_not_confirm hc]
  · have hack : PlStep s.pl (quicPathPlRecv s.pl).2.2.2 :=
      ⟨.ack largest smallest, by simp [QuicPlCall.apply, hc]⟩
    rw [quicOutqPathConfirm_of_confirm hc]
    split_ifs
    · exact .single (by simpa using hack)
    · rw [quicOutqTransmitProbe_pl]
      exact .tail (.single (by simpa using hack)) (plStep_apply _ (.send _))

theorem quicPacketRcvErrPmtu_pl (s : QuicProbeSock) (info : Nat) :
    (quicPacketRcvErrPmtu s info).pl = (quicPathPlToobig s.pl info).2.2 := by
  simp [quicPacketRcvErrPmtu]

theorem quicPacketRcvErrPmtu_tx (s : QuicProbeSock) (info : Nat) :
    (quicPacketRcvErrPmtu s info).tx = s.tx := by
  simp [quicPacketRcvErrPmtu]

theorem quicPacketRcvErrPmtu_overhead (s : QuicProbeSock) (info : Nat) :
    (quicPacketRcvErrPmtu s info).overhead = s.overhead := by
  simp [quicPacketRcvErrPmtu]

/-! ## The socket refines the state machine -/

-- Each call moves the PLPMTUD state by at most two steps of the machine.
theorem probeStep_pl {s t : QuicProbeSock} (h : ProbeStep s t) :
    Relation.ReflTransGen PlStep s.pl t.pl := by
  obtain ⟨call, rfl⟩ := h
  cases call with
  | probe ackLen =>
    simp only [QuicProbeCall.apply, quicOutqTransmitProbe_pl]
    exact .single (plStep_apply _ (.send _))
  | ack largest smallest ackLen => exact quicOutqPathConfirm_pl s largest smallest ackLen
  | toobig info =>
    simp only [QuicProbeCall.apply, quicPacketRcvErrPmtu_pl]
    exact .single (plStep_apply _ (.toobig _))
  | route mss => exact .single (plStep_apply _ .reset)
  | sack | queue | transmit | cong => exact .refl

theorem quicProbeSock_refines {s : QuicProbeSock} (h : Reachable ProbeInit ProbeStep s) :
    Reachable PlInit PlStep s.pl :=
  Reachable.map QuicProbeSock.pl (fun _ hs => hs.1) (fun _ _ => probeStep_pl) h

-- Over every run of the socket, however probes, acknowledged ranges, hints, new routes, ACKs due
-- and other control frames interleave, the path MTU stays between QUIC_BASE_PLPMTU and the
-- probe size, the probe size within QUIC_MAX_PLPMTU, and a failed size above the probe size.
theorem quicProbeSock_pl_bounds {s : QuicProbeSock} (h : Reachable ProbeInit ProbeStep s) :
    QUIC_BASE_PLPMTU ≤ s.pl.pmtu ∧ s.pl.pmtu ≤ s.pl.probeSize ∧
      s.pl.probeSize ≤ QUIC_MAX_PLPMTU ∧ (s.pl.probeHigh = 0 ∨ s.pl.probeSize < s.pl.probeHigh) :=
  quicPathPl_bounds (quicProbeSock_refines h)

-- The bounds hold even after an acknowledgement confirmed a size no packet of that number
-- carried: two probes, each sent with an ACK due, and their numbers acknowledged.
theorem quicProbeSock_pl_bounds_ack_first :
    let s₀ : QuicProbeSock :=
      { pl := quicPathPlReset ⟨0, 0, 0, 0, 0, .disabled⟩, mss := 1216,
        maxUdpPayloadSize := 65527, overhead := 13, taglen := 16, window := 14720,
        tx := { nextPn := 1, needSack := false, control := [], inflight := 0, wire := [] } }
    let s : QuicProbeSock :=
      [QuicProbeCall.sack, .probe 5, .sack, .ack 1 1 5, .ack 3 3 5].foldl QuicProbeCall.apply s₀
    Reachable ProbeInit ProbeStep s ∧ s.pl.pmtu = 1232 ∧
      (QUIC_BASE_PLPMTU ≤ s.pl.pmtu ∧ s.pl.pmtu ≤ s.pl.probeSize ∧
        s.pl.probeSize ≤ QUIC_MAX_PLPMTU ∧ (s.pl.probeHigh = 0 ∨ s.pl.probeSize < s.pl.probeHigh)) := by
  intro s₀ s
  have hstep : ∀ s (call : QuicProbeCall), (fun _ _ => true : QuicProbeSock → QuicProbeCall → Bool)
      s call = true → ProbeStep s (call.apply s) := fun s call _ => probeStep_apply s call
  have h : Reachable ProbeInit ProbeStep s :=
    Reachable.foldl_of_allowedRun hstep (Reachable.of_init ⟨⟨⟨0, 0, 0, 0, 0, .disabled⟩, rfl⟩, rfl⟩) _ rfl
  exact ⟨h, by decide, quicProbeSock_pl_bounds h⟩

/-! ## Packet numbers -/

-- Every packet sent has a number of its own, below the next one.
def QuicProbeTx.NumbersInv (tx : QuicProbeTx) : Prop :=
  (tx.wire.map Prod.fst).Pairwise (· < ·) ∧ ∀ p ∈ tx.wire, p.1 < tx.nextPn

theorem QuicProbeTx.SentAfter.numbersInv {tx tx' : QuicProbeTx} (h : tx.SentAfter tx')
    (hi : tx.NumbersInv) : tx'.NumbersInv := by
  obtain ⟨sent, hw, hn, hp⟩ := h
  obtain ⟨hsorted, hlt⟩ := hi
  have hnew : ∀ p ∈ sent, tx.nextPn ≤ p.1 ∧ p.1 < tx'.nextPn := by
    intro p hp'
    have hmem : p.1 ∈ List.range' tx.nextPn sent.length := hn ▸ List.mem_map_of_mem hp'
    rw [List.mem_range'_1] at hmem
    omega
  refine ⟨?_, ?_⟩
  · rw [hw, List.map_append, List.pairwise_append, hn]
    refine ⟨hsorted, List.pairwise_lt_range' .., ?_⟩
    intro a ha b hb
    obtain ⟨p, hp', rfl⟩ := List.mem_map.1 ha
    rw [List.mem_range'_1] at hb
    have := hlt p hp'
    omega
  · intro p hp'
    rw [hw] at hp'
    rcases List.mem_append.1 hp' with hold | hsent
    · have := hlt p hold
      omega
    · exact (hnew p hsent).2

-- The packet sent under a number is the only one with that number.
theorem QuicProbeTx.NumbersInv.unique {tx : QuicProbeTx} (hi : tx.NumbersInv)
    {p q : Nat × List QuicCtrlFrame} (hp : p ∈ tx.wire) (hq : q ∈ tx.wire) (hpq : p.1 = q.1) :
    p = q :=
  List.inj_on_of_nodup_map (hi.1.imp ne_of_lt) hp hq hpq

theorem probeStep_sentAfter {s t : QuicProbeSock} (h : ProbeStep s t) : s.tx.SentAfter t.tx := by
  obtain ⟨call, rfl⟩ := h
  cases call with
  | probe ackLen => exact quicOutqTransmitProbe_sentAfter s ackLen
  | ack largest smallest ackLen => exact quicOutqPathConfirm_sentAfter s largest smallest ackLen
  | toobig info =>
    exact .of_eq (by simp [QuicProbeCall.apply, quicPacketRcvErrPmtu_tx])
      (by simp [QuicProbeCall.apply, quicPacketRcvErrPmtu_tx])
  | transmit ackLen => exact quicOutqTransmit_sentAfter s ackLen
  | route | sack | queue | cong => exact .of_eq rfl rfl

/-! ## When the probe goes out alone -/

-- The proviso under which the probe number is right: no probe is sent while an ACK or another
-- control frame of the level is pending.
def QuicProbeCall.quiet (s : QuicProbeSock) : QuicProbeCall → Bool
  | .probe _ => !s.tx.needSack && s.tx.control.isEmpty
  | .ack largest smallest _ =>
    !quicPathPlConfirm s.pl largest smallest || (!s.tx.needSack && s.tx.control.isEmpty)
  | _ => true

def QuietStep (s t : QuicProbeSock) : Prop :=
  ∃ call : QuicProbeCall, call.quiet s = true ∧ t = call.apply s

-- The state machine's bounds, unique packet numbers, and the probe in flight: the packet sent
-- under its number is a lone PING padded to at least the size the machine would confirm.
structure QuietInv (s : QuicProbeSock) : Prop where
  pl : PlInv s.pl
  numbers : s.tx.NumbersInv
  probe : s.pl.number ≠ 0 → ∃ n : Nat, s.pl.number = n ∧
    ∃ size, s.pl.probeSize ≤ size ∧ (n, [quicFramePingCreate size s.overhead]) ∈ s.tx.wire

theorem quietInv_init {s : QuicProbeSock} (h : ProbeInit s) : QuietInv s := by
  obtain ⟨⟨pl₀, hpl⟩, hwire⟩ := h
  refine ⟨hpl ▸ plInv_reset pl₀, ⟨by simp [hwire], by simp [hwire]⟩, fun hn => ?_⟩
  rw [hpl] at hn
  exact absurd rfl hn

-- A call that leaves the state machine alone and only adds packets keeps the invariant.
theorem QuietInv.of_sentAfter {s t : QuicProbeSock} (h : QuietInv s) (hpl : t.pl = s.pl)
    (ho : t.overhead = s.overhead) (hst : s.tx.SentAfter t.tx) : QuietInv t := by
  refine ⟨hpl ▸ h.pl, hst.numbersInv h.numbers, fun hn => ?_⟩
  rw [hpl] at hn
  obtain ⟨n, hnum, size, hsize, hmem⟩ := h.probe hn
  exact ⟨n, hpl ▸ hnum, size, hpl ▸ hsize, ho ▸ hst.mem hmem⟩

theorem QuietInv.transmitProbe {s : QuicProbeSock} (h : QuietInv s) (ackLen : Nat)
    (hsack : s.tx.needSack = false) (hcontrol : s.tx.control = []) :
    QuietInv (quicOutqTransmitProbe s ackLen) := by
  obtain ⟨hwire, hnum⟩ := quicOutqTransmitProbe_alone s ackLen hsack hcontrol
  refine ⟨?_, (quicOutqTransmitProbe_sentAfter s ackLen).numbersInv h.numbers, fun _ => ?_⟩
  · rw [quicOutqTransmitProbe_pl]
    exact h.pl.send _
  · refine ⟨s.tx.nextPn, hnum, s.pl.probeSize, ?_, ?_⟩
    · rw [quicOutqTransmitProbe_pl]
      exact h.pl.send_probeSize_le _
    · rw [hwire, quicOutqTransmitProbe_overhead]
      simp

theorem quietInv_step {s t : QuicProbeSock} (h : QuietInv s) (hstep : QuietStep s t) :
    QuietInv t := by
  obtain ⟨call, hquiet, rfl⟩ := hstep
  cases call with
  | probe ackLen =>
    simp only [QuicProbeCall.quiet, Bool.and_eq_true, Bool.not_eq_true',
      List.isEmpty_iff] at hquiet
    exact h.transmitProbe ackLen hquiet.1 hquiet.2
  | ack largest smallest ackLen =>
    cases hc : quicPathPlConfirm s.pl largest smallest
    · simpa [QuicProbeCall.apply, quicOutqPathConfirm_of_not_confirm hc] using h
    · simp only [QuicProbeCall.quiet, hc, Bool.not_true, Bool.false_or, Bool.and_eq_true,
        Bool.not_eq_true', List.isEmpty_iff] at hquiet
      -- the acknowledgement retires the probe; the next one goes out alone
      have hrecv : QuietInv ({ s with pl := (quicPathPlRecv s.pl).2.2.2 }.setPathmtu
          (quicPathPlRecv s.pl).1) :=
        ⟨by simpa using h.pl.recv, by simpa using h.numbers, fun hn => by simp at hn⟩
      simp only [QuicProbeCall.apply, quicOutqPathConfirm_of_confirm hc]
      split_ifs
      · exact hrecv
      · exact hrecv.transmitProbe ackLen (by simpa using hquiet.1) (by simpa using hquiet.2)
  | toobig info =>
    refine ⟨?_, ?_, fun hn => ?_⟩
    · simpa [QuicProbeCall.apply, quicPacketRcvErrPmtu_pl] using h.pl.toobig info
    · simpa [QuicProbeCall.apply, quicPacketRcvErrPmtu_tx] using h.numbers
    · simp only [QuicProbeCall.apply, quicPacketRcvErrPmtu_pl, quicPathPlToobig_number,
        quicPacketRcvErrPmtu_tx, quicPacketRcvErrPmtu_overhead] at hn ⊢
      obtain ⟨n, hnum, size, hsize, hmem⟩ := h.probe hn
      exact ⟨n, hnum, size, (h.pl.toobig_probeSize_le info).trans hsize, hmem⟩
  | route mss =>
    exact ⟨plInv_reset s.pl, h.numbers, fun hn => absurd rfl hn⟩
  | transmit ackLen => exact h.of_sentAfter rfl rfl (quicOutqTransmit_sentAfter s ackLen)
  | sack | queue | cong => exact h.of_sentAfter rfl rfl (.of_eq rfl rfl)

theorem quietInv_reachable {s : QuicProbeSock} (h : Reachable ProbeInit QuietStep s) :
    QuietInv s := by
  refine Reachable.invariant ?_ ?_ h
  · intro t ht
    exact quietInv_init ht
  · intro t u ht htu
    exact quietInv_step ht htu

-- Under the proviso, an acknowledged range that confirms the probe holds the number of exactly one
-- packet sent, a lone PING padded to at least the path MTU that `quic_path_pl_recv` adopts.
theorem quicOutqPathConfirm_quiet_probe {s : QuicProbeSock}
    (h : Reachable ProbeInit QuietStep s) {largest smallest : Int}
    (hc : quicPathPlConfirm s.pl largest smallest = true) :
    ∃ n : Nat, s.pl.number = n ∧ smallest ≤ n ∧ n ≤ largest ∧
      ∃ size, (quicPathPlRecv s.pl).2.2.2.pmtu ≤ size ∧
        (n, [quicFramePingCreate size s.overhead]) ∈ s.tx.wire ∧
        ∀ p ∈ s.tx.wire, p.1 = n → p.2 = [quicFramePingCreate size s.overhead] := by
  have hinv := quietInv_reachable h
  simp only [quicPathPlConfirm, Bool.and_eq_true, bne_iff_ne, ne_eq, decide_eq_true_eq] at hc
  obtain ⟨⟨hne, hlo⟩, hhi⟩ := hc
  obtain ⟨n, hnum, size, hsize, hmem⟩ := hinv.probe hne
  refine ⟨n, hnum, hnum ▸ hlo, hnum ▸ hhi, size, by simpa using hsize, hmem, ?_⟩
  intro p hp hpn
  rw [hinv.numbers.unique hp hmem hpn]

-- An ACK due is flushed by a transmission before the probe, which then goes out alone as
-- packet 2.
theorem quicOutqPathConfirm_quiet_probe_flushed :
    let s₀ : QuicProbeSock :=
      { pl := quicPathPlReset ⟨0, 0, 0, 0, 0, .disabled⟩, mss := 1216,
        maxUdpPayloadSize := 65527, overhead := 13, taglen := 16, window := 14720,
        tx := { nextPn := 1, needSack := false, control := [], inflight := 0, wire := [] } }
    let s : QuicProbeSock :=
      [QuicProbeCall.sack, .transmit 5, .probe 5].foldl QuicProbeCall.apply s₀
    Reachable ProbeInit QuietStep s ∧ quicPathPlConfirm s.pl 2 2 = true ∧
      ∃ n : Nat, s.pl.number = n ∧ (2 : Int) ≤ n ∧ (n : Int) ≤ 2 ∧
        ∃ size, (quicPathPlRecv s.pl).2.2.2.pmtu ≤ size ∧
          (n, [quicFramePingCreate size s.overhead]) ∈ s.tx.wire ∧
          ∀ p ∈ s.tx.wire, p.1 = n → p.2 = [quicFramePingCreate size s.overhead] := by
  intro s₀ s
  have hstep : ∀ s (call : QuicProbeCall), call.quiet s = true → QuietStep s (call.apply s) :=
    fun s call hq => ⟨call, hq, rfl⟩
  have h : Reachable ProbeInit QuietStep s :=
    Reachable.foldl_of_allowedRun hstep (Reachable.of_init ⟨⟨⟨0, 0, 0, 0, 0, .disabled⟩, rfl⟩, rfl⟩) _ (by decide)
  have hc : quicPathPlConfirm s.pl 2 2 = true := by decide
  exact ⟨h, hc, quicOutqPathConfirm_quiet_probe h hc⟩

-- Without the proviso the probe's number can be another packet's: with an ACK due, the ACK
-- fills the packet numbered `next_pn` and the padded PING, too large to join it, goes out as the
-- next one. Acknowledging the ACK-only packets 1 and 3 confirms 1200 and then 1232 bytes.
theorem quicOutqTransmitProbe_number_of_ack :
    let s₀ : QuicProbeSock :=
      { pl := quicPathPlReset ⟨0, 0, 0, 0, 0, .disabled⟩, mss := 1216,
        maxUdpPayloadSize := 65527, overhead := 13, taglen := 16, window := 14720,
        tx := { nextPn := 1, needSack := false, control := [], inflight := 0, wire := [] } }
    let s : QuicProbeSock :=
      [QuicProbeCall.sack, .probe 5, .sack, .ack 1 1 5].foldl QuicProbeCall.apply s₀
    let t : QuicProbeSock := (QuicProbeCall.ack 3 3 5).apply s
    Reachable ProbeInit ProbeStep s ∧ ProbeStep s t ∧ s.pl.number = 3 ∧
      s.tx.wire.lookup 3 = some [quicCtrlFrameAck 5] ∧
      s.tx.wire.lookup 4 = some [quicFramePingCreate 1232 13] ∧
      t.pl.pmtu = 1232 ∧ QUIC_BASE_PLPMTU < t.pl.pmtu := by
  intro s₀ s t
  have hstep : ∀ s (call : QuicProbeCall), (fun _ _ => true : QuicProbeSock → QuicProbeCall → Bool)
      s call = true → ProbeStep s (call.apply s) := fun s call _ => probeStep_apply s call
  have h : Reachable ProbeInit ProbeStep s :=
    Reachable.foldl_of_allowedRun hstep (Reachable.of_init ⟨⟨⟨0, 0, 0, 0, 0, .disabled⟩, rfl⟩, rfl⟩) _ rfl
  exact ⟨h, probeStep_apply s _, by decide, by decide, by decide, by decide, by decide⟩

end Quic
