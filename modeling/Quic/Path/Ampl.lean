import Quic.Common.Basic
import Quic.Lib.Reachable

namespace Quic

-- The AEAD tag length.
def QUIC_TAG_LEN : Nat := 16

-- The anti-amplification fields of `struct quic_path_group`; both counters are u16.
structure QuicAmpl where
  amplSndlen : Nat
  amplRcvlen : Nat
  validated : Bool
  blocked : Bool
  deriving DecidableEq, Repr

-- A frame offered to the packet builder: its `len`, whether it is ack-eliciting, and whether
-- it is a PING.
structure QuicOutFrame where
  len : Nat
  ackEliciting : Bool
  ping : Bool
  deriving DecidableEq, Repr

-- The packet being built (`struct quic_packet`): its level, the u16 `len` so far (from the
-- header `overhead`), the `frame_len` and count of tracked frames, the MSS and AEAD tag length.
structure QuicPacketBuild where
  level : Nat
  len : Nat
  overhead : Nat
  frameLen : Nat
  frames : Nat
  ackEliciting : Bool
  mss : Nat
  taglen : Nat
  deriving DecidableEq, Repr

-- A packet right after `quic_packet_config`: only the header counted.
def quicPacketConfig (level overhead mss taglen : Nat) : QuicPacketBuild :=
  { level := level, len := overhead, overhead := overhead, frameLen := 0, frames := 0,
    ackEliciting := false, mss := mss, taglen := taglen }

-- `quic_outq_limit_check`: true when the frame must wait, for the single-packet mode, the
-- congestion window, or, on a server before validation, the anti-amplification limit (which
-- also sets `paths->blocked`).
def quicOutqLimitCheck (isServ single : Bool) (count inflight window : Nat)
    (packet : QuicPacketBuild) (frame : QuicOutFrame) (paths : QuicAmpl) : Bool × QuicAmpl :=
  if single ∧ count ≠ 0 then (true, paths)
  else if !single ∧ frame.ackEliciting ∧ !frame.ping ∧
      inflight + (packet.frameLen + frame.len) > window then (true, paths)
  else if isServ ∧ !paths.validated ∧
      paths.amplSndlen + (packet.len + frame.len + packet.taglen) > paths.amplRcvlen * 3 then
    (true, { paths with blocked := true })
  else (false, paths)

-- `quic_packet_tail` for a frame of the packet's level and path: `none` where the frame does
-- not fit behind frames already appended.
def quicPacketTail (packet : QuicPacketBuild) (frame : QuicOutFrame) : Option QuicPacketBuild :=
  if packet.len + frame.len > packet.mss - packet.taglen ∧ packet.len ≠ packet.overhead then none
  else
    let tracked := frame.ackEliciting ∧ frame.ping = false
    some { packet with
      ackEliciting := packet.ackEliciting || frame.ackEliciting,
      frames := if tracked then packet.frames + 1 else packet.frames,
      frameLen := if tracked then packet.frameLen + frame.len else packet.frameLen,
      len := toU16 (packet.len + frame.len) }

-- The frames of one packet as `quic_outq_transmit_ctrl` appends them: every one passes the
-- limit check against the packet built so far and fits. `none` where one is held back.
def quicPacketAppend (isServ single : Bool) (count inflight window : Nat) (paths : QuicAmpl) :
    QuicPacketBuild → List QuicOutFrame → Option QuicPacketBuild
  | packet, [] => some packet
  | packet, frame :: frames =>
    if (quicOutqLimitCheck isServ single count inflight window packet frame paths).1 then none
    else (quicPacketTail packet frame).bind
      (quicPacketAppend isServ single count inflight window paths · frames)

-- The length `quic_packet_handshake_create` pushes for a long-header packet: an Initial that
-- is ack-eliciting, or any Initial of a client, is padded up to 1200 bytes with the tag.
def quicPacketHandshakeLen (isServ : Bool) (packet : QuicPacketBuild) : Nat :=
  let len := packet.len
  let hlen := QUIC_MIN_UDP_PAYLOAD - packet.taglen
  if (packet.ackEliciting ∨ isServ = false) ∧ packet.level = QUIC_CRYPTO_INITIAL ∧ len < hlen then
    hlen
  else len

-- The bytes of the packet on the wire (`skb->len`): short-header packets are not padded.
def quicPacketSkbLen (isServ : Bool) (packet : QuicPacketBuild) : Nat :=
  if packet.level = QUIC_CRYPTO_APP then packet.len else quicPacketHandshakeLen isServ packet

-- The accounting at the end of `quic_packet_pack_frames`.
def quicPacketAmplSent (isServ : Bool) (paths : QuicAmpl) (skbLen taglen : Nat) : QuicAmpl :=
  if isServ ∧ !paths.validated then
    { paths with amplSndlen := toU16 (paths.amplSndlen + skbLen + taglen) }
  else paths

-- The credit of a received packet (`number_offset + length` of a long-header packet, or
-- `skb->len`), and the validation by a Handshake packet, in `quic_packet_handshake_process`.
def quicPacketAmplRecv (paths : QuicAmpl) (len : Nat) (handshake : Bool) : QuicAmpl :=
  if !paths.validated then
    let paths := { paths with amplRcvlen := toU16 (paths.amplRcvlen + len) }
    if handshake then { paths with validated := true } else paths
  else paths

-- A server connection with the bytes sent and the bytes credited so far beside its path
-- state; `isServ` is fixed to true.
structure AmplRun where
  paths : QuicAmpl
  sent : Nat
  credited : Nat
  deriving DecidableEq, Repr

def AmplInit (run : AmplRun) : Prop :=
  run = ⟨⟨0, 0, false, false⟩, 0, 0⟩

-- The steps of a server run: a received packet credits its bytes (if the path is still
-- unvalidated), and a packet whose frames were admitted by `quic_outq_transmit_ctrl`, with any
-- congestion state, is sent. `overhead` is the header length of the packet.
inductive AmplStep : AmplRun → AmplRun → Prop
  | recv (run : AmplRun) (len : Nat) (handshake : Bool) :
      AmplStep run
        ⟨quicPacketAmplRecv run.paths len handshake, run.sent,
          if run.paths.validated then run.credited else run.credited + len⟩
  | send (run : AmplRun) (single : Bool) (count inflight window level overhead mss : Nat)
      (frames : List QuicOutFrame) (packet : QuicPacketBuild)
      (happend : quicPacketAppend true single count inflight window run.paths
        (quicPacketConfig level overhead mss QUIC_TAG_LEN) frames = some packet)
      (hne : frames ≠ []) :
      AmplStep run
        ⟨quicPacketAmplSent true run.paths (quicPacketSkbLen true packet) QUIC_TAG_LEN,
          if run.paths.validated then run.sent
          else run.sent + quicPacketSkbLen true packet + QUIC_TAG_LEN, run.credited⟩

-- What a passed limit check says on a server's unvalidated path: the packet with the frame and
-- its tag stays within three times the credit, as the u16 counters hold them.
theorem quicOutqLimitCheck_ampl {single : Bool} {count inflight window : Nat}
    {packet : QuicPacketBuild} {frame : QuicOutFrame} {paths : QuicAmpl}
    (h : (quicOutqLimitCheck true single count inflight window packet frame paths).1 = false)
    (hv : paths.validated = false) :
    paths.amplSndlen + (packet.len + frame.len + packet.taglen) ≤ paths.amplRcvlen * 3 := by
  unfold quicOutqLimitCheck at h
  split_ifs at h with h1 h2 h3
  simp only [hv, Bool.not_false, true_and] at h3
  exact Nat.le_of_not_lt h3

theorem quicPacketTail_len {packet next : QuicPacketBuild} {frame : QuicOutFrame}
    (h : quicPacketTail packet frame = some next) :
    next.len ≤ packet.len + frame.len ∧ next.taglen = packet.taglen := by
  unfold quicPacketTail at h
  split_ifs at h
  cases h
  refine ⟨?_, rfl⟩
  dsimp only
  unfold toU16 toUnsigned
  omega

-- The limit check is made before each frame is appended: it bounds the packet as built,
-- header, frames and tag, but not what `quic_packet_handshake_create` pads it to.
theorem quicPacketAppend_ampl {single : Bool} {count inflight window : Nat} {paths : QuicAmpl}
    (hv : paths.validated = false) :
    ∀ {start packet : QuicPacketBuild} {frames : List QuicOutFrame},
      quicPacketAppend true single count inflight window paths start frames = some packet →
      frames ≠ [] → paths.amplSndlen + packet.len + packet.taglen ≤ paths.amplRcvlen * 3 := by
  intro start packet frames h hne
  induction frames generalizing start with
  | nil => exact absurd rfl hne
  | cons frame frames ih =>
    unfold quicPacketAppend at h
    split_ifs at h with hcheck
    obtain ⟨next, htail, hrest⟩ := Option.bind_eq_some_iff.1 h
    cases frames with
    | nil =>
      -- the last frame: its check bounds the finished packet
      have hle := quicOutqLimitCheck_ampl (Bool.eq_false_iff.2 hcheck) hv
      have ⟨hlen, htag⟩ := quicPacketTail_len htail
      simp only [quicPacketAppend, Option.some.injEq] at hrest
      subst hrest
      omega
    | cons _ _ => exact ih hrest (List.cons_ne_nil _ _)

-- While the path is unvalidated the u16 counters are the totals modulo 2^16.
def AmplInv (run : AmplRun) : Prop :=
  run.paths.validated = false →
    run.paths.amplSndlen = run.sent % 65536 ∧ run.paths.amplRcvlen = run.credited % 65536

theorem amplInv_step {run next : AmplRun} (h : AmplInv run) (hstep : AmplStep run next) :
    AmplInv next := by
  intro hv
  cases hstep with
  | recv len handshake =>
    cases hval : run.paths.validated with
    | true => simp [quicPacketAmplRecv, hval] at hv
    | false =>
      obtain ⟨hs, hr⟩ := h hval
      cases handshake with
      | true => simp [quicPacketAmplRecv, hval] at hv
      | false =>
        simp only [quicPacketAmplRecv, hval, Bool.not_false, if_true, if_false,
          Bool.false_eq_true]
        refine ⟨hs, ?_⟩
        rw [hr]
        unfold toU16 toUnsigned
        omega
  | send single count inflight window level overhead mss frames packet happend hne =>
    cases hval : run.paths.validated with
    | true => simp [quicPacketAmplSent, hval] at hv
    | false =>
      obtain ⟨hs, hr⟩ := h hval
      simp only [quicPacketAmplSent, hval, Bool.not_false, and_self, if_true, if_false,
        Bool.false_eq_true]
      refine ⟨?_, hr⟩
      rw [hs]
      unfold toU16 toUnsigned
      omega

theorem amplInv_of_reachable {run : AmplRun} (h : Reachable AmplInit AmplStep run) :
    AmplInv run := by
  have hinit : ∀ start, AmplInit start → AmplInv start := by
    intro start hstart
    unfold AmplInit at hstart
    subst hstart
    exact fun _ => ⟨rfl, rfl⟩
  exact Reachable.invariant hinit (fun _ _ => amplInv_step) h

-- What the limit check does give over a run: while neither total has reached 2^16, every
-- packet admitted on the unvalidated path, before padding, keeps the bytes sent within three
-- times the credit.
theorem quicPacketAppend_sent_le {run : AmplRun} (h : Reachable AmplInit AmplStep run)
    (hv : run.paths.validated = false) (hsent : run.sent < 65536) (hcred : run.credited < 65536)
    {single : Bool} {count inflight window level overhead mss : Nat}
    {frames : List QuicOutFrame} {packet : QuicPacketBuild}
    (happend : quicPacketAppend true single count inflight window run.paths
      (quicPacketConfig level overhead mss QUIC_TAG_LEN) frames = some packet)
    (hne : frames ≠ []) :
    run.sent + packet.len + packet.taglen ≤ 3 * run.credited := by
  obtain ⟨hs, hr⟩ := amplInv_of_reachable h hv
  have hle := quicPacketAppend_ampl hv happend hne
  rw [hs, hr, Nat.mod_eq_of_lt hsent, Nat.mod_eq_of_lt hcred] at hle
  omega

-- A server receives one 1300-byte Initial, so it may send 3900 bytes before validation. On
-- four probe timeouts it sends its 100-byte Initial CRYPTO frame again, in single-packet mode
-- behind a 50-byte header: each packet passes the limit check at 166 bytes and is padded to
-- 1200 bytes after it, so 4800 bytes leave the server.
theorem quicAmpl_initial_padding_exceeds :
    ∃ run, Reachable AmplInit AmplStep run ∧ run.paths.validated = false ∧
      run.sent > 3 * run.credited := by
  have hne : [(⟨100, true, false⟩ : QuicOutFrame)] ≠ [] := List.cons_ne_nil _ _
  have h₀ : Reachable AmplInit AmplStep ⟨⟨0, 0, false, false⟩, 0, 0⟩ := Reachable.of_init rfl
  have h₁ := h₀.tail (AmplStep.recv _ 1300 false)
  have h₂ := h₁.tail (AmplStep.send _ true 0 0 0 QUIC_CRYPTO_INITIAL 50 1200 _ _ rfl hne)
  have h₃ := h₂.tail (AmplStep.send _ true 0 0 0 QUIC_CRYPTO_INITIAL 50 1200 _ _ rfl hne)
  have h₄ := h₃.tail (AmplStep.send _ true 0 0 0 QUIC_CRYPTO_INITIAL 50 1200 _ _ rfl hne)
  have h₅ := h₄.tail (AmplStep.send _ true 0 0 0 QUIC_CRYPTO_INITIAL 50 1200 _ _ rfl hne)
  exact ⟨_, h₅, rfl, by decide⟩

-- A 1-RTT packet of 1200 bytes on the wire: an 84-byte header and one 1100-byte frame.
-- While the u16 credit is at least 22245, three times it exceeds any u16 `ampl_sndlen` plus the
-- packet, so the limit check admits it.
theorem quicPacketAppend_full_app {paths : QuicAmpl} (hv : paths.validated = false)
    (hs : paths.amplSndlen < 65536) (hr : 22245 ≤ paths.amplRcvlen) :
    quicPacketAppend true false 0 0 1100 paths (quicPacketConfig QUIC_CRYPTO_APP 84 1200 QUIC_TAG_LEN)
      [⟨1100, true, false⟩] = some ⟨QUIC_CRYPTO_APP, 1184, 84, 1100, 1, true, 1200, QUIC_TAG_LEN⟩ := by
  have hcheck : (quicOutqLimitCheck true false 0 0 1100
      (quicPacketConfig QUIC_CRYPTO_APP 84 1200 QUIC_TAG_LEN) ⟨1100, true, false⟩ paths).1 = false := by
    have hlim : ¬ paths.amplSndlen + (84 + 1100 + 16) > paths.amplRcvlen * 3 := by omega
    simp [quicOutqLimitCheck, quicPacketConfig, QUIC_TAG_LEN, hv, hlim]
  have htail : quicPacketTail (quicPacketConfig QUIC_CRYPTO_APP 84 1200 QUIC_TAG_LEN)
      ⟨1100, true, false⟩ = some ⟨QUIC_CRYPTO_APP, 1184, 84, 1100, 1, true, 1200, QUIC_TAG_LEN⟩ := by
    decide +kernel
  rw [quicPacketAppend, if_neg (by rw [hcheck]; decide), htail]
  rfl

-- Once the credit reaches 22245 bytes the u16 `ampl_sndlen` wraps before it can reach three
-- times the credit: from there the server sends without bound on an unvalidated path.
theorem quicAmpl_sent_unbounded {run : AmplRun} (h : Reachable AmplInit AmplStep run)
    (hv : run.paths.validated = false) (hr : 22245 ≤ run.paths.amplRcvlen) (n : Nat) :
    ∃ next, Reachable AmplInit AmplStep next ∧ next.paths.validated = false ∧
      next.paths.amplRcvlen = run.paths.amplRcvlen ∧ next.credited = run.credited ∧
      next.sent = run.sent + 1200 * n := by
  induction n with
  | zero => exact ⟨run, h, hv, rfl, rfl, rfl⟩
  | succ n ih =>
    obtain ⟨next, hnext, hv', hr', hc', hs'⟩ := ih
    -- the u16 counter is below 2^16 in every reachable state
    have hsnd : next.paths.amplSndlen < 65536 := by
      rw [((amplInv_of_reachable hnext) hv').1]
      exact Nat.mod_lt _ (by decide)
    have happend := quicPacketAppend_full_app hv' hsnd (hr' ▸ hr)
    refine ⟨_, hnext.tail (AmplStep.send next false 0 0 1100 QUIC_CRYPTO_APP 84 1200 _ _ happend
      (List.cons_ne_nil _ _)), ?_, ?_, hc', ?_⟩
    · simp [quicPacketAmplSent, hv']
    · simp [quicPacketAmplSent, hv', hr']
    · simp only [hv', if_false, Bool.false_eq_true, hs']
      simp [quicPacketSkbLen, QUIC_TAG_LEN]
      omega

end Quic
