import Quic.Inqueue.Stream
import Quic.Lib.Reachable

namespace Quic

def QUIC_INQ_RWND_SHIFT : Nat := 4

-- `quic_inq_flow_control` after the application read `bytes` of the stream: each level moves
-- its `max_bytes` to what was read plus its (u32) window once the unadvertised part of the
-- window reaches max(mss, window / 16); under memory pressure the window is halved first.
def quicInqFlowControl (s : QuicRecvState) (bytes mss : Nat) (pressure : Bool) : QuicRecvState :=
  if bytes = 0 then s
  else
    let s := { s with bytes := s.bytes + bytes,
                      stream := { s.stream with bytes := s.stream.bytes + bytes } }
    let window := toU32 s.maxData
    let s :=
      if toU64 ((s.bytes + window : Int) - s.maxBytes) ≥ max mss (window >>> QUIC_INQ_RWND_SHIFT) then
        let window := if pressure then window >>> 1 else window
        { s with maxBytes := s.bytes + window }
      else s
    let window := toU32 s.stream.window
    if s.stream.state < QUIC_STREAM_RECV_STATE_RECVD ∧
        toU64 ((s.stream.bytes + window : Int) - s.stream.maxBytes) ≥
          max mss (window >>> QUIC_INQ_RWND_SHIFT) then
      let window := if pressure then window >>> 1 else window
      { s with stream := { s.stream with maxBytes := s.stream.bytes + window } }
    else s

-- `quic_frame_data_blocked_process`: MAX_DATA is sent unconditionally, with `max_bytes` moved
-- to what was read plus the (possibly halved) window; it is restored if the frame cannot be
-- queued.
def quicFrameDataBlockedProcess (s : QuicRecvState) (pressure transmit : Bool) :
    Except Int QuicRecvState :=
  let window := if pressure then s.maxData >>> 1 else s.maxData
  if transmit then .ok { s with maxBytes := s.bytes + window } else .error (-ENOMEM)

-- `quic_frame_stream_data_blocked_process` for the stream, with its u32 `window`.
def quicFrameStreamDataBlockedProcess (s : QuicRecvState) (pressure transmit : Bool) :
    Except Int QuicRecvState :=
  if s.stream.state ≥ QUIC_STREAM_RECV_STATE_RECVD then .ok s
  else
    let window := toU32 s.stream.window
    let window := if pressure then window >>> 1 else window
    if transmit then .ok { s with stream := { s.stream with maxBytes := s.stream.bytes + window } }
    else .error (-ENOMEM)

-- With 10000 bytes of connection window and 8000 bytes received but not yet read, a
-- DATA_BLOCKED frame under memory pressure moves `max_bytes` from 10000 down to 5000, below
-- the data already received, and a STREAM frame ending at 9000, within the limit advertised
-- before, is then refused with FLOW_CONTROL_ERROR.
theorem quicFrameDataBlocked_shrinks_limit :
    ∃ s₁ s₂,
      quicFrameStreamProcess (quicStreamRecvInit 10000 10000) ⟨0, 8000, false, 0⟩ true true =
        .ok s₁ ∧
      quicFrameDataBlockedProcess s₁ true true = .ok s₂ ∧
      s₁.maxBytes = 10000 ∧ s₂.maxBytes = 5000 ∧ s₂.highest = 8000 ∧
      quicFrameStreamProcess s₂ ⟨8000, 1000, false, 0⟩ true true =
        .error (-ENOBUFS, QUIC_TRANSPORT_ERROR_FLOW_CONTROL) :=
  ⟨_, _, rfl, rfl, rfl, rfl, rfl, rfl⟩

-- What the receive path leaves alone: the read counts, the windows and the limits.
structure SameLimits (s t : QuicRecvState) : Prop where
  maxBytes : t.maxBytes = s.maxBytes
  bytes : t.bytes = s.bytes
  maxData : t.maxData = s.maxData
  streamMaxBytes : t.stream.maxBytes = s.stream.maxBytes
  streamBytes : t.stream.bytes = s.stream.bytes
  streamWindow : t.stream.window = s.stream.window

theorem SameLimits.refl (s : QuicRecvState) : SameLimits s s := ⟨rfl, rfl, rfl, rfl, rfl, rfl⟩

theorem SameLimits.trans {s t u : QuicRecvState} (h₁ : SameLimits s t) (h₂ : SameLimits t u) :
    SameLimits s u :=
  ⟨h₂.1.trans h₁.1, h₂.2.trans h₁.2, h₂.3.trans h₁.3, h₂.4.trans h₁.4, h₂.5.trans h₁.5,
    h₂.6.trans h₁.6⟩

theorem sameLimits_frags (s : QuicRecvState) (frags : Nat) :
    SameLimits s { s with stream := { s.stream with frags := frags } } :=
  ⟨rfl, rfl, rfl, rfl, rfl, rfl⟩

theorem sameLimits_streamList (s : QuicRecvState) (list : List QuicRecvFrame) :
    SameLimits s { s with streamList := list } :=
  ⟨rfl, rfl, rfl, rfl, rfl, rfl⟩

theorem quicInqStreamTail_limits (s : QuicRecvState) (frame : QuicRecvFrame) :
    SameLimits s (quicInqStreamTail s frame) ∧ (quicInqStreamTail s frame).highest = s.highest ∧
      (quicInqStreamTail s frame).stream.highest = s.stream.highest := by
  unfold quicInqStreamTail
  split <;> exact ⟨⟨rfl, rfl, rfl, rfl, rfl, rfl⟩, rfl, rfl⟩

theorem quicInqStreamMerge_limits (s : QuicRecvState) (frames : List QuicRecvFrame) :
    SameLimits s (quicInqStreamMerge s frames).1 ∧ (quicInqStreamMerge s frames).1.highest = s.highest ∧
      (quicInqStreamMerge s frames).1.stream.highest = s.stream.highest := by
  induction frames generalizing s with
  | nil => exact ⟨SameLimits.refl s, rfl, rfl⟩
  | cons frame frames ih =>
    unfold quicInqStreamMerge
    split
    · exact ⟨SameLimits.refl s, rfl, rfl⟩
    · dsimp only
      split
      · obtain ⟨h₁, h₂, h₃⟩ := ih _
        exact ⟨(sameLimits_frags s _).trans h₁, h₂, h₃⟩
      · obtain ⟨h₁, h₂, h₃⟩ := ih _
        obtain ⟨t₁, t₂, t₃⟩ := quicInqStreamTail_limits
          { s with stream := { s.stream with frags := toU32 ((s.stream.frags : Int) - 1) } } frame
        exact ⟨((sameLimits_frags s _).trans t₁).trans h₁, h₂.trans t₂, h₃.trans t₃⟩

-- An accepted frame raises both `highest` by the same amount, and only within both limits.
theorem quicInqStreamRecv_highest {s t : QuicRecvState} {frame : QuicRecvFrame} {rmem : Bool}
    (h : quicInqStreamRecv s frame rmem = .ok t) :
    SameLimits s t ∧ ∃ d, t.highest = s.highest + d ∧ t.stream.highest = s.stream.highest + d ∧
      (d = 0 ∨ (s.highest + d ≤ s.maxBytes ∧ s.stream.highest + d ≤ s.stream.maxBytes)) := by
  have hzero : SameLimits s t ∧ t.highest = s.highest ∧ t.stream.highest = s.stream.highest →
      SameLimits s t ∧ ∃ d, t.highest = s.highest + d ∧ t.stream.highest = s.stream.highest + d ∧
        (d = 0 ∨ (s.highest + d ≤ s.maxBytes ∧ s.stream.highest + d ≤ s.stream.maxBytes)) :=
    fun ⟨hl, h₁, h₂⟩ => ⟨hl, 0, h₁, h₂, Or.inl rfl⟩
  unfold quicInqStreamRecv at h
  dsimp only at h
  -- a frame wholly below `recv.offset` is dropped
  by_cases hdup : s.stream.offset ≥ frame.offset + frame.len ∧
      (s.stream.state = QUIC_STREAM_RECV_STATE_SIZE_KNOWN ∨ frame.fin = false)
  · rw [if_pos hdup] at h
    cases h
    exact hzero ⟨SameLimits.refl s, rfl, rfl⟩
  rw [if_neg hdup] at h
  cases rmem
  · rw [if_pos (show (!false) = true from rfl)] at h
    cases h
  rw [if_neg (by decide)] at h
  generalize hd : (if frame.offset + frame.len > s.stream.highest then
      frame.offset + frame.len - s.stream.highest else 0) = d at h
  by_cases hflow : frame.offset + frame.len > s.stream.highest ∧
      (s.highest + d > s.maxBytes ∨ s.stream.highest + d > s.stream.maxBytes)
  · rw [if_pos hflow] at h
    cases h
  rw [if_neg hflow] at h
  -- the flow-control check passed: new data fits under both limits
  have hcheck : d = 0 ∨ (s.highest + d ≤ s.maxBytes ∧ s.stream.highest + d ≤ s.stream.maxBytes) := by
    by_cases hgt : frame.offset + frame.len > s.stream.highest
    · have := not_and.1 hflow hgt
      omega
    · left
      rw [← hd, if_neg hgt]
  by_cases hfinal : frame.offset + frame.len > s.stream.highest ∧ s.stream.finalsz ≠ 0 ∧
      frame.offset + frame.len > s.stream.finalsz
  · rw [if_pos hfinal] at h
    cases h
  rw [if_neg hfinal] at h
  -- the first-data event touches the events only
  generalize hs₁ : (if s.stream.highest = 0 then
      { s with events := s.events ++ [⟨QUIC_STREAM_RECV_STATE_RECV, 0⟩] } else s) = s₁ at h
  have hs₁' : s₁.stream = s.stream ∧ s₁.highest = s.highest ∧ SameLimits s s₁ := by
    subst hs₁
    split <;> exact ⟨rfl, rfl, ⟨rfl, rfl, rfl, rfl, rfl, rfl⟩⟩
  obtain ⟨hstream, hhigh, hlim⟩ := hs₁'
  split at h
  · -- out of order: dropped as covered by a buffered frame, or buffered
    split at h
    · cases h
      exact hzero ⟨hlim, hhigh, by rw [hstream]⟩
    · split at h
      · cases h
      · split at h <;>
        · cases h
          exact ⟨⟨hlim.1, hlim.2, hlim.3, by rw [← hlim.4, hstream], by rw [← hlim.5, hstream],
            by rw [← hlim.6, hstream]⟩, d, by rw [← hhigh], by rw [← hstream], hcheck⟩
  · -- in order: the tail, then possibly the merge loop
    generalize hs₂ : ({ s₁ with highest := s₁.highest + d,
                                stream := { s₁.stream with highest := s₁.stream.highest + d } } :
        QuicRecvState) = s₂ at h
    have hlim' : SameLimits s s₂ := by
      subst hs₂
      exact hlim.trans ⟨rfl, rfl, rfl, rfl, rfl, rfl⟩
    have hhigh' : s₂.highest = s.highest + d ∧ s₂.stream.highest = s.stream.highest + d := by
      subst hs₂
      exact ⟨by rw [← hhigh], by rw [← hstream]⟩
    have ht := quicInqStreamTail_limits s₂ frame
    split at h
    · cases h
      exact ⟨hlim'.trans ht.1, d, by rw [ht.2.1, hhigh'.1], by rw [ht.2.2, hhigh'.2], hcheck⟩
    · cases h
      have hm := quicInqStreamMerge_limits (quicInqStreamTail s₂ frame)
        (quicInqStreamTail s₂ frame).streamList
      exact ⟨((hlim'.trans ht.1).trans hm.1).trans (sameLimits_streamList _ _), d, by rw [hm.2.1, ht.2.1, hhigh'.1],
        by rw [hm.2.2, ht.2.2, hhigh'.2], hcheck⟩

theorem quicFrameStreamProcess_highest {s t : QuicRecvState} {frame : QuicRecvFrame}
    {alloc rmem : Bool} (h : quicFrameStreamProcess s frame alloc rmem = .ok t) :
    SameLimits s t ∧ ∃ d, t.highest = s.highest + d ∧ t.stream.highest = s.stream.highest + d ∧
      (d = 0 ∨ (s.highest + d ≤ s.maxBytes ∧ s.stream.highest + d ≤ s.stream.maxBytes)) := by
  unfold quicFrameStreamProcess at h
  split at h
  · cases h
    exact ⟨SameLimits.refl s, 0, rfl, rfl, Or.inl rfl⟩
  · split at h
    · cases h
    · exact quicInqStreamRecv_highest h

-- Only a frame that raises `highest` past one of the limits is refused with
-- FLOW_CONTROL_ERROR; the other refusals carry other codes.
theorem quicInqStreamRecv_flow_control_error {s : QuicRecvState} {frame : QuicRecvFrame}
    {rmem : Bool}
    (h : quicInqStreamRecv s frame rmem = .error (-ENOBUFS, QUIC_TRANSPORT_ERROR_FLOW_CONTROL)) :
    frame.offset + frame.len > s.stream.highest ∧
      (s.highest + (frame.offset + frame.len - s.stream.highest) > s.maxBytes ∨
        frame.offset + frame.len > s.stream.maxBytes) := by
  unfold quicInqStreamRecv at h
  dsimp only at h
  by_cases hdup : s.stream.offset ≥ frame.offset + frame.len ∧
      (s.stream.state = QUIC_STREAM_RECV_STATE_SIZE_KNOWN ∨ frame.fin = false)
  · rw [if_pos hdup] at h
    cases h
  rw [if_neg hdup] at h
  cases rmem
  · rw [if_pos (show (!false) = true from rfl)] at h
    cases h
  rw [if_neg (by decide)] at h
  generalize hd : (if frame.offset + frame.len > s.stream.highest then
      frame.offset + frame.len - s.stream.highest else 0) = d at h
  by_cases hflow : frame.offset + frame.len > s.stream.highest ∧
      (s.highest + d > s.maxBytes ∨ s.stream.highest + d > s.stream.maxBytes)
  · rw [← hd, if_pos hflow.1] at hflow
    exact ⟨hflow.1, by omega⟩
  rw [if_neg hflow] at h
  -- past the check the frame is accepted or refused with FINAL_SIZE_ERROR
  repeat' split at h
  all_goals cases h

-- The receive side of one stream as a transition system: STREAM frames, application reads
-- with their flow-control update, and DATA_BLOCKED and STREAM_DATA_BLOCKED frames, each with
-- a memory-pressure answer that `pressure` admits.
inductive FlowStep (pressure : Bool → Prop) : QuicRecvState → QuicRecvState → Prop
  | recv {s t : QuicRecvState} (frame : QuicRecvFrame) (alloc rmem : Bool) :
      quicFrameStreamProcess s frame alloc rmem = .ok t → FlowStep pressure s t
  | read (s : QuicRecvState) (bytes mss : Nat) (p : Bool) :
      pressure p → FlowStep pressure s (quicInqFlowControl s bytes mss p)
  | dataBlocked {s t : QuicRecvState} (p transmit : Bool) :
      pressure p → quicFrameDataBlockedProcess s p transmit = .ok t → FlowStep pressure s t
  | streamDataBlocked {s t : QuicRecvState} (p transmit : Bool) :
      pressure p → quicFrameStreamDataBlockedProcess s p transmit = .ok t → FlowStep pressure s t

-- Initial states: the limits of `quic_inq_set_param` and `quic_stream_create`, with the
-- windows within the u32 range the local transport parameters are checked against.
def FlowInit (s : QuicRecvState) : Prop :=
  ∃ window maxData, window < 2 ^ 32 ∧ maxData < 2 ^ 32 ∧ s = quicStreamRecvInit window maxData

-- Each limit is at most what was read plus its window, and the data received stays within
-- it; with one stream the connection and stream offsets coincide.
structure FlowInv (s : QuicRecvState) : Prop where
  maxData_lt : s.maxData < 2 ^ 32
  window_lt : s.stream.window < 2 ^ 32
  maxBytes_le : s.maxBytes ≤ s.bytes + s.maxData
  streamMaxBytes_le : s.stream.maxBytes ≤ s.stream.bytes + s.stream.window
  highest_le : s.highest ≤ s.maxBytes
  streamHighest_le : s.stream.highest ≤ s.stream.maxBytes
  highest_eq : s.highest = s.stream.highest

theorem flowInv_init {s : QuicRecvState} (h : FlowInit s) : FlowInv s := by
  obtain ⟨window, maxData, hw, hm, rfl⟩ := h
  exact ⟨hm, hw, Nat.le_add_left _ _, Nat.le_add_left _ _, Nat.zero_le _, Nat.zero_le _, rfl⟩

-- A step with no memory pressure keeps the invariant and never lowers a limit.
def FlowStep.Keeps (s t : QuicRecvState) : Prop :=
  FlowInv t ∧ s.maxBytes ≤ t.maxBytes ∧ s.stream.maxBytes ≤ t.stream.maxBytes

theorem flowKeeps_of_sameLimits {s t : QuicRecvState} (hs : FlowInv s) (hl : SameLimits s t)
    (d : Nat) (h₁ : t.highest = s.highest + d) (h₂ : t.stream.highest = s.stream.highest + d)
    (hd : d = 0 ∨ (s.highest + d ≤ s.maxBytes ∧ s.stream.highest + d ≤ s.stream.maxBytes)) :
    FlowStep.Keeps s t := by
  obtain ⟨hm, hw, hb, hsb, hh, hsh, heq⟩ := hs
  obtain ⟨l₁, l₂, l₃, l₄, l₅, l₆⟩ := hl
  refine ⟨⟨?_, ?_, ?_, ?_, ?_, ?_, ?_⟩, ?_, ?_⟩ <;> omega

theorem quicInqFlowControl_keeps {s : QuicRecvState} (hs : FlowInv s) (bytes mss : Nat) :
    FlowStep.Keeps s (quicInqFlowControl s bytes mss false) := by
  obtain ⟨hm, hw, hb, hsb, hh, hsh, heq⟩ := hs
  have hm' : toU32 s.maxData = s.maxData := toU32_natCast hm
  have hw' : toU32 s.stream.window = s.stream.window := toU32_natCast hw
  unfold quicInqFlowControl
  -- the two thresholds are u64 comparisons; whichever way they go, a raised limit is what
  -- was read plus the full window, which the invariant bounds the old limit by
  split
  · exact ⟨⟨hm, hw, hb, hsb, hh, hsh, heq⟩, Nat.le_refl _, Nat.le_refl _⟩
  · simp only [Bool.false_eq_true, ↓reduceIte, hm']
    split <;> split <;> simp only [hw'] at * <;>
      refine ⟨⟨?_, ?_, ?_, ?_, ?_, ?_, ?_⟩, ?_, ?_⟩ <;> dsimp only <;> omega

theorem quicFrameDataBlockedProcess_keeps {s t : QuicRecvState} (hs : FlowInv s)
    {transmit : Bool} (h : quicFrameDataBlockedProcess s false transmit = .ok t) :
    FlowStep.Keeps s t := by
  obtain ⟨hm, hw, hb, hsb, hh, hsh, heq⟩ := hs
  unfold quicFrameDataBlockedProcess at h
  cases transmit <;> cases h
  refine ⟨⟨?_, ?_, ?_, ?_, ?_, ?_, ?_⟩, ?_, ?_⟩ <;> simp only [Bool.false_eq_true, ↓reduceIte] <;> omega

theorem quicFrameStreamDataBlockedProcess_keeps {s t : QuicRecvState} (hs : FlowInv s)
    {transmit : Bool} (h : quicFrameStreamDataBlockedProcess s false transmit = .ok t) :
    FlowStep.Keeps s t := by
  obtain ⟨hm, hw, hb, hsb, hh, hsh, heq⟩ := hs
  have hw' : toU32 s.stream.window = s.stream.window := toU32_natCast hw
  unfold quicFrameStreamDataBlockedProcess at h
  split at h
  · cases h
    exact ⟨⟨hm, hw, hb, hsb, hh, hsh, heq⟩, Nat.le_refl _, Nat.le_refl _⟩
  · cases transmit <;> cases h
    refine ⟨⟨?_, ?_, ?_, ?_, ?_, ?_, ?_⟩, ?_, ?_⟩ <;> simp only [hw', Bool.false_eq_true, ↓reduceIte] <;> omega

theorem flowStep_keeps {s t : QuicRecvState} (hs : FlowInv s)
    (h : FlowStep (· = false) s t) : FlowStep.Keeps s t := by
  cases h with
  | recv frame alloc rmem h =>
    obtain ⟨hl, d, h₁, h₂, hd⟩ := quicFrameStreamProcess_highest h
    exact flowKeeps_of_sameLimits hs hl d h₁ h₂ hd
  | read bytes mss p hp =>
    subst hp
    exact quicInqFlowControl_keeps hs bytes mss
  | dataBlocked p transmit hp h =>
    subst hp
    exact quicFrameDataBlockedProcess_keeps hs h
  | streamDataBlocked p transmit hp h =>
    subst hp
    exact quicFrameStreamDataBlockedProcess_keeps hs h

-- Without memory pressure every reachable state keeps the received data within both limits.
theorem flowInv_reachable {s : QuicRecvState}
    (h : Reachable FlowInit (FlowStep (· = false)) s) : FlowInv s := by
  have hinit : ∀ s, FlowInit s → FlowInv s := fun _ => flowInv_init
  exact Reachable.invariant hinit (fun _ _ hs hst => (flowStep_keeps hs hst).1) h

-- ... and along any run from such a state neither limit goes down.
theorem flowRun_limits_mono {s t : QuicRecvState} (hs : FlowInv s)
    (h : Relation.ReflTransGen (FlowStep (· = false)) s t) :
    FlowInv t ∧ s.maxBytes ≤ t.maxBytes ∧ s.stream.maxBytes ≤ t.stream.maxBytes := by
  induction h with
  | refl => exact ⟨hs, Nat.le_refl _, Nat.le_refl _⟩
  | tail _ hst ih =>
    obtain ⟨hu, h₁, h₂⟩ := ih
    obtain ⟨ht, h₃, h₄⟩ := flowStep_keeps hu hst
    exact ⟨ht, Nat.le_trans h₁ h₃, Nat.le_trans h₂ h₄⟩

-- A frame ending within both limits of a state with the invariant is not refused for flow
-- control.
theorem flowInv_frame_passes {s : QuicRecvState} (hs : FlowInv s) {frame : QuicRecvFrame}
    (h₁ : frame.offset + frame.len ≤ s.maxBytes) (h₂ : frame.offset + frame.len ≤ s.stream.maxBytes)
    (alloc rmem : Bool) :
    quicFrameStreamProcess s frame alloc rmem ≠
      .error (-ENOBUFS, QUIC_TRANSPORT_ERROR_FLOW_CONTROL) := by
  intro h
  unfold quicFrameStreamProcess at h
  split at h
  · cases h
  split at h
  · cases h
  obtain ⟨hgt, hover⟩ := quicInqStreamRecv_flow_control_error h
  have heq := hs.highest_eq
  omega

-- So, without memory pressure, a STREAM frame within the limits advertised at any earlier
-- point of a run passes the flow-control check.
theorem flowRun_advertised_frame_passes {s t : QuicRecvState}
    (hs : Reachable FlowInit (FlowStep (· = false)) s)
    (hrun : Relation.ReflTransGen (FlowStep (· = false)) s t) {frame : QuicRecvFrame}
    (h₁ : frame.offset + frame.len ≤ s.maxBytes) (h₂ : frame.offset + frame.len ≤ s.stream.maxBytes)
    (alloc rmem : Bool) :
    quicFrameStreamProcess t frame alloc rmem ≠
      .error (-ENOBUFS, QUIC_TRANSPORT_ERROR_FLOW_CONTROL) := by
  obtain ⟨ht, hm₁, hm₂⟩ := flowRun_limits_mono (flowInv_reachable hs) hrun
  exact flowInv_frame_passes ht (Nat.le_trans h₁ hm₁) (Nat.le_trans h₂ hm₂) alloc rmem

end Quic
