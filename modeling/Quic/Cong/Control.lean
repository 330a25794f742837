import Quic.Frame.TransportParam
import Quic.Lib.Reachable

namespace Quic

-- Loss detection constants (cong.h) and the HyStart++ ones of RFC 9406 (cong.c).
def QUIC_KPERSISTENT_CONGESTION_THRESHOLD : Nat := 3
def QUIC_KGRANULARITY : Nat := 1000
def QUIC_RTT_INIT : Nat := 333000
def USEC_PER_SEC : Nat := 1000000

def QUIC_HS_MIN_SSTHRESH : Nat := 16
def QUIC_HS_N_RTT_SAMPLE : Nat := 8
def QUIC_HS_MIN_ETA : Nat := 4000
def QUIC_HS_MAX_ETA : Nat := 16000
def QUIC_HS_MIN_RTT_DIVISOR : Nat := 8
def QUIC_HS_CSS_GROWTH_DIVISOR : Nat := 4
def QUIC_HS_CSS_ROUNDS : Nat := 5

-- `enum quic_cong_state` (RFC 9002 Section 7.3).
inductive QuicCongState where
  | slowStart
  | recoveryPeriod
  | congestionAvoidance
  deriving DecidableEq, Repr

-- QUIC_CONG_ALG_RENO and QUIC_CONG_ALG_CUBIC, the rows of `quic_congs`.
inductive QuicCongAlg where
  | reno
  | cubic
  deriving DecidableEq, Repr

-- `struct quic_cubic`, the private area of a CUBIC controller. All u32 but the u64 `k`, the
-- u16 counters and the s64 `window_end`.
structure QuicCubic where
  pendingWAdd : Nat
  originPoint : Nat
  epochStart : Nat
  pendingAdd : Nat
  wLastMax : Nat
  wTcp : Nat
  k : Nat
  currentRoundMinRtt : Nat
  cssBaselineMinRtt : Nat
  lastRoundMinRtt : Nat
  rttSampleCount : Nat
  cssRounds : Nat
  windowEnd : Int
  deriving DecidableEq, Repr

-- The fields of `struct quic_cong` that the window and RTT code reads and writes. All are u32
-- but the u64 `recovery_time` and `time`.
structure QuicCong where
  maxAckDelay : Nat
  smoothedRtt : Nat
  latestRtt : Nat
  minRtt : Nat
  rttvar : Nat
  pto : Nat
  recoveryTime : Nat
  time : Nat
  maxWindow : Nat
  minWindow : Nat
  lossDelay : Nat
  ssthresh : Nat
  window : Nat
  mss : Nat
  cubic : QuicCubic
  initialSrtt : Nat
  algo : QuicCongAlg
  minRttValid : Bool
  isRttSet : Bool
  state : QuicCongState
  deriving DecidableEq, Repr

def QuicCubic.zero : QuicCubic := ⟨0, 0, 0, 0, 0, 0, 0, 0, 0, 0, 0, 0, 0⟩

-- A zeroed `struct quic_cong`, as in a new socket.
def QuicCong.zero : QuicCong :=
  ⟨0, 0, 0, 0, 0, 0, 0, 0, 0, 0, 0, 0, 0, 0, .zero, 0, .reno, false, false, .slowStart⟩

-- `quic_cong_set_mss` (RFC 9002 Section 7.2).
def quicCongSetMss (cong : QuicCong) (mss : Nat) : QuicCong :=
  if cong.mss = mss then cong
  else
    let minWindow := max (min (mss * 10 % 2 ^ 32) 14720) (mss * 2 % 2 ^ 32)
    let cong := { cong with mss := mss, minWindow := minWindow }
    if cong.window < cong.minWindow then { cong with window := cong.minWindow } else cong

/-! ## RTT estimation -/

-- `quic_cong_pto_update`.
def quicCongPtoUpdate (cong : QuicCong) : QuicCong :=
  let pto := (cong.smoothedRtt + max (4 * cong.rttvar % 2 ^ 32) QUIC_KGRANULARITY) % 2 ^ 32
  let lossDelay := max cong.smoothedRtt cong.latestRtt * 9 % 2 ^ 32 / 8
  { cong with pto := (pto + cong.maxAckDelay) % 2 ^ 32,
              lossDelay := max lossDelay QUIC_KGRANULARITY }

-- `quic_cubic_on_rtt_update` (RFC 9406 Section 4.2).
def quicCubicOnRttUpdate (cong : QuicCong) : QuicCong :=
  let cubic := cong.cubic
  if cubic.windowEnd = -1 then cong
  else
    let cubic :=
      if cubic.currentRoundMinRtt > cong.latestRtt then
        if cong.latestRtt < cubic.cssBaselineMinRtt then
          { cubic with currentRoundMinRtt := cong.latestRtt, cssBaselineMinRtt := U32_MAX,
                       cssRounds := 0 }
        else { cubic with currentRoundMinRtt := cong.latestRtt }
      else cubic
    { cong with cubic := { cubic with rttSampleCount := (cubic.rttSampleCount + 1) % 2 ^ 16 } }

-- `quic_cong_rtt_update` (RFC 9002 Section 5) for the largest acknowledged packet, sent at
-- `time`.
def quicCongRttUpdate (cong : QuicCong) (time ackDelay : Nat) : QuicCong :=
  if ackDelay > cong.maxAckDelay * 2 % 2 ^ 32 then cong
  else
    let cong := { cong with latestRtt := toU32 ((cong.time : Int) - time) }
    let cong := if cong.minRttValid then cong else { cong with minRtt := cong.latestRtt, minRttValid := true }
    let cong := if cong.minRtt > cong.latestRtt then { cong with minRtt := cong.latestRtt } else cong
    if !cong.isRttSet then
      { quicCongPtoUpdate { cong with smoothedRtt := cong.latestRtt, rttvar := cong.latestRtt / 2 }
        with isRttSet := true }
    else
      let adjustedRtt := if cong.latestRtt ≥ (cong.minRtt + ackDelay) % 2 ^ 32 then
        toU32 ((cong.latestRtt : Int) - ackDelay) else cong.latestRtt
      let smoothedRtt := (cong.smoothedRtt * 7 + adjustedRtt) % 2 ^ 32 / 8
      let rttvarSample := if smoothedRtt > adjustedRtt then smoothedRtt - adjustedRtt
        else adjustedRtt - smoothedRtt
      let cong := quicCongPtoUpdate
        { cong with smoothedRtt := smoothedRtt,
                    rttvar := (cong.rttvar * 3 + rttvarSample) % 2 ^ 32 / 4 }
      match cong.algo with
      | .reno => cong
      | .cubic => quicCubicOnRttUpdate cong

/-! ## CUBIC -/

-- The Newton iterations of `cubic_root`; each one lowers `a` while `a^3 > n`, so `a` steps are
-- enough.
def cubicRootLoop (n : Nat) : Nat → Nat → Nat
  | 0, a => a
  | fuel + 1, a =>
    if a * a * a % 2 ^ 64 > n then cubicRootLoop n fuel ((2 * a + n / (a * a % 2 ^ 64)) / 3) else a

-- `cubic_root`: `64 - __builtin_clzll(n)` is the bit length of `n`.
def cubicRoot (n : Nat) : Nat :=
  if n = 0 then 0
  else
    let d := (n.log2 + 1) / 3
    cubicRootLoop n (2 ^ (d + 1)) (2 ^ (d + 1))

-- `cubic_slow_start` (RFC 9406 Section 4).
def cubicSlowStart (cong : QuicCong) (bytes : Nat) (number : Int) : QuicCong :=
  let cubic := if cong.cubic.windowEnd ≤ number then { cong.cubic with windowEnd := -1 } else cong.cubic
  let bytes := if cubic.cssBaselineMinRtt ≠ U32_MAX then bytes / QUIC_HS_CSS_GROWTH_DIVISOR else bytes
  let cong := { cong with window := min ((cong.window + bytes) % 2 ^ 32) cong.maxWindow, cubic := cubic }
  if cubic.cssBaselineMinRtt ≠ U32_MAX then
    let cssRounds := (cubic.cssRounds + 1) % 2 ^ 16
    -- CSS_ROUNDS rounds are complete: on to congestion avoidance
    if cssRounds > QUIC_HS_CSS_ROUNDS then
      { cong with ssthresh := cong.window,
                  cubic := { cubic with cssBaselineMinRtt := U32_MAX, wLastMax := cong.window,
                                        cssRounds := 0 } }
    else { cong with cubic := { cubic with cssRounds := cssRounds } }
  else if cubic.lastRoundMinRtt ≠ U32_MAX ∧ cubic.currentRoundMinRtt ≠ U32_MAX ∧
      cong.window ≥ QUIC_HS_MIN_SSTHRESH * cong.mss % 2 ^ 32 ∧
      cubic.rttSampleCount ≥ QUIC_HS_N_RTT_SAMPLE then
    let eta := cubic.lastRoundMinRtt / QUIC_HS_MIN_RTT_DIVISOR
    let eta := if eta < QUIC_HS_MIN_ETA then QUIC_HS_MIN_ETA
      else if eta > QUIC_HS_MAX_ETA then QUIC_HS_MAX_ETA else eta
    -- a delay increase: slow start is left for conservative slow start
    if cubic.currentRoundMinRtt ≥ (cubic.lastRoundMinRtt + eta) % 2 ^ 32 then
      { cong with cubic := { cubic with cssBaselineMinRtt := cubic.currentRoundMinRtt } }
    else cong
  else cong

-- The start of an epoch in `cubic_cong_avoid`: `epoch_start`, K, W_max and W_est. The u64
-- clock is stored in the u32 `epoch_start`.
def cubicEpochStart (cong : QuicCong) : QuicCubic :=
  let cubic := { cong.cubic with epochStart := cong.time % 2 ^ 32 }
  let cubic :=
    if cong.window < cubic.wLastMax then
      { cubic with k := cubicRoot ((cubic.wLastMax - cong.window) * 10 / (cong.mss * 4)),
                   originPoint := cubic.wLastMax }
    else { cubic with k := 0, originPoint := cong.window }
  { cubic with wTcp := cong.window, pendingAdd := 0, pendingWAdd := 0 }

-- `t` of `cubic_cong_avoid`: the time since `epoch_start` plus the smoothed RTT, in u64.
def cubicElapsed (cong : QuicCong) : Nat :=
  toU64 ((cong.time : Int) - cong.cubic.epochStart + cong.smoothedRtt)

-- `cubic_cong_avoid` (RFC 9438 Section 4): the window moves toward W_cubic(t) or W_est,
-- whichever is bigger, with the fractional parts carried in `pending_add` and `pending_w_add`.
def cubicCongAvoid (cong : QuicCong) (bytes : Nat) : QuicCong :=
  let cong := if cong.cubic.epochStart = U32_MAX then { cong with cubic := cubicEpochStart cong } else cong
  let cubic := cong.cubic
  let t := cubicElapsed cong
  let tx := (t <<< 10) % 2 ^ 64 / USEC_PER_SEC
  let kx := (cubic.k <<< 10) % 2 ^ 64
  let timeDelta := if tx > kx then tx - kx else kx - tx
  let delta := cong.mss * ((((timeDelta * timeDelta % 2 ^ 64) >>> 10) * timeDelta % 2 ^ 64) >>> 10) %
    2 ^ 64
  let delta := (delta * 4 % 2 ^ 64 / 10) >>> 10
  let target := if tx > kx then (cubic.originPoint + delta) % 2 ^ 64
    else toU64 ((cubic.originPoint : Int) - delta)
  let target := if target < cong.window then cong.window
    else if 2 * target % 2 ^ 64 > 3 * cong.window % 2 ^ 32 then cong.window * 3 % 2 ^ 32 / 2
    else target
  -- `do_div` leaves the quotient in `target_add` and returns the remainder
  let targetAdd := if target > cong.window then (cubic.pendingAdd + cong.mss * (target - cong.window)) % 2 ^ 64
    else (cubic.pendingAdd + cong.mss) % 2 ^ 32
  let divisor := if target > cong.window then cong.window else 100 * cong.window % 2 ^ 32
  let m := (cubic.pendingWAdd + cong.mss * bytes) % 2 ^ 32
  let wTcp := (cubic.wTcp + m / cong.window) % 2 ^ 32
  let tcpAdd := if wTcp > cong.window then cong.mss * (wTcp - cong.window) / cong.window else 0
  { cong with window := (cong.window + max tcpAdd (targetAdd / divisor)) % 2 ^ 32,
              cubic := { cubic with pendingAdd := targetAdd % divisor,
                                    pendingWAdd := m % cong.window, wTcp := wTcp } }

-- `cubic_recovery` (RFC 9438 Sections 4.6 and 4.7): β_cubic = 0.7, with fast convergence.
def cubicRecovery (cong : QuicCong) : QuicCong :=
  let wLastMax := if cong.window < cong.cubic.wLastMax then cong.window * 17 % 2 ^ 32 / 10 / 2
    else cong.window
  let ssthresh := max (cong.window * 7 % 2 ^ 32 / 10) cong.minWindow
  { cong with recoveryTime := cong.time,
              cubic := { cong.cubic with epochStart := U32_MAX, wLastMax := wLastMax },
              ssthresh := ssthresh, window := ssthresh }

-- `quic_cong_check_persistent_congestion` (RFC 9002 Section 7.6.1), for a lost packet sent at
-- `time`.
def quicCongCheckPersistentCongestion (cong : QuicCong) (time : Nat) : Bool × QuicCong :=
  let ssthresh := (cong.smoothedRtt + max (4 * cong.rttvar % 2 ^ 32) QUIC_KGRANULARITY) % 2 ^ 32
  let ssthresh := (ssthresh + cong.maxAckDelay) * QUIC_KPERSISTENT_CONGESTION_THRESHOLD % 2 ^ 32
  if toU64 ((cong.time : Int) - time) ≤ ssthresh then (false, cong)
  else (true, { cong with minRttValid := false, window := cong.minWindow, state := .slowStart })

-- `quic_cubic_on_process_ecn`; `quic_cubic_on_packet_lost` runs the same switch after the
-- persistent congestion check.
def quicCubicOnProcessEcn (cong : QuicCong) : QuicCong :=
  match cong.state with
  | .recoveryPeriod => cong
  | _ => cubicRecovery { cong with state := .recoveryPeriod }

def quicCubicOnPacketLost (cong : QuicCong) (time : Nat) : QuicCong :=
  let r := quicCongCheckPersistentCongestion cong time
  if r.1 then r.2 else quicCubicOnProcessEcn r.2

def quicCubicOnPacketAcked (cong : QuicCong) (time bytes : Nat) (number : Int) : QuicCong :=
  match cong.state with
  | .slowStart =>
    let cong := cubicSlowStart cong bytes number
    if cong.window ≥ cong.ssthresh then { cong with state := .congestionAvoidance } else cong
  | .recoveryPeriod =>
    if cong.recoveryTime < time then { cong with state := .congestionAvoidance } else cong
  | .congestionAvoidance => cubicCongAvoid cong bytes

-- `quic_cubic_on_init`.
def quicCubicOnInit (cubic : QuicCubic) : QuicCubic :=
  { cubic with epochStart := U32_MAX, originPoint := 0, wLastMax := 0, wTcp := 0, k := 0,
               currentRoundMinRtt := U32_MAX, cssBaselineMinRtt := U32_MAX,
               lastRoundMinRtt := U32_MAX, rttSampleCount := 0, windowEnd := -1, cssRounds := 0 }

-- `quic_cubic_on_packet_sent`: a new round of RFC 9406 Section 4.2 starts at `number`.
def quicCubicOnPacketSent (cong : QuicCong) (number : Int) : QuicCong :=
  if cong.cubic.windowEnd ≠ -1 then cong
  else
    { cong with cubic := { cong.cubic with windowEnd := number,
                                           lastRoundMinRtt := cong.cubic.currentRoundMinRtt,
                                           currentRoundMinRtt := U32_MAX, rttSampleCount := 0 } }

/-! ## NewReno -/

-- `quic_reno_handle_packet_lost`, also `quic_reno_on_process_ecn`.
def quicRenoHandlePacketLost (cong : QuicCong) : QuicCong :=
  match cong.state with
  | .recoveryPeriod => cong
  | _ =>
    let ssthresh := max (cong.window >>> 1) cong.minWindow
    { cong with recoveryTime := cong.time, state := .recoveryPeriod, ssthresh := ssthresh,
                window := ssthresh }

def quicRenoOnPacketLost (cong : QuicCong) (time : Nat) : QuicCong :=
  let r := quicCongCheckPersistentCongestion cong time
  if r.1 then r.2 else quicRenoHandlePacketLost r.2

def quicRenoOnPacketAcked (cong : QuicCong) (time bytes : Nat) : QuicCong :=
  match cong.state with
  | .slowStart =>
    let cong := { cong with window := min ((cong.window + bytes) % 2 ^ 32) cong.maxWindow }
    if cong.window ≥ cong.ssthresh then { cong with state := .congestionAvoidance } else cong
  | .recoveryPeriod =>
    if cong.recoveryTime < time then { cong with state := .congestionAvoidance } else cong
  | .congestionAvoidance =>
    { cong with window := (cong.window + cong.mss * bytes % 2 ^ 32 / cong.window) % 2 ^ 32 }

/-! ## The common entry points -/

def quicCongOnPacketAcked (cong : QuicCong) (time bytes : Nat) (number : Int) : QuicCong :=
  match cong.algo with
  | .reno => quicRenoOnPacketAcked cong time bytes
  | .cubic => quicCubicOnPacketAcked cong time bytes number

def quicCongOnPacketLost (cong : QuicCong) (time : Nat) : QuicCong :=
  match cong.algo with
  | .reno => quicRenoOnPacketLost cong time
  | .cubic => quicCubicOnPacketLost cong time

def quicCongOnProcessEcn (cong : QuicCong) : QuicCong :=
  match cong.algo with
  | .reno => quicRenoHandlePacketLost cong
  | .cubic => quicCubicOnProcessEcn cong

-- `quic_cong_on_packet_sent` without the pacing clock.
def quicCongOnPacketSent (cong : QuicCong) (bytes : Nat) (number : Int) : QuicCong :=
  if bytes = 0 then cong
  else
    match cong.algo with
    | .reno => cong
    | .cubic => quicCubicOnPacketSent cong number

def quicCongSetAlgo (cong : QuicCong) (algo : QuicCongAlg) : QuicCong :=
  let cong := { cong with algo := algo, state := .slowStart, ssthresh := U32_MAX }
  match algo with
  | .reno => cong
  | .cubic => { cong with cubic := quicCubicOnInit cong.cubic }

def quicCongSetSrtt (cong : QuicCong) (srtt : Nat) : QuicCong :=
  quicCongPtoUpdate { cong with initialSrtt := srtt, latestRtt := srtt, smoothedRtt := srtt,
                                rttvar := srtt / 2 }

-- `quic_cong_init` on a zeroed socket.
def quicCongInit : QuicCong :=
  let cong := { QuicCong.zero with maxAckDelay := QUIC_DEF_ACK_DELAY, maxWindow := S32_MAX / 2 }
  quicCongSetSrtt (quicCongSetAlgo cong .reno) QUIC_RTT_INIT

-- What `quic_outq_set_param` does to the controller with the peer's parameters.
def quicCongSetRemote (cong : QuicCong) (maxData maxAckDelay : Nat) : QuicCong :=
  { cong with maxWindow := min maxData (S32_MAX / 2), maxAckDelay := maxAckDelay }

/-! ## Runs of the controller -/

-- The calls a connection makes on its controller once the algorithm and the MSS are set.
inductive QuicCongCall where
  | tick (time : Nat)
  | sent (bytes : Nat) (number : Int)
  | acked (time bytes : Nat) (number : Int)
  | lost (time : Nat)
  | ecn
  | rttUpdate (time ackDelay : Nat)
  deriving DecidableEq, Repr

def QuicCongCall.apply (cong : QuicCong) : QuicCongCall → QuicCong
  | .tick time => { cong with time := time }
  | .sent bytes number => quicCongOnPacketSent cong bytes number
  | .acked time bytes number => quicCongOnPacketAcked cong time bytes number
  | .lost time => quicCongOnPacketLost cong time
  | .ecn => quicCongOnProcessEcn cong
  | .rttUpdate time ackDelay => quicCongRttUpdate cong time ackDelay

-- The clock only moves forward, and a packet carries at most one MSS.
def QuicCongCall.allowed (cong : QuicCong) : QuicCongCall → Bool
  | .tick time => cong.time ≤ time
  | .sent bytes _ => bytes ≤ cong.mss
  | .acked _ bytes _ => bytes ≤ cong.mss
  | _ => true

def CongStep (cong cong' : QuicCong) : Prop :=
  ∃ call : QuicCongCall, call.allowed cong ∧ cong' = call.apply cong

-- A controller after `quic_cong_init`, `quic_outq_set_param`, `quic_cong_set_algo` and
-- `quic_cong_set_mss` with a positive MSS.
def CongInit (cong : QuicCong) : Prop :=
  ∃ maxData maxAckDelay algo mss, 0 < mss ∧
    cong = quicCongSetMss (quicCongSetAlgo (quicCongSetRemote quicCongInit maxData maxAckDelay) algo) mss

theorem congStep_of_allowed (cong : QuicCong) (call : QuicCongCall) (h : call.allowed cong = true) :
    CongStep cong (call.apply cong) :=
  ⟨call, h, rfl⟩

theorem congInit_reachable (maxData maxAckDelay : Nat) (algo : QuicCongAlg) (mss : Nat) (hmss : 0 < mss) :
    Reachable CongInit CongStep
      (quicCongSetMss (quicCongSetAlgo (quicCongSetRemote quicCongInit maxData maxAckDelay) algo) mss) :=
  Reachable.of_init ⟨maxData, maxAckDelay, algo, mss, hmss, rfl⟩

/-! ## The window bounds -/

-- Slow start is the one place either algorithm caps the window at `max_window`.
theorem quicCongOnPacketAcked_slowStart_le {cong : QuicCong} (h : cong.state = .slowStart)
    (time bytes : Nat) (number : Int) :
    (quicCongOnPacketAcked cong time bytes number).window ≤ cong.maxWindow := by
  have hcubic : (cubicSlowStart cong bytes number).window ≤ cong.maxWindow := by
    unfold cubicSlowStart
    dsimp only
    split_ifs <;> exact min_le_right _ _
  cases halgo : cong.algo with
  | reno =>
    simp only [quicCongOnPacketAcked, halgo, quicRenoOnPacketAcked, h]
    split_ifs <;> exact min_le_right _ _
  | cubic =>
    simp only [quicCongOnPacketAcked, halgo, quicCubicOnPacketAcked, h]
    split_ifs <;> exact hcubic

-- In congestion avoidance Reno adds `mss * bytes / window` with no look at `max_window`.
theorem quicRenoOnPacketAcked_avoid {cong : QuicCong} (h : cong.state = .congestionAvoidance)
    {time bytes : Nat} (hb : cong.mss * bytes < 2 ^ 32)
    (hw : cong.window + cong.mss * bytes / cong.window < 2 ^ 32) :
    (quicRenoOnPacketAcked cong time bytes).window = cong.window + cong.mss * bytes / cong.window := by
  simp only [quicRenoOnPacketAcked, h, Nat.mod_eq_of_lt hb, Nat.mod_eq_of_lt hw]

-- So while the window is at most `mss * bytes` every acknowledgement raises it, past any cap.
theorem quicRenoOnPacketAcked_avoid_gt {cong : QuicCong} (h : cong.state = .congestionAvoidance)
    {time bytes : Nat} (hpos : 0 < cong.window) (hle : cong.window ≤ cong.mss * bytes)
    (hb : cong.mss * bytes < 2 ^ 31) :
    cong.window < (quicRenoOnPacketAcked cong time bytes).window := by
  have hdiv : 1 ≤ cong.mss * bytes / cong.window := (Nat.one_le_div_iff hpos).2 hle
  have hdiv' : cong.mss * bytes / cong.window ≤ cong.mss * bytes := Nat.div_le_self _ _
  rw [quicRenoOnPacketAcked_avoid h (by omega) (by omega)]
  omega

-- A peer's initial_max_data sets `max_window` with no regard to `min_window`. At 14000 bytes
-- it equals the `min_window` of a 1400 byte MSS, and the first increase in congestion avoidance
-- passes it; at 10000 bytes it is below `min_window`, and slow start takes the window down to it.
theorem quicCong_window_leaves_bounds (algo : QuicCongAlg) :
    (∃ cong, Reachable CongInit CongStep cong ∧ cong.algo = algo ∧ cong.maxWindow < cong.window) ∧
    (∃ cong, Reachable CongInit CongStep cong ∧ cong.algo = algo ∧ cong.window < cong.minWindow) := by
  have hover := Reachable.foldl_of_allowedRun congStep_of_allowed
    (congInit_reachable 14000 QUIC_DEF_ACK_DELAY algo 1400 (by decide))
    [.tick 1000000, .lost 999000, .tick 1100000, .acked 1050000 1400 1, .acked 1060000 1400 2]
    (by cases algo <;> decide)
  have hunder := Reachable.foldl_of_allowedRun congStep_of_allowed
    (congInit_reachable 10000 QUIC_DEF_ACK_DELAY algo 1400 (by decide)) [.acked 0 1400 0]
    (by cases algo <;> decide)
  refine ⟨⟨_, hover, ?_, ?_⟩, ⟨_, hunder, ?_, ?_⟩⟩ <;> cases algo <;> decide

/-! ## The CUBIC epoch -/

@[simp] theorem cubicEpochStart_epochStart (cong : QuicCong) :
    (cubicEpochStart cong).epochStart = cong.time % 2 ^ 32 := by
  unfold cubicEpochStart
  dsimp only
  split_ifs <;> rfl

-- `epoch_start` keeps the low 32 bits of the clock, so the `t` of `cubic_cong_avoid` is the time
-- since the epoch's start `T0` plus the part of `T0` above 32 bits.
theorem cubicElapsed_eq {cong : QuicCong} {T0 : Nat} (hstart : cong.cubic.epochStart = T0 % 2 ^ 32)
    (hT0 : T0 ≤ cong.time) :
    cubicElapsed cong = (cong.time - T0 + T0 / 2 ^ 32 * 2 ^ 32 + cong.smoothedRtt) % 2 ^ 64 := by
  unfold cubicElapsed toU64 toUnsigned
  rw [hstart]
  omega

-- At the first acknowledgement of an epoch `t` is the smoothed RTT plus the clock's part above
-- 32 bits, not the smoothed RTT.
theorem cubicElapsed_cubicEpochStart (cong : QuicCong) :
    cubicElapsed { cong with cubic := cubicEpochStart cong } =
      (cong.time / 2 ^ 32 * 2 ^ 32 + cong.smoothedRtt) % 2 ^ 64 := by
  have hstart : ({ cong with cubic := cubicEpochStart cong } : QuicCong).cubic.epochStart =
      cong.time % 2 ^ 32 := cubicEpochStart_epochStart cong
  rw [cubicElapsed_eq hstart le_rfl, Nat.sub_self, Nat.zero_add]

theorem cubic_epoch_start_truncated :
    let cong : QuicCong := quicCongSetMss
      (quicCongSetAlgo (quicCongSetRemote quicCongInit 1000000 QUIC_DEF_ACK_DELAY) .cubic) 1400
    let calls := fun base : Nat => [QuicCongCall.tick (base + 1000000), .lost (base + 999000),
      .tick (base + 1100000), .acked (base + 1050000) 1400 1, .acked (base + 1060000) 1400 2]
    let early := (calls 0).foldl QuicCongCall.apply cong
    let late := (calls (2 ^ 32)).foldl QuicCongCall.apply cong
    Reachable CongInit CongStep early ∧ Reachable CongInit CongStep late ∧
      early.cubic.epochStart = early.time ∧ cubicElapsed early = early.smoothedRtt ∧
      late.cubic.epochStart = late.time - 2 ^ 32 ∧ cubicElapsed late = 2 ^ 32 + late.smoothedRtt ∧
      early.window = 14014 ∧ late.window = 14700 := by
  intro cong calls early late
  have hcong : Reachable CongInit CongStep cong :=
    congInit_reachable 1000000 QUIC_DEF_ACK_DELAY .cubic 1400 (by decide)
  exact ⟨Reachable.foldl_of_allowedRun congStep_of_allowed hcong (calls 0) (by decide),
    Reachable.foldl_of_allowedRun congStep_of_allowed hcong (calls (2 ^ 32)) (by decide),
    by decide, by decide, by decide, by decide, by decide, by decide⟩

end Quic
