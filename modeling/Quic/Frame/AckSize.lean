import Quic.Frame.AckRecv
import Quic.Pnspace.Window

namespace Quic

-- Each pair written for the blocks chained above `prev` is at most the chain's top: a Gap is
-- the width of its block, an ACK Range Length the distance down to the block below.
theorem gapChain_gapRanges_le {P : Nat → Prop} {base minPn : Int} {top : Nat} (hbase : 0 ≤ base)
    (htop : base + top < 2 ^ 64) {lo : Nat} {gs : List QuicGapAckBlock} {prev : QuicGapAckBlock}
    (hc : GapChain P top lo gs) (hprev : prev.stop = lo) :
    ∀ q ∈ ackGapRanges base minPn (some prev) gs, q.1 ≤ top ∧ q.2 ≤ top := by
  induction gs generalizing lo prev with
  | nil => simp [ackGapRanges]
  | cons g gs ih =>
    obtain ⟨hlt, hstop, hle, -, hc'⟩ := hc
    rw [ackGapRanges_cons gs (by simp only [lowOf_some]; omega) (by simp only [lowOf_some]; omega)
      hstop (by omega)]
    intro q hq
    rcases List.mem_append.mp hq with hq | hq
    · exact ih hc' rfl q hq
    · rw [List.mem_singleton] at hq
      subst hq
      simp only [lowOf_some]
      constructor <;> omega

theorem quicVarLen_le_two {n : Nat} (hn : n < 2 ^ 14) : quicVarLen n ≤ 2 := by
  unfold quicVarLen QUIC_VARINT_1BYTE_MAX QUIC_VARINT_2BYTE_MAX
  split_ifs <;> omega

-- The pairs take at most two bytes a value when every value is below 2^14.
theorem ackPairVars_varLen_le (ps : List (Nat × Nat))
    (hps : ∀ q ∈ ps, q.1 < 2 ^ 14 ∧ q.2 < 2 ^ 14) :
    ((ackPairVars ps).map quicVarLen).sum ≤ 2 * 2 * ps.length := by
  induction ps with
  | nil => simp [ackPairVars]
  | cons q ps ih =>
    have hq := hps q List.mem_cons_self
    have hrest := ih (fun q' hq' => hps q' (List.mem_cons_of_mem _ hq'))
    have h1 := quicVarLen_le_two hq.1
    have h2 := quicVarLen_le_two hq.2
    simp only [ackPairVars, List.flatMap_cons, List.map_append, List.sum_append,
      List.length_cons] at hrest ⊢
    simp only [List.map_cons, List.map_nil, List.sum_cons, List.sum_nil]
    omega

-- In every state of a run, its packet numbers the s64 values `quic_pnspace_mark` takes, each
-- Gap and ACK Range Length `quic_frame_ack_create` writes is below 2^14, the last range down to
-- `min_pn_seen` included: every block ends inside the map, and `base_pn - 1 - min_pn_seen`
-- stays within the window.
theorem ackGapRanges_lt_of_reachable {space : QuicPnspace} {M : Set Int}
    (h : Reachable RecvInit RecvStep (space, M)) (hpn : ∀ p ∈ M, p < 2 ^ 63) :
    ∀ q ∈ ackGapRanges space.basePn space.minPnSeen none (quicPnspaceNumGabs space),
      q.1 < 2 ^ 14 ∧ q.2 < 2 ^ 14 := by
  have hw : WindowInv space := windowInv_of_reachable h
  rcases spaceInv_of_reachable h with ⟨hbase, -, -, -⟩ | hinv
  · rw [hw.sentinel hbase]
    simp [ackGapRanges]
  change MarkInv space M at hinv
  have hmax : space.maxPnSeen < 2 ^ 63 := hpn _ hinv.max_mem
  cases hg : quicPnspaceHasGap space
  · simp [quicPnspaceNumGabs, hg, ackGapRanges]
  obtain ⟨e, gs, hnum, he0, heo, hchain, -⟩ := hinv.numGabs_spec hg
  have hsize : QUIC_PN_MAP_SIZE = 4096 := rfl
  have hlimit : QUIC_PN_MAP_LIMIT = 3072 := rfl
  have htop : (space.maxPnSeen - space.basePn).toNat < 4096 := by
    have hlt := hinv.max_lt_len
    have hle := hinv.len_le
    rw [hsize] at hle
    omega
  have hmin0 := hinv.min_nonneg
  have hmin := hinv.min_lt_base
  have hbm := hinv.base_le_max
  have hlag1 := hw.max_le_last
  have hlag2 := hw.last_le_min
  simp only [hsize, hlimit] at hlag1 hlag2
  -- the bottom block starts at `base_pn`, and its range reaches down to `min_pn_seen`
  rw [hnum, ackGapRanges_cons gs (by simpa using hmin0) (by simp only [lowOf_none]; omega)
    (by dsimp only; omega) (by dsimp only; omega)]
  intro q hq
  rcases List.mem_append.mp hq with hq | hq
  · have hle := gapChain_gapRanges_le (by omega) (by omega) hchain rfl q hq
    omega
  · rw [List.mem_singleton] at hq
    subst hq
    simp only [lowOf_none]
    constructor <;> omega

-- Every ACK frame `quic_frame_ack_create` builds in a state of a run fits the `frame_len` it
-- allocates, whatever the ECN counts and the ACK delay: the type takes one byte, the next four
-- varints the widths counted for them, each Gap and ACK Range Length at most the two bytes of
-- `quic_var_len(QUIC_PN_MAP_SIZE)`, and each ECN count at most the eight bytes of a u64.
theorem quicFrameAck_fits {space : QuicPnspace} {M : Set Int}
    (h : Reachable RecvInit RecvStep (space, M)) (hpn : ∀ p ∈ M, p < 2 ^ 63)
    (level now ackDelayExponent : Nat) (alloc : Bool) {frame : QuicFrame}
    (hframe : quicFrameAckCreate space level QUIC_FRAME_ACK now ackDelayExponent alloc = .ok frame) :
    frame.data.length ≤ quicFrameAckFrameLen space now ackDelayExponent ∧
      ∀ q ∈ ackGapRanges space.basePn space.minPnSeen none (quicPnspaceNumGabs space),
        q.1 < 2 ^ 14 ∧ q.2 < 2 ^ 14 := by
  have hpairs := ackGapRanges_lt_of_reachable h hpn
  refine ⟨?_, hpairs⟩
  unfold quicFrameAckCreate at hframe
  dsimp only at hframe
  split at hframe
  · cases hframe
  cases hframe
  have htype : quicVarLen (QUIC_FRAME_ACK + if quicPnspaceHasEcnCount space then 1 else 0) = 1 := by
    unfold quicVarLen QUIC_VARINT_1BYTE_MAX QUIC_FRAME_ACK
    split_ifs <;> omega
  have hpairLen := ackPairVars_varLen_le _ hpairs
  rw [ackGapRanges_length] at hpairLen
  have hecn : (List.map quicVarLen
      (if QUIC_FRAME_ACK + (if quicPnspaceHasEcnCount space then 1 else 0) = QUIC_FRAME_ACK_ECN then
        [space.ecnCount QUIC_ECN_LOCAL QUIC_ECN_ECT0, space.ecnCount QUIC_ECN_LOCAL QUIC_ECN_ECT1,
          space.ecnCount QUIC_ECN_LOCAL QUIC_ECN_CE]
      else [])).sum ≤ 8 * QUIC_ECN_MAX := by
    have h0 := quicVarLen_le_eight (space.ecnCount QUIC_ECN_LOCAL QUIC_ECN_ECT0)
    have h1 := quicVarLen_le_eight (space.ecnCount QUIC_ECN_LOCAL QUIC_ECN_ECT1)
    have h2 := quicVarLen_le_eight (space.ecnCount QUIC_ECN_LOCAL QUIC_ECN_CE)
    unfold QUIC_ECN_MAX
    split_ifs <;> simp <;> omega
  have hmap : quicVarLen QUIC_PN_MAP_SIZE = 2 := by decide
  unfold quicFrameAckFrameLen
  simp only [quicPutVars_length, List.map_append, List.sum_append, List.map_cons, List.map_nil,
    List.sum_cons, List.sum_nil, htype, hmap] at hecn ⊢
  omega

theorem quicFrameAck_fits_gap_advance :
    let st : QuicPnspace × Set Int :=
      recvRunGapAdvance.foldl RecvEvent.apply ((quicPnspaceInit QuicPnspace.zeroed true).2, ∅)
    quicFrameAckCreate st.1 0 QUIC_FRAME_ACK 2000000 0 true = .ok ⟨2, 0, [2, 6, 0, 1, 0, 0, 1], 7, 7⟩ ∧
      (⟨2, 0, [2, 6, 0, 1, 0, 0, 1], 7, 7⟩ : QuicFrame).data.length ≤
        quicFrameAckFrameLen st.1 2000000 0 ∧
      ∀ q ∈ ackGapRanges st.1.basePn st.1.minPnSeen none (quicPnspaceNumGabs st.1),
        q.1 < 2 ^ 14 ∧ q.2 < 2 ^ 14 :=
  ⟨rfl, quicFrameAck_fits recvRunGapAdvance_state.1
    (fun _ hp => (recvRunGapAdvance_le hp).trans_lt (by decide)) 0 2000000 0 true rfl⟩

end Quic
