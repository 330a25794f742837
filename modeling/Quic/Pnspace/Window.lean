import Quic.Pnspace.Gabs
import Quic.Pnspace.Receive

namespace Quic

/-! How far `min_pn_seen` trails the packet numbers received: `quic_pnspace_mark` moves it up
to `last_max_pn_seen` once `max_pn_seen` runs QUIC_PN_MAP_LIMIT ahead of it, and a packet
number is accepted at most QUIC_PN_MAP_SIZE past `base_pn`. -/

section Fields

variable (space : QuicPnspace) (pn : Int)

@[simp] theorem quicPnspaceMove_maxPnSeen : (quicPnspaceMove space pn).maxPnSeen = space.maxPnSeen :=
  rfl

@[simp] theorem quicPnspaceMove_lastMaxPnSeen :
    (quicPnspaceMove space pn).lastMaxPnSeen = space.lastMaxPnSeen := rfl

@[simp] theorem quicPnspaceMove_minPnSeen : (quicPnspaceMove space pn).minPnSeen = space.minPnSeen :=
  rfl

@[simp] theorem markReceived_maxPnSeen (gap : Nat) :
    (markReceived space pn gap).maxPnSeen = max space.maxPnSeen pn := by
  unfold markReceived
  dsimp only
  split_ifs <;> simp

@[simp] theorem markReceived_lastMaxPnSeen (gap : Nat) :
    (markReceived space pn gap).lastMaxPnSeen = space.lastMaxPnSeen := by
  unfold markReceived
  dsimp only
  split_ifs <;> simp

@[simp] theorem markReceived_minPnSeen (gap : Nat) :
    (markReceived space pn gap).minPnSeen = space.minPnSeen := by
  unfold markReceived
  dsimp only
  split_ifs <;> simp

theorem quicPnspaceMove_basePn_ge : space.basePn ≤ (quicPnspaceMove space pn).basePn := by
  unfold quicPnspaceMove
  dsimp only
  omega

theorem markReceived_basePn_ge (gap : Nat) : space.basePn ≤ (markReceived space pn gap).basePn := by
  unfold markReceived
  dsimp only
  split_ifs
  · simpa using quicPnspaceMove_basePn_ge (markMaxPnSeen space pn) pn
  · simp
  · simp

theorem markAdvance_basePn_ge : space.basePn ≤ (markAdvance space pn).basePn := by
  unfold markAdvance
  dsimp only
  split_ifs
  · exact le_rfl
  · exact le_rfl
  · exact quicPnspaceMove_basePn_ge space _
  · exact le_rfl

end Fields

theorem quicPnspaceGrow_fields {space space' : QuicPnspace} {size : Nat} {alloc : Bool}
    (h : quicPnspaceGrow space size alloc = .ok space') :
    space'.maxPnSeen = space.maxPnSeen ∧ space'.lastMaxPnSeen = space.lastMaxPnSeen ∧
      space'.minPnSeen = space.minPnSeen ∧ space'.basePn = space.basePn := by
  unfold quicPnspaceGrow at h
  split_ifs at h
  cases h
  exact ⟨rfl, rfl, rfl, rfl⟩

-- What one `quic_pnspace_mark` does to the packet numbers the window is measured by: nothing,
-- the first number of a run, or a number at or past `base_pn` that raises `max_pn_seen` before
-- the window is reconsidered.
theorem quicPnspaceMark_cases (space : QuicPnspace) (pn : Int) (alloc : Bool) :
    (quicPnspaceMark space pn alloc).2 = space ∨
    (space.basePn = -1 ∧
      (quicPnspaceMark space pn alloc).2 = quicPnspaceSetBasePn space (pn + 1)) ∨
    (space.basePn ≠ -1 ∧ ∃ s : QuicPnspace, s.maxPnSeen = max space.maxPnSeen pn ∧
      s.lastMaxPnSeen = space.lastMaxPnSeen ∧ s.minPnSeen = space.minPnSeen ∧
      space.basePn ≤ s.basePn ∧ (quicPnspaceMark space pn alloc).2 = markAdvance s pn) := by
  unfold quicPnspaceMark
  split_ifs with hbase hlow
  · exact .inr (.inl ⟨hbase, rfl⟩)
  · exact .inl rfl
  dsimp only
  split
  · exact .inl rfl
  rename_i grown hgrown
  -- the map grew, or already held the bit
  have hfields : grown.maxPnSeen = space.maxPnSeen ∧ grown.lastMaxPnSeen = space.lastMaxPnSeen ∧
      grown.minPnSeen = space.minPnSeen ∧ grown.basePn = space.basePn := by
    split at hgrown
    · exact quicPnspaceGrow_fields hgrown
    · cases hgrown
      exact ⟨rfl, rfl, rfl, rfl⟩
  obtain ⟨hmax, hlast, hmin, hbase'⟩ := hfields
  refine .inr (.inr ⟨hbase, markReceived grown pn (toU16 (pn - space.basePn)), ?_, ?_, ?_, ?_, rfl⟩)
  · rw [markReceived_maxPnSeen, hmax]
  · rw [markReceived_lastMaxPnSeen, hlast]
  · rw [markReceived_minPnSeen, hmin]
  · rw [← hbase']
    exact markReceived_basePn_ge grown pn _

-- The window: `max_pn_seen` at most QUIC_PN_MAP_LIMIT past `last_max_pn_seen`, which is at most
-- QUIC_PN_MAP_LIMIT + QUIC_PN_MAP_SIZE past `min_pn_seen`; before the first packet number no
-- gap blocks are reported.
structure WindowInv (space : QuicPnspace) : Prop where
  max_le_last : space.maxPnSeen ≤ space.lastMaxPnSeen + QUIC_PN_MAP_LIMIT
  last_le_min : space.lastMaxPnSeen ≤ space.minPnSeen + QUIC_PN_MAP_LIMIT + QUIC_PN_MAP_SIZE
  sentinel : space.basePn = -1 → quicPnspaceNumGabs space = []

-- On a new largest packet number no more than QUIC_PN_MAP_LIMIT + QUIC_PN_MAP_SIZE past
-- `last_max_pn_seen`, the end of `quic_pnspace_mark` leaves the window bounded: either it was
-- within QUIC_PN_MAP_LIMIT already, or `min_pn_seen` and `last_max_pn_seen` move up.
theorem markAdvance_window {s : QuicPnspace} {pn : Int} (hmax : s.maxPnSeen = pn)
    (hpn : pn ≤ s.lastMaxPnSeen + QUIC_PN_MAP_LIMIT + QUIC_PN_MAP_SIZE)
    (hlast : s.lastMaxPnSeen ≤ s.minPnSeen + QUIC_PN_MAP_LIMIT + QUIC_PN_MAP_SIZE) :
    (markAdvance s pn).maxPnSeen ≤ (markAdvance s pn).lastMaxPnSeen + QUIC_PN_MAP_LIMIT ∧
      (markAdvance s pn).lastMaxPnSeen ≤
        (markAdvance s pn).minPnSeen + QUIC_PN_MAP_LIMIT + QUIC_PN_MAP_SIZE := by
  unfold markAdvance
  rw [if_neg (not_not.mpr hmax)]
  dsimp only
  split_ifs with hkeep hmove
  · exact ⟨by have := min_le_left s.lastMaxPnSeen s.basePn; omega, hlast⟩
  · simp only [quicPnspaceMove_maxPnSeen, quicPnspaceMove_lastMaxPnSeen]
    omega
  · dsimp only
    omega

theorem windowInv_step (state next : QuicPnspace × Set Int) (hspace : SpaceInv state)
    (h : WindowInv state.1) (hstep : RecvStep state next) : WindowInv next.1 := by
  cases hstep with
  | time space M t => exact ⟨h.max_le_last, h.last_le_min, h.sentinel⟩
  | timeLimit space M limit => exact ⟨h.max_le_last, h.last_le_min, h.sentinel⟩
  | ecn space M ecn =>
    obtain ⟨f, hf⟩ := incEcnCount_eq space ecn
    rw [hf]
    exact ⟨h.max_le_last, h.last_le_min, h.sentinel⟩
  | mark space M pn alloc hpn hcheck =>
    dsimp only at h ⊢
    rcases quicPnspaceMark_cases space pn alloc with hsame | ⟨-, hfirst⟩ |
      ⟨hbase, s, hmax, hlast, hmin, hbase_le, hmark⟩
    · rw [hsame]
      exact h
    · rw [hfirst]
      refine ⟨?_, ?_, fun hbase => ?_⟩ <;> simp only [quicPnspaceSetBasePn] at * <;> omega
    rw [hmark]
    -- a space with a base has recorded numbers: `pn` lies within the map of `base_pn`
    have hinv : MarkInv space M := by
      rcases hspace with ⟨hsent, -⟩ | hinv
      · exact absurd hsent hbase
      · exact hinv
    obtain ⟨-, hhi, -⟩ := hinv.check_eq_zero hcheck
    have hbm := hinv.base_le_max
    have hpos : 0 < space.basePn := by have := hinv.min_nonneg; have := hinv.min_lt_base; omega
    have hmax' := h.max_le_last
    have hlast' := h.last_le_min
    have hsent : (markAdvance s pn).basePn ≠ -1 := by
      have := markAdvance_basePn_ge s pn
      omega
    by_cases hnew : s.maxPnSeen = pn
    · obtain ⟨h1, h2⟩ := markAdvance_window hnew
        (by unfold QUIC_PN_MAP_LIMIT QUIC_PN_MAP_SIZE at *; omega) (by omega)
      exact ⟨h1, h2, fun hneg => absurd hneg hsent⟩
    · -- not a new largest number: the window is as it was
      have hkeep : markAdvance s pn = s := by
        unfold markAdvance
        exact if_pos hnew
      rw [hkeep] at hsent ⊢
      exact ⟨by omega, by omega, fun hneg => absurd hneg hsent⟩

theorem windowInv_init (state : QuicPnspace × Set Int) (h : RecvInit state) : WindowInv state.1 := by
  obtain ⟨hinit, -⟩ := h
  have hs : state.1 = (quicPnspaceInit QuicPnspace.zeroed true).2 := by rw [hinit]
  rw [hs]
  exact ⟨by decide, by decide, fun _ => by decide⟩

-- Every state of a run keeps the window.
theorem windowInv_of_reachable {state : QuicPnspace × Set Int}
    (h : Reachable RecvInit RecvStep state) : WindowInv state.1 := by
  have hboth : SpaceInv state ∧ WindowInv state.1 :=
    @Reachable.invariant _ RecvInit RecvStep (fun st => SpaceInv st ∧ WindowInv st.1)
      (fun s hs => ⟨spaceInv_init s hs, windowInv_init s hs⟩)
      (fun s t hst hstep => ⟨spaceInv_step s t hst.1 hstep, windowInv_step s t hst.1 hst.2 hstep⟩)
      state h
  exact hboth.2

end Quic
