import Quic.Pnspace.Invariant

namespace Quic

-- What the receive path (`quic_packet_app_process`, `quic_packet_handshake_process`) does to
-- one packet number space, together with the set of packet numbers recorded so far:
-- `space->time` is set from the packet's arrival time, `max_time_limit` from the RTT
-- estimate, the ECN counters count the received ECN codepoints, and `quic_pnspace_mark(space, pn)` runs for a pn ≥ 0 only after
-- `quic_pnspace_check(space, pn)` returned 0 in the same state. `alloc` is whether the
-- bitmap allocation in `quic_pnspace_grow` succeeds.
inductive RecvStep : QuicPnspace × Set Int → QuicPnspace × Set Int → Prop
  | time (space : QuicPnspace) (M : Set Int) (t : Nat) :
      RecvStep (space, M) ({ space with time := t }, M)
  | timeLimit (space : QuicPnspace) (M : Set Int) (limit : Nat) :
      RecvStep (space, M) ({ space with maxTimeLimit := limit }, M)
  | ecn (space : QuicPnspace) (M : Set Int) (ecn : Fin 4) :
      RecvStep (space, M) (quicPnspaceIncEcnCount space ecn, M)
  | mark (space : QuicPnspace) (M : Set Int) (pn : Int) (alloc : Bool) (hpn : 0 ≤ pn)
      (hcheck : quicPnspaceCheck space pn = 0) :
      RecvStep (space, M)
        ((quicPnspaceMark space pn alloc).2,
          if (quicPnspaceMark space pn alloc).1 = 0 then insert pn M else M)

-- The space right after a successful `quic_pnspace_init` of the zeroed socket, nothing recorded.
def RecvInit (state : QuicPnspace × Set Int) : Prop :=
  quicPnspaceInit QuicPnspace.zeroed true = (0, state.1) ∧ state.2 = ∅

-- Every state of a run: nothing recorded behind the sentinel `base_pn == -1` with a clear
-- map, or the representation invariant.
def SpaceInv (state : QuicPnspace × Set Int) : Prop :=
  (state.1.basePn = -1 ∧ state.2 = ∅ ∧ (∀ i, state.1.pnMap i = false) ∧
      state.1.pnMapLen ≤ QUIC_PN_MAP_SIZE) ∨
    MarkInv state.1 state.2

theorem spaceInv_init (state : QuicPnspace × Set Int) (h : RecvInit state) : SpaceInv state := by
  obtain ⟨hinit, hM⟩ := h
  have hs : state.1 = (quicPnspaceInit QuicPnspace.zeroed true).2 := by rw [hinit]
  left
  rw [hs, hM]
  refine ⟨rfl, rfl, fun _ => rfl, ?_⟩
  decide

-- Counting an ECN codepoint touches the ECN counters only.
theorem incEcnCount_eq (space : QuicPnspace) (ecn : Fin 4) :
    ∃ f, quicPnspaceIncEcnCount space ecn = { space with ecnCount := f } := by
  unfold quicPnspaceIncEcnCount
  split
  · exact ⟨space.ecnCount, rfl⟩
  · exact ⟨_, rfl⟩

theorem spaceInv_step (state next : QuicPnspace × Set Int) (h : SpaceInv state)
    (hstep : RecvStep state next) : SpaceInv next := by
  cases hstep with
  | time space M t =>
    rcases h with h | h
    · exact Or.inl h
    · exact Or.inr (h.congr rfl rfl rfl rfl rfl rfl)
  | timeLimit space M limit =>
    rcases h with h | h
    · exact Or.inl h
    · exact Or.inr (h.congr rfl rfl rfl rfl rfl rfl)
  | ecn space M ecn =>
    obtain ⟨f, hf⟩ := incEcnCount_eq space ecn
    rw [hf]
    rcases h with h | h
    · exact Or.inl h
    · exact Or.inr (h.congr rfl rfl rfl rfl rfl rfl)
  | mark space M pn alloc hpn hcheck =>
    rcases h with ⟨hbase, hM, hmap, hlen⟩ | h
    · -- the first packet number sets base_pn past it
      simp only at hbase hM hmap hlen
      subst hM
      have hmark : quicPnspaceMark space pn alloc = (0, quicPnspaceSetBasePn space (pn + 1)) := by
        simp [quicPnspaceMark, hbase]
      right
      simp only [hmark, if_true, ← Set.singleton_def]
      exact setBasePn_inv hpn hmap hlen
    · obtain ⟨hok, hfail⟩ := h.mark_inv hcheck alloc
      right
      by_cases hres : (quicPnspaceMark space pn alloc).1 = 0
      · simp only [hres, if_true]
        exact hok hres
      · simp only [hres, if_false, hfail hres]
        exact h

theorem spaceInv_of_reachable {state : QuicPnspace × Set Int}
    (h : Reachable RecvInit RecvStep state) : SpaceInv state :=
  Reachable.invariant spaceInv_init spaceInv_step h

-- The representation of the received packet numbers: the window [min_pn_seen, base_pn)
-- is all recorded, and bit i of the map records base_pn + i up to max_pn_seen.
def PnspaceRepr (space : QuicPnspace) (M : Set Int) : Prop :=
  space.minPnSeen < space.basePn ∧ space.basePn ≤ space.maxPnSeen + 1 ∧
    space.maxPnSeen - space.basePn < space.pnMapLen ∧ space.pnMapLen ≤ QUIC_PN_MAP_SIZE ∧
    (∀ p, space.minPnSeen ≤ p → p < space.basePn → p ∈ M) ∧
    (∀ i : Nat, i < space.pnMapLen → (space.pnMap i = true ↔ space.basePn + i ∈ M)) ∧
    (∀ i : Nat, i < space.pnMapLen → space.maxPnSeen + 1 - space.basePn ≤ i →
      space.pnMap i = false)

theorem MarkInv.repr {space : QuicPnspace} {M : Set Int} (h : MarkInv space M) :
    PnspaceRepr space M :=
  ⟨h.min_lt_base, h.base_le_max, h.max_lt_len, h.len_le, h.below_base, h.bit_iff,
    fun i _ hi => h.bit_high i hi⟩

-- Received-packet-number tracking is exact over every run: a duplicate is reported only for
-- a recorded packet number, a recorded one is never accepted again, and once a packet
-- number is recorded the representation invariant holds.
theorem quicPnspace_recv_exact {space : QuicPnspace} {M : Set Int}
    (h : Reachable RecvInit RecvStep (space, M)) :
    (∀ p, quicPnspaceCheck space p = 1 → p ∈ M) ∧ (∀ p ∈ M, quicPnspaceCheck space p ≠ 0) ∧
      (M.Nonempty → PnspaceRepr space M) := by
  rcases spaceInv_of_reachable h with ⟨hbase, hM, -, -⟩ | hinv
  · -- nothing recorded: the check accepts every packet number
    simp only at hbase hM
    subst hM
    refine ⟨fun p hp => ?_, fun p hp => absurd hp (Set.notMem_empty p), fun hne => ?_⟩
    · simp [quicPnspaceCheck, hbase] at hp
    · exact absurd hne Set.not_nonempty_empty
  · exact ⟨fun p hp => hinv.mem_of_check_eq_one hp, fun p hp => hinv.check_ne_zero_of_mem hp,
      fun _ => hinv.repr⟩

-- The space after the first packet of a run.
theorem reachable_first_mark (pn : Int) (hpn : 0 ≤ pn) :
    Reachable RecvInit RecvStep
      ((quicPnspaceMark (quicPnspaceInit QuicPnspace.zeroed true).2 pn true).2, {pn}) := by
  have hbase : (quicPnspaceInit QuicPnspace.zeroed true).2.basePn = -1 := rfl
  have h₀ : Reachable RecvInit RecvStep ((quicPnspaceInit QuicPnspace.zeroed true).2, ∅) :=
    Reachable.of_init ⟨rfl, rfl⟩
  have hstep := RecvStep.mark (quicPnspaceInit QuicPnspace.zeroed true).2 ∅ pn true hpn
    (by simp [quicPnspaceCheck, hbase])
  have hres : (quicPnspaceMark (quicPnspaceInit QuicPnspace.zeroed true).2 pn true).1 = 0 := by
    simp [quicPnspaceMark, hbase]
  rw [if_pos hres, ← Set.singleton_def] at hstep
  exact h₀.tail hstep

/-! ## Runs of receptions -/

-- One event of the receive path: the clock moves, or a packet number that
-- `quic_pnspace_check` accepts is marked, the map's allocation succeeding.
inductive RecvEvent where
  | time (t : Nat)
  | mark (pn : Int)
  deriving DecidableEq, Repr

def RecvEvent.apply (state : QuicPnspace × Set Int) : RecvEvent → QuicPnspace × Set Int
  | .time t => ({ state.1 with time := t }, state.2)
  | .mark pn =>
    ((quicPnspaceMark state.1 pn true).2,
      if (quicPnspaceMark state.1 pn true).1 = 0 then insert pn state.2 else state.2)

def RecvEvent.allowed (state : QuicPnspace × Set Int) : RecvEvent → Bool
  | .time _ => true
  | .mark pn => decide (0 ≤ pn) && quicPnspaceCheck state.1 pn == 0

theorem recvStep_of_allowed (state : QuicPnspace × Set Int) (ev : RecvEvent)
    (h : ev.allowed state = true) : RecvStep state (ev.apply state) := by
  obtain ⟨space, M⟩ := state
  cases ev with
  | time t => exact RecvStep.time space M t
  | mark pn =>
    simp only [RecvEvent.allowed, Bool.and_eq_true, decide_eq_true_eq, beq_iff_eq] at h
    exact RecvStep.mark space M pn true h.1 h.2

-- Packets 0, 2 and 3 leave a hole at 1; once the clock has run on by the time limit, packet 4
-- moves the window past the hole, and packet 6 opens a new one at 5.
def recvRunGapAdvance : List RecvEvent :=
  [.mark 0, .mark 2, .time 1000000, .mark 3, .time 2000000, .mark 4, .mark 6]

theorem recvRunGapAdvance_state :
    let st : QuicPnspace × Set Int :=
      recvRunGapAdvance.foldl RecvEvent.apply ((quicPnspaceInit QuicPnspace.zeroed true).2, ∅)
    Reachable RecvInit RecvStep st ∧ (∀ p, p ∈ st.2 ↔ p = 6 ∨ p = 4 ∨ p = 3 ∨ p = 2 ∨ p = 0) ∧
      st.1.basePn = 5 ∧ st.1.minPnSeen = 3 ∧ st.1.maxPnSeen = 6 := by
  refine ⟨Reachable.foldl_of_allowedRun recvStep_of_allowed (Reachable.of_init ⟨rfl, rfl⟩) _
    (by decide), fun p => ?_, by decide, by decide, by decide⟩
  show p ∈ insert (6 : Int) (insert 4 (insert 3 (insert 2 (insert 0 ∅)))) ↔ _
  simp

-- Every packet number the run records is at most 6, far below the bounds on packet numbers.
theorem recvRunGapAdvance_le {p : Int}
    (hp : p ∈ (recvRunGapAdvance.foldl RecvEvent.apply
      ((quicPnspaceInit QuicPnspace.zeroed true).2, ∅)).2) : p ≤ 6 := by
  rcases (recvRunGapAdvance_state.2.1 p).1 hp with rfl | rfl | rfl | rfl | rfl <;> decide

theorem quicPnspace_recv_exact_gap_advance :
    let st : QuicPnspace × Set Int :=
      recvRunGapAdvance.foldl RecvEvent.apply ((quicPnspaceInit QuicPnspace.zeroed true).2, ∅)
    (st.1.basePn = 5 ∧ st.1.minPnSeen = 3 ∧ st.1.maxPnSeen = 6) ∧
      (∀ p, quicPnspaceCheck st.1 p = 1 → p ∈ st.2) ∧ (∀ p ∈ st.2, quicPnspaceCheck st.1 p ≠ 0) ∧
      (st.2.Nonempty → PnspaceRepr st.1 st.2) :=
  ⟨recvRunGapAdvance_state.2.2, quicPnspace_recv_exact recvRunGapAdvance_state.1⟩

-- Before the first packet the sentinel base_pn = -1 sits below min_pn_seen = 0, so the
-- representation invariant does not hold in every reachable state.
theorem quicPnspace_init_not_repr :
    ∃ space M, Reachable RecvInit RecvStep (space, M) ∧ ¬ PnspaceRepr space M := by
  refine ⟨(quicPnspaceInit QuicPnspace.zeroed true).2, ∅, Reachable.of_init ⟨rfl, rfl⟩, ?_⟩
  intro h
  have hlt := h.1
  revert hlt
  decide

end Quic
