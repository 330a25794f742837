import Quic.Path.Ampl

-- Packetization Layer Path MTU Discovery (RFC 8899) on a path: the state machine of `path.c`
-- (`quic_path_pl_send`, `quic_path_pl_recv`, `quic_path_pl_toobig`, `quic_path_pl_reset`,
-- `quic_path_pl_confirm`), driven by the probes sent, the ranges acknowledged, Packet Too Big
-- hints and resets.
namespace Quic

-- `enum quic_plpmtud_state`
inductive QuicPlState where
  | disabled
  | base
  | search
  | complete
  | error
  deriving DecidableEq, Repr

def QUIC_BASE_PLPMTU : Nat := 1200
def QUIC_MAX_PLPMTU : Nat := 9000
def QUIC_MIN_PLPMTU : Nat := 512
def QUIC_MAX_PROBES : Nat := 3
def QUIC_PL_BIG_STEP : Nat := 32
def QUIC_PL_MIN_STEP : Nat := 4

-- `paths->pl`: the number of the probe in flight, the u16 sizes and the u8 count.
structure QuicPathPl where
  number : Int
  pmtu : Nat
  probeSize : Nat
  probeHigh : Nat
  probeCount : Nat
  state : QuicPlState
  deriving DecidableEq, Repr

-- `quic_path_pl_send`, once the probe numbered `number` went out. After QUIC_MAX_PROBES probes of
-- one size the size has failed. It gives the new path MTU (0 for none) and the state.
def quicPathPlSend (pl : QuicPathPl) (number : Int) : Nat × QuicPathPl :=
  let pl := { pl with number := number }
  let r : Nat × QuicPathPl :=
    if pl.probeCount < QUIC_MAX_PROBES then (0, pl)
    else
      let pl := { pl with probeCount := 0 }
      match pl.state with
      | .base =>
        -- BASE_PLPMTU confirming failed
        if pl.probeSize = QUIC_BASE_PLPMTU then
          (QUIC_BASE_PLPMTU, { pl with state := .error, pmtu := QUIC_BASE_PLPMTU })
        else (0, pl)
      | .search =>
        -- a black hole, or a size that failed
        if pl.pmtu = pl.probeSize then
          (QUIC_BASE_PLPMTU, { pl with state := .base, probeSize := QUIC_BASE_PLPMTU,
                                       probeHigh := 0, pmtu := QUIC_BASE_PLPMTU })
        else (0, { pl with probeHigh := pl.probeSize, probeSize := pl.pmtu })
      | .complete =>
        if pl.pmtu = pl.probeSize then
          (QUIC_BASE_PLPMTU, { pl with state := .base, probeSize := QUIC_BASE_PLPMTU,
                                       pmtu := QUIC_BASE_PLPMTU })
        else (0, pl)
      | _ => (0, pl)
  (r.1, { r.2 with probeCount := (r.2.probeCount + 1) % 2 ^ 8 })

-- `quic_path_pl_recv`, once the probe was acknowledged: the probe's size is confirmed, and the
-- search goes on up, or completes. It gives the new path MTU, `*raise_timer`, `*complete` and
-- the state.
def quicPathPlRecv (pl : QuicPathPl) : Nat × Bool × Bool × QuicPathPl :=
  let pl := { pl with number := 0, pmtu := pl.probeSize, probeCount := 0 }
  let r : Nat × Bool × QuicPathPl :=
    match pl.state with
    | .base =>
      (0, false, { pl with state := .search,
                           probeSize := (pl.probeSize + QUIC_PL_BIG_STEP) % 2 ^ 16 })
    | .error =>
      (pl.probeSize, false, { pl with state := .search, pmtu := pl.probeSize,
                                      probeSize := (pl.probeSize + QUIC_PL_BIG_STEP) % 2 ^ 16 })
    | .search =>
      if pl.probeHigh = 0 ∧ pl.probeSize < QUIC_MAX_PLPMTU then
        (0, false, { pl with
          probeSize := min (pl.probeSize + QUIC_PL_BIG_STEP) QUIC_MAX_PLPMTU % 2 ^ 16 })
      else
        -- no size failed yet above QUIC_MAX_PLPMTU: step up by the small step to it
        let pl := if pl.probeHigh = 0 then { pl with probeHigh := QUIC_MAX_PLPMTU } else pl
        let pl := { pl with probeSize := (pl.probeSize + QUIC_PL_MIN_STEP) % 2 ^ 16 }
        if pl.probeSize ≥ pl.probeHigh then
          (pl.pmtu, true, { pl with probeHigh := 0, state := .complete, probeSize := pl.pmtu })
        else (0, false, pl)
    | .complete =>
      (0, false, { pl with
        state := .search,
        probeSize := min (pl.probeSize + QUIC_PL_MIN_STEP) QUIC_MAX_PLPMTU % 2 ^ 16 })
    | .disabled => (0, false, pl)
  (r.1, r.2.1, decide (r.2.2.state = .complete), r.2.2)

-- `quic_path_pl_toobig` for a Packet Too Big hint `pmtu` below the probe size: a hint below the
-- path MTU in force starts over from BASE, one between it and the probe size becomes the probe
-- size. It gives the new path MTU, `*reset_timer` and the state.
def quicPathPlToobig (pl : QuicPathPl) (pmtu : Nat) : Nat × Bool × QuicPathPl :=
  if pmtu < QUIC_MIN_PLPMTU ∨ pmtu ≥ pl.probeSize then (0, false, pl)
  else
    match pl.state with
    | .base =>
      if pmtu ≥ QUIC_MIN_PLPMTU ∧ pmtu < QUIC_BASE_PLPMTU then
        (QUIC_BASE_PLPMTU, false, { pl with state := .error, pmtu := QUIC_BASE_PLPMTU })
      else (0, false, pl)
    | .search =>
      if pmtu ≥ QUIC_BASE_PLPMTU ∧ pmtu < pl.pmtu then
        (QUIC_BASE_PLPMTU, false, { pl with
          state := .base, probeSize := QUIC_BASE_PLPMTU, probeCount := 0, probeHigh := 0,
          pmtu := QUIC_BASE_PLPMTU })
      else if pmtu > pl.pmtu ∧ pmtu < pl.probeSize then
        (0, false, { pl with probeSize := pmtu % 2 ^ 16, probeCount := 0 })
      else (0, false, pl)
    | .complete =>
      if pmtu ≥ QUIC_BASE_PLPMTU ∧ pmtu < pl.pmtu then
        (QUIC_BASE_PLPMTU, true, { pl with
          state := .base, probeSize := QUIC_BASE_PLPMTU, probeCount := 0, probeHigh := 0,
          pmtu := QUIC_BASE_PLPMTU })
      else (0, false, pl)
    | _ => (0, false, pl)

def quicPathPlReset (pl : QuicPathPl) : QuicPathPl :=
  { pl with number := 0, probeHigh := 0, probeCount := 0, state := .base,
            pmtu := QUIC_BASE_PLPMTU, probeSize := QUIC_BASE_PLPMTU }

-- `quic_path_pl_confirm`: an acknowledged range holds the probe in flight (number 0 is none).
def quicPathPlConfirm (pl : QuicPathPl) (largest smallest : Int) : Bool :=
  pl.number != 0 && decide (smallest ≤ pl.number) && decide (pl.number ≤ largest)

/-! ## The machine's runs -/

-- What moves the machine: a probe sent, an ACK frame's range, a Packet Too Big hint, a reset.
inductive QuicPlCall where
  | send (number : Int)
  | ack (largest smallest : Int)
  | toobig (pmtu : Nat)
  | reset
  deriving DecidableEq, Repr

-- An ACK range moves the machine only if it holds the probe (`quic_outq_path_confirm`).
def QuicPlCall.apply (pl : QuicPathPl) : QuicPlCall → QuicPathPl
  | .send number => (quicPathPlSend pl number).2
  | .ack largest smallest =>
    if quicPathPlConfirm pl largest smallest then (quicPathPlRecv pl).2.2.2 else pl
  | .toobig pmtu => (quicPathPlToobig pl pmtu).2.2
  | .reset => quicPathPlReset pl

def PlStep (pl pl' : QuicPathPl) : Prop :=
  ∃ call : QuicPlCall, pl' = call.apply pl

def PlInit (pl : QuicPathPl) : Prop :=
  ∃ pl₀, pl = quicPathPlReset pl₀

theorem plStep_apply (pl : QuicPathPl) (call : QuicPlCall) : PlStep pl (call.apply pl) :=
  ⟨call, rfl⟩

/-! ## The probe's number and size -/

-- The probe sent is the one in flight.
@[simp] theorem quicPathPlSend_number (pl : QuicPathPl) (number : Int) :
    (quicPathPlSend pl number).2.number = number := by
  unfold quicPathPlSend
  by_cases hc : pl.probeCount < QUIC_MAX_PROBES
  · simp [hc]
  · cases pl.state <;> simp [hc, apply_ite]

-- An acknowledged probe is no longer in flight.
@[simp] theorem quicPathPlRecv_number (pl : QuicPathPl) : (quicPathPlRecv pl).2.2.2.number = 0 := by
  unfold quicPathPlRecv
  cases pl.state <;> dsimp only
  split_ifs <;> rfl

-- The path MTU an acknowledgement confirms is the size probed.
@[simp] theorem quicPathPlRecv_pmtu (pl : QuicPathPl) :
    (quicPathPlRecv pl).2.2.2.pmtu = pl.probeSize := by
  unfold quicPathPlRecv
  cases pl.state <;> dsimp only
  split_ifs <;> rfl

@[simp] theorem quicPathPlToobig_number (pl : QuicPathPl) (pmtu : Nat) :
    (quicPathPlToobig pl pmtu).2.2.number = pl.number := by
  unfold quicPathPlToobig
  cases pl.state <;> dsimp only <;> split_ifs <;> rfl

/-! ## The bounds -/

-- The bounds on the sizes, with what each state says of them: BASE and ERROR probe the base
-- size with no failed size recorded, and a completed search probes the size it confirmed.
structure PlInv (pl : QuicPathPl) : Prop where
  base_le : QUIC_BASE_PLPMTU ≤ pl.pmtu
  pmtu_le : pl.pmtu ≤ pl.probeSize
  size_le : pl.probeSize ≤ QUIC_MAX_PLPMTU
  high : pl.probeHigh = 0 ∨ pl.probeSize < pl.probeHigh
  high_le : pl.probeHigh ≤ QUIC_MAX_PLPMTU
  base : pl.state = .base ∨ pl.state = .error →
    pl.probeSize = QUIC_BASE_PLPMTU ∧ pl.probeHigh = 0
  complete : pl.state = .complete → pl.probeHigh = 0 ∧ pl.probeSize = pl.pmtu
  enabled : pl.state ≠ .disabled

theorem plInv_reset (pl : QuicPathPl) : PlInv (quicPathPlReset pl) := by
  refine ⟨le_rfl, le_rfl, ?_, .inl rfl, Nat.zero_le _, fun _ => ⟨rfl, rfl⟩, ?_, ?_⟩ <;>
    simp [quicPathPlReset, QUIC_BASE_PLPMTU, QUIC_MAX_PLPMTU]

theorem PlInv.send {pl : QuicPathPl} (h : PlInv pl) (number : Int) :
    PlInv (quicPathPlSend pl number).2 := by
  obtain ⟨hb, hp, hs, hh, hhl, hbase, hcomp, hen⟩ := h
  unfold quicPathPlSend
  by_cases hcount : pl.probeCount < QUIC_MAX_PROBES
  · simp only [hcount, if_true]
    exact ⟨hb, hp, hs, hh, hhl, hbase, hcomp, hen⟩
  simp only [hcount, if_false]
  cases hst : pl.state with
  | disabled => exact absurd hst hen
  | base =>
    obtain ⟨hsz, hhi⟩ := hbase (.inl hst)
    simp only [hsz, if_true]
    refine ⟨le_rfl, le_rfl, ?_, .inl hhi, by simp [hhi], fun _ => ⟨rfl, hhi⟩, ?_, ?_⟩ <;>
      simp [QUIC_BASE_PLPMTU, QUIC_MAX_PLPMTU]
  | search =>
    by_cases hblack : pl.pmtu = pl.probeSize
    · simp only [hblack, if_true]
      refine ⟨le_rfl, le_rfl, ?_, .inl rfl, Nat.zero_le _, fun _ => ⟨rfl, rfl⟩, ?_, ?_⟩ <;>
        simp [QUIC_BASE_PLPMTU, QUIC_MAX_PLPMTU]
    · -- the size failed: it becomes the highest, and the search goes back to the path MTU
      simp only [hblack, if_false]
      have hlt : pl.pmtu < pl.probeSize := lt_of_le_of_ne hp hblack
      exact ⟨hb, le_rfl, by dsimp only; omega, .inr (by dsimp only; omega), hs, by simp, by simp,
        by simp⟩
  | complete =>
    obtain ⟨hhi, hsz⟩ := hcomp hst
    simp only [← hsz, if_true]
    refine ⟨le_rfl, le_rfl, ?_, .inl hhi, by simp [hhi], fun _ => ⟨rfl, hhi⟩, ?_, ?_⟩ <;>
      simp [QUIC_BASE_PLPMTU, QUIC_MAX_PLPMTU]
  | error =>
    exact ⟨hb, hp, hs, hh, hhl, fun _ => hbase (.inr hst), by simp, by simp⟩

-- A step up capped at QUIC_MAX_PLPMTU, as the u16 `probe_size` holds it.
theorem min_step_mod {size : Nat} (step : Nat) (h : size ≤ QUIC_MAX_PLPMTU) :
    size ≤ min (size + step) QUIC_MAX_PLPMTU % 2 ^ 16 ∧
      min (size + step) QUIC_MAX_PLPMTU % 2 ^ 16 ≤ QUIC_MAX_PLPMTU := by
  have hlt : min (size + step) QUIC_MAX_PLPMTU < 2 ^ 16 :=
    lt_of_le_of_lt (min_le_right _ _) (by decide)
  rw [Nat.mod_eq_of_lt hlt]
  exact ⟨le_min (by omega) h, min_le_right _ _⟩

theorem PlInv.recv {pl : QuicPathPl} (h : PlInv pl) : PlInv (quicPathPlRecv pl).2.2.2 := by
  obtain ⟨hb, hp, hs, hh, hhl, hbase, hcomp, hen⟩ := h
  unfold quicPathPlRecv
  cases hst : pl.state with
  | disabled => exact absurd hst hen
  | base =>
    obtain ⟨hsz, hhi⟩ := hbase (.inl hst)
    refine ⟨?_, ?_, ?_, .inl hhi, ?_, ?_, ?_, ?_⟩ <;>
      simp [hsz, hhi, QUIC_BASE_PLPMTU, QUIC_PL_BIG_STEP, QUIC_MAX_PLPMTU]
  | error =>
    obtain ⟨hsz, hhi⟩ := hbase (.inr hst)
    refine ⟨?_, ?_, ?_, .inl hhi, ?_, ?_, ?_, ?_⟩ <;>
      simp [hsz, hhi, QUIC_BASE_PLPMTU, QUIC_PL_BIG_STEP, QUIC_MAX_PLPMTU]
  | search =>
    dsimp only
    by_cases hup : pl.probeHigh = 0 ∧ pl.probeSize < QUIC_MAX_PLPMTU
    · -- no size failed and room below QUIC_MAX_PLPMTU: the big step
      rw [if_pos hup]
      obtain ⟨h1, h2⟩ := min_step_mod QUIC_PL_BIG_STEP hs
      generalize min (pl.probeSize + QUIC_PL_BIG_STEP) QUIC_MAX_PLPMTU % 2 ^ 16 = m at h1 h2
      exact ⟨by dsimp only; omega, h1, h2, .inl hup.1, hhl, by simp, by simp, by simp⟩
    rw [if_neg hup]
    by_cases h0 : pl.probeHigh = 0
    · -- the size reached QUIC_MAX_PLPMTU, which becomes the highest: the search completes
      have hmax : pl.probeSize = QUIC_MAX_PLPMTU := by
        simp only [h0, true_and, not_lt] at hup
        omega
      simp only [h0, if_true]
      split_ifs with hreach
      · exact ⟨by dsimp only; omega, le_rfl, hs, .inl rfl, Nat.zero_le _, by simp, by simp,
          by simp⟩
      · simp [hmax, QUIC_MAX_PLPMTU, QUIC_PL_MIN_STEP] at hreach
    · -- a failed size above: the small step, completing once it reaches that size
      have hlt : pl.probeSize < pl.probeHigh := hh.resolve_left h0
      have hmod : (pl.probeSize + QUIC_PL_MIN_STEP) % 2 ^ 16 = pl.probeSize + QUIC_PL_MIN_STEP := by
        unfold QUIC_MAX_PLPMTU QUIC_PL_MIN_STEP at *
        omega
      simp only [h0, if_false, hmod]
      split_ifs with hreach
      · exact ⟨by dsimp only; omega, le_rfl, hs, .inl rfl, Nat.zero_le _, by simp, by simp,
          by simp⟩
      · exact ⟨by dsimp only; omega, by dsimp only; omega, by dsimp only; omega,
          .inr (by dsimp only; omega), hhl, by simp, by simp, by simp⟩
  | complete =>
    obtain ⟨hhi, hsz⟩ := hcomp hst
    obtain ⟨h1, h2⟩ := min_step_mod QUIC_PL_MIN_STEP hs
    dsimp only
    generalize min (pl.probeSize + QUIC_PL_MIN_STEP) QUIC_MAX_PLPMTU % 2 ^ 16 = m at h1 h2
    exact ⟨by dsimp only; omega, h1, h2, .inl hhi, hhl, by simp, by simp, by simp⟩

-- The state BASE starts from, with the base size confirmed and nothing failed.
theorem plInv_base (pl : QuicPathPl) (count : Nat) :
    PlInv { pl with state := .base, probeSize := QUIC_BASE_PLPMTU, probeCount := count,
                    probeHigh := 0, pmtu := QUIC_BASE_PLPMTU } := by
  refine ⟨le_rfl, le_rfl, ?_, .inl rfl, Nat.zero_le _, fun _ => ⟨rfl, rfl⟩, ?_, ?_⟩ <;>
    simp [QUIC_BASE_PLPMTU, QUIC_MAX_PLPMTU]

theorem PlInv.toobig {pl : QuicPathPl} (h : PlInv pl) (pmtu : Nat) :
    PlInv (quicPathPlToobig pl pmtu).2.2 := by
  unfold quicPathPlToobig
  by_cases hout : pmtu < QUIC_MIN_PLPMTU ∨ pmtu ≥ pl.probeSize
  · rw [if_pos hout]
    exact h
  rw [if_neg hout]
  obtain ⟨hb, hp, hs, hh, hhl, hbase, hcomp, hen⟩ := h
  cases hst : pl.state with
  | base =>
    obtain ⟨hsz, hhi⟩ := hbase (.inl hst)
    dsimp only
    split_ifs
    · exact ⟨le_rfl, by dsimp only; omega, hs, hh, hhl, fun _ => ⟨hsz, hhi⟩, by simp, by simp⟩
    · exact ⟨hb, hp, hs, hh, hhl, hbase, hcomp, hen⟩
  | search =>
    dsimp only
    split_ifs with hdrop hnarrow
    · exact plInv_base pl 0
    · -- the hint lies between the path MTU and the probe size: it becomes the probe size
      have hmod : pmtu % 2 ^ 16 = pmtu := by
        unfold QUIC_MAX_PLPMTU at hs
        omega
      exact ⟨hb, by dsimp only; omega, by dsimp only; omega,
        by dsimp only; rw [hmod]; omega, hhl, by simp, by simp, by simp⟩
    · exact ⟨hb, hp, hs, hh, hhl, hbase, hcomp, hen⟩
  | complete =>
    dsimp only
    split_ifs
    · exact plInv_base pl 0
    · exact ⟨hb, hp, hs, hh, hhl, hbase, hcomp, hen⟩
  | disabled | error => exact ⟨hb, hp, hs, hh, hhl, hbase, hcomp, hen⟩

-- Neither a probe sent nor a hint raises the size to probe.
theorem PlInv.send_probeSize_le {pl : QuicPathPl} (h : PlInv pl) (number : Int) :
    (quicPathPlSend pl number).2.probeSize ≤ pl.probeSize := by
  have hbase : QUIC_BASE_PLPMTU ≤ pl.probeSize := h.base_le.trans h.pmtu_le
  unfold quicPathPlSend
  by_cases hc : pl.probeCount < QUIC_MAX_PROBES
  · simp [hc]
  · cases pl.state <;> simp [hc, apply_ite] <;> split_ifs <;> simp [hbase, h.pmtu_le]

theorem PlInv.toobig_probeSize_le {pl : QuicPathPl} (h : PlInv pl) (pmtu : Nat) :
    (quicPathPlToobig pl pmtu).2.2.probeSize ≤ pl.probeSize := by
  have hbase : QUIC_BASE_PLPMTU ≤ pl.probeSize := h.base_le.trans h.pmtu_le
  unfold quicPathPlToobig
  cases pl.state <;> (dsimp only; split_ifs <;> simp [hbase] <;> omega)

theorem plInv_step {pl pl' : QuicPathPl} (h : PlInv pl) (hstep : PlStep pl pl') : PlInv pl' := by
  obtain ⟨call, rfl⟩ := hstep
  cases call with
  | send number => exact h.send number
  | ack largest smallest =>
    simp only [QuicPlCall.apply]
    split_ifs
    · exact h.recv
    · exact h
  | toobig pmtu => exact h.toobig pmtu
  | reset => exact plInv_reset pl

-- From a reset, whatever probes are sent and lost, whatever ACK ranges and Packet Too Big hints
-- arrive and whenever the path is reset again, the confirmed path MTU stays between
-- QUIC_BASE_PLPMTU and the probe size, the probe size stays within QUIC_MAX_PLPMTU, and the
-- highest failed size, when there is one, lies above the probe size.
theorem quicPathPl_bounds {pl : QuicPathPl} (h : Reachable PlInit PlStep pl) :
    QUIC_BASE_PLPMTU ≤ pl.pmtu ∧ pl.pmtu ≤ pl.probeSize ∧ pl.probeSize ≤ QUIC_MAX_PLPMTU ∧
      (pl.probeHigh = 0 ∨ pl.probeSize < pl.probeHigh) := by
  have hinv : PlInv pl := by
    refine Reachable.invariant ?_ (fun a b => @plInv_step a b) h
    rintro _ ⟨pl₀, rfl⟩
    exact plInv_reset pl₀
  exact ⟨hinv.base_le, hinv.pmtu_le, hinv.size_le, hinv.high⟩

-- Two probes confirmed (1200, then 1232 bytes), then a hint of 1250 bytes while 1264 bytes are
-- probed: the search narrows to the hint.
example :
    ([QuicPlCall.send 1, .ack 1 1, .send 2, .ack 2 2, .toobig 1250].foldl QuicPlCall.apply
      (quicPathPlReset ⟨0, 0, 0, 0, 0, .disabled⟩)).probeSize = 1250 := by
  decide

end Quic
