import Quic.Pnspace.Gabs
import Quic.Common.Varint

namespace Quic

def QUIC_FRAME_ACK : Nat := 0x02
def QUIC_FRAME_ACK_ECN : Nat := 0x03

-- The fields of `struct quic_frame` a created frame fills in; `data` holds `len` bytes.
structure QuicFrame where
  type : Nat
  level : Nat
  data : List UInt8
  len : Nat
  size : Nat

-- The (Gap, ACK Range Length) pairs after the First ACK Range: block i with the block i-1
-- below it, from the top block down (`for (i = num_gabs - 1; i > 0; i--)`), and last the
-- bottom block with the range down to `min_pn_seen`; nothing without blocks.
def ackGapRanges (base minPn : Int) : Option QuicGapAckBlock → List QuicGapAckBlock → List (Nat × Nat)
  | _, [] => []
  | below, g :: gs =>
    ackGapRanges base minPn (some g) gs ++
      match below with
      | none =>
        let largest := toU64 ((g.start : Int) - 1 + base - 1)
        [(toU64 ((g.stop : Int) - g.start), toU64 ((largest : Int) - minPn))]
      | some prev => [(toU64 ((g.stop : Int) - g.start), toU64 ((g.start : Int) - prev.stop - 2))]

-- Each (Gap, ACK Range Length) pair is written as its two values.
def ackPairVars (ps : List (Nat × Nat)) : List Nat :=
  ps.flatMap fun (gap, range) => [gap, range]

-- `quic_frame_ack_create` for the space of `level`: `now` is `quic_ktime_get_us()` and
-- `alloc` whether `quic_frame_alloc` succeeds.
def quicFrameAckCreate (space : QuicPnspace) (level type now ackDelayExponent : Nat)
    (alloc : Bool) : Except Int QuicFrame :=
  let type := type + (if quicPnspaceHasEcnCount space then 1 else 0)
  let gabs := quicPnspaceNumGabs space
  let largest := toU64 space.maxPnSeen
  let smallest : Nat :=
    match gabs.getLast? with
    | none => toU64 space.minPnSeen
    | some g => toU64 (space.basePn + g.stop)
  let range := toU64 ((largest : Int) - smallest)
  let delay := toU64 ((now : Int) - space.maxPnTime) >>> ackDelayExponent
  if !alloc then .error (-ENOMEM)
  else
    let ecn :=
      if type = QUIC_FRAME_ACK_ECN then
        [space.ecnCount QUIC_ECN_LOCAL QUIC_ECN_ECT0, space.ecnCount QUIC_ECN_LOCAL QUIC_ECN_ECT1,
          space.ecnCount QUIC_ECN_LOCAL QUIC_ECN_CE]
      else []
    let data := quicPutVars ([type, largest, delay, gabs.length, range] ++
      ackPairVars (ackGapRanges space.basePn space.minPnSeen none gabs) ++ ecn)
    .ok { type := type, level := level, data := data, len := toU16 data.length,
          size := toU16 data.length }

def QUIC_ECN_MAX : Nat := 3

-- The `frame_len` that `quic_frame_ack_create` allocates: the type byte, the four varints
-- before the ranges at their own widths, `quic_var_len(QUIC_PN_MAP_SIZE)` bytes for each Gap
-- and each ACK Range Length, and a u64 for each ECN count.
def quicFrameAckFrameLen (space : QuicPnspace) (now ackDelayExponent : Nat) : Nat :=
  let gabs := quicPnspaceNumGabs space
  let largest := toU64 space.maxPnSeen
  let smallest : Nat :=
    match gabs.getLast? with
    | none => toU64 space.minPnSeen
    | some g => toU64 (space.basePn + g.stop)
  let range := toU64 ((largest : Int) - smallest)
  let delay := toU64 ((now : Int) - space.maxPnTime) >>> ackDelayExponent
  1 + quicVarLen largest + quicVarLen delay + quicVarLen gabs.length + quicVarLen range +
    quicVarLen QUIC_PN_MAP_SIZE * 2 * gabs.length + 8 * QUIC_ECN_MAX

-- What `quic_frame_ack_process` hands on: the (largest, smallest) ranges it passes to
-- `quic_outq_transmitted_sack` in order, the shifted ACK delay, the ECN counts of an ACK_ECN
-- frame, and its return value, the number of bytes it read.
structure AckInfo where
  ranges : List (Nat × Nat)
  delay : Nat
  ecnCount : Option (Nat × Nat × Nat)
  consumed : Nat

-- The ACK Range loop from `smallest`: the ranges it acknowledges, the last `smallest`, and the
-- bytes after it, or `none` where it returns -EINVAL.
def ackRangeLoop : Nat → Nat → List UInt8 → Option (List (Nat × Nat) × Nat × List UInt8)
  | 0, smallest, p => some ([], smallest, p)
  | count + 1, smallest, p =>
    match quicGetVar p with
    | none => none
    | some (gap, p) =>
      if gap + 2 > smallest then none
      else
        match quicGetVar p with
        | none => none
        | some (range, p) =>
          if range > smallest - gap - 2 then none
          else
            let largest := smallest - gap - 2
            let smallest := largest - range
            (ackRangeLoop count smallest p).map fun (ranges, s, p) =>
              ((largest, smallest) :: ranges, s, p)

-- The ECN Counts section: ECT0, ECT1 and ECN-CE.
def ackEcnCounts (p : List UInt8) : Option ((Nat × Nat × Nat) × List UInt8) :=
  match quicGetVar p with
  | none => none
  | some (ect0, p) =>
    match quicGetVar p with
    | none => none
    | some (ect1, p) =>
      match quicGetVar p with
      | none => none
      | some (ce, p) => some ((ect0, ect1, ce), p)

-- `quic_frame_ack_process` on the frame bytes after the type, for a space whose `next_pn` is
-- `nextPn`; an error carries the value `frame->errcode` is left with.
def quicFrameAckProcess (nextPn : Int) (ackDelayExponent type : Nat) (data : List UInt8) :
    Except (Int × Nat) AckInfo :=
  match quicGetVar data with
  | none => .error (-EINVAL, 0)
  | some (largest, p) =>
    match quicGetVar p with
    | none => .error (-EINVAL, 0)
    | some (delay, p) =>
      match quicGetVar p with
      | none => .error (-EINVAL, 0)
      | some (count, p) =>
        if count > QUIC_PN_MAP_MAX_GABS then .error (-EINVAL, 0)
        else
          match quicGetVar p with
          | none => .error (-EINVAL, 0)
          | some (range, p) =>
            if range > largest then .error (-EINVAL, 0)
            else if (largest : Int) ≥ nextPn then
              .error (-EINVAL, QUIC_TRANSPORT_ERROR_PROTOCOL_VIOLATION)
            else
              let smallest := largest - range
              let delay := (delay <<< ackDelayExponent) % 2 ^ 64
              match ackRangeLoop count smallest p with
              | none => .error (-EINVAL, 0)
              | some (ranges, _, p) =>
                let ranges := (largest, smallest) :: ranges
                if type = QUIC_FRAME_ACK_ECN then
                  match ackEcnCounts p with
                  | none => .error (-EINVAL, 0)
                  | some (ecn, p) => .ok ⟨ranges, delay, some ecn, data.length - p.length⟩
                else .ok ⟨ranges, delay, none, data.length - p.length⟩

-- Every range the ACK Range loop accepts is well formed and lies at least one packet number
-- below the range before it: the ranges of any ACK frame it reads are disjoint and descending.
theorem ackRangeLoop_desc {count smallest : Nat} {p : List UInt8} {ranges : List (Nat × Nat)}
    {last : Nat} {p' : List UInt8} (h : ackRangeLoop count smallest p = some (ranges, last, p')) :
    (∀ r ∈ ranges, r.2 ≤ r.1 ∧ r.1 + 2 ≤ smallest) ∧
      ranges.Pairwise (fun r r' => r'.1 + 2 ≤ r.2) := by
  induction count generalizing smallest p ranges with
  | zero =>
    simp only [ackRangeLoop, Option.some.injEq, Prod.mk.injEq] at h
    rw [← h.1]
    exact ⟨fun r hr => absurd hr List.not_mem_nil, List.Pairwise.nil⟩
  | succ count ih =>
    rw [ackRangeLoop] at h
    split at h
    · exact absurd h (by simp)
    rename_i gap q hgap
    split at h
    · exact absurd h (by simp)
    split at h
    · exact absurd h (by simp)
    rename_i range q' hrange
    split at h
    · exact absurd h (by simp)
    rename_i hle1 hle2
    obtain ⟨⟨rs, s, q''⟩, hloop, heq⟩ := Option.map_eq_some_iff.mp h
    simp only [Prod.mk.injEq] at heq
    obtain ⟨rfl, rfl, rfl⟩ := heq
    obtain ⟨hbound, hpair⟩ := ih hloop
    refine ⟨fun r hr => ?_, List.Pairwise.cons (fun r hr => ?_) hpair⟩
    · rcases List.mem_cons.mp hr with rfl | hr
      · exact ⟨by omega, by omega⟩
      · have := hbound r hr
        omega
    · have := hbound r hr
      omega

-- The First ACK Range followed by what the loop accepted after it.
theorem ackRanges_desc {largest range count : Nat} {p : List UInt8} {ranges : List (Nat × Nat)}
    {last : Nat} {q : List UInt8}
    (hloop : ackRangeLoop count (largest - range) p = some (ranges, last, q)) :
    (∀ r ∈ (largest, largest - range) :: ranges, r.2 ≤ r.1) ∧
      ((largest, largest - range) :: ranges).Pairwise (fun r r' => r'.1 + 2 ≤ r.2) := by
  obtain ⟨hbound, hpair⟩ := ackRangeLoop_desc hloop
  refine ⟨fun r hmem => ?_, List.Pairwise.cons (fun r hmem => (hbound r hmem).2) hpair⟩
  rcases List.mem_cons.mp hmem with rfl | hmem
  · exact Nat.sub_le largest range
  · exact (hbound r hmem).1

-- Every ACK frame `quic_frame_ack_process` accepts acknowledges disjoint, descending ranges.
theorem quicFrameAckProcess_desc {nextPn : Int} {ackDelayExponent type : Nat} {data : List UInt8}
    {info : AckInfo} (h : quicFrameAckProcess nextPn ackDelayExponent type data = .ok info) :
    (∀ r ∈ info.ranges, r.2 ≤ r.1) ∧ info.ranges.Pairwise (fun r r' => r'.1 + 2 ≤ r.2) := by
  unfold quicFrameAckProcess at h
  repeat' split at h
  all_goals first | cases h | dsimp only at h
  all_goals repeat' split at h
  all_goals cases h
  -- the two accepting branches, with and without ECN counts
  all_goals exact ackRanges_desc ‹ackRangeLoop _ _ _ = some _›

-- The ACK Range loop with its reading factored out: the ranges it acknowledges from the
-- (Gap, ACK Range Length) pairs, and the last `smallest`.
def ackRangeSteps : Nat → List (Nat × Nat) → Option (List (Nat × Nat) × Nat)
  | smallest, [] => some ([], smallest)
  | smallest, (gap, range) :: ps =>
    if gap + 2 > smallest then none
    else if range > smallest - gap - 2 then none
    else
      (ackRangeSteps (smallest - gap - 2 - range) ps).map fun (ranges, s) =>
        ((smallest - gap - 2, smallest - gap - 2 - range) :: ranges, s)

@[simp] theorem ackPairVars_nil : ackPairVars [] = [] := rfl

@[simp] theorem ackPairVars_cons (gap range : Nat) (ps : List (Nat × Nat)) :
    ackPairVars ((gap, range) :: ps) = gap :: range :: ackPairVars ps := rfl

-- Reading back written pairs whose values fit in 62 bits is the pure loop.
theorem ackRangeLoop_pairs (ps : List (Nat × Nat)) (hps : ∀ q ∈ ps, q.1 < 2 ^ 62 ∧ q.2 < 2 ^ 62)
    (smallest : Nat) (rest : List UInt8) :
    ackRangeLoop ps.length smallest (quicPutVars (ackPairVars ps) ++ rest) =
      (ackRangeSteps smallest ps).map fun (ranges, s) => (ranges, s, rest) := by
  induction ps generalizing smallest with
  | nil => rfl
  | cons q ps ih =>
    obtain ⟨gap, range⟩ := q
    have hgap : gap < 2 ^ 62 := (hps (gap, range) List.mem_cons_self).1
    have hrange : range < 2 ^ 62 := (hps (gap, range) List.mem_cons_self).2
    have hrest := ih (fun q hq => hps q (List.mem_cons_of_mem _ hq))
    rw [List.length_cons, ackRangeLoop, ackPairVars_cons, quicGetVar_quicPutVars,
      Nat.mod_eq_of_lt hgap, ackRangeSteps]
    dsimp only
    by_cases h1 : gap + 2 > smallest
    · simp only [if_pos h1, Option.map_none]
    rw [if_neg h1, if_neg h1, quicGetVar_quicPutVars, Nat.mod_eq_of_lt hrange]
    dsimp only
    by_cases h2 : range > smallest - gap - 2
    · simp only [if_pos h2, Option.map_none]
    simp only [if_neg h2, hrest, Option.map_map]
    rfl

-- The pure loop over two runs of pairs is the loop over the first run continued by the
-- loop over the second from where the first stopped.
theorem ackRangeSteps_append (A B : List (Nat × Nat)) (smallest : Nat) :
    ackRangeSteps smallest (A ++ B) =
      (ackRangeSteps smallest A).bind fun (r₁, s₁) =>
        (ackRangeSteps s₁ B).map fun (r₂, s₂) => (r₁ ++ r₂, s₂) := by
  induction A generalizing smallest with
  | nil => simp [ackRangeSteps]
  | cons q A ih =>
    obtain ⟨gap, range⟩ := q
    rw [List.cons_append, ackRangeSteps, ackRangeSteps]
    by_cases h1 : gap + 2 > smallest
    · simp only [if_pos h1, Option.bind_none]
    by_cases h2 : range > smallest - gap - 2
    · simp only [if_neg h1, if_pos h2, Option.bind_none]
    simp only [if_neg h1, if_neg h2, ih]
    cases ackRangeSteps (smallest - gap - 2 - range) A with
    | none => rfl
    | some r => cases hB : ackRangeSteps r.2 B <;> simp [hB]

theorem ackEcnCounts_quicPutVars (a b c : Nat) (rest : List UInt8) :
    ackEcnCounts (quicPutVars [a, b, c] ++ rest) = some ((a % 2 ^ 62, b % 2 ^ 62, c % 2 ^ 62), rest) := by
  simp only [ackEcnCounts, quicGetVar_quicPutVars, quicPutVars_nil, List.nil_append]

-- `quic_frame_ack_process` reads back the fields of an ACK frame written in order: whatever
-- the ACK Delay, the ranges are the First ACK Range followed by the loop's, and every byte
-- written is read.
theorem quicFrameAckProcess_encode {nextPn : Int} {ackDelayExponent type L D n R : Nat}
    {pairs : List (Nat × Nat)} {ecn : List Nat} {ranges : List (Nat × Nat)} {last : Nat}
    (hL : L < 2 ^ 62) (hn : n ≤ QUIC_PN_MAP_MAX_GABS) (hR : R ≤ L) (hnext : (L : Int) < nextPn)
    (hpairs : pairs.length = n) (hvals : ∀ q ∈ pairs, q.1 < 2 ^ 62 ∧ q.2 < 2 ^ 62)
    (hsteps : ackRangeSteps (L - R) pairs = some (ranges, last))
    (hecn : (type = QUIC_FRAME_ACK_ECN → ∃ a b c, ecn = [a, b, c]) ∧
      (type ≠ QUIC_FRAME_ACK_ECN → ecn = [])) (rest : List UInt8) :
    ∃ info, quicFrameAckProcess nextPn ackDelayExponent type
        (quicPutVars ([L, D, n, R] ++ ackPairVars pairs ++ ecn) ++ rest) = .ok info ∧
      info.ranges = (L, L - R) :: ranges ∧
      info.consumed = (quicPutVars ([L, D, n, R] ++ ackPairVars pairs ++ ecn)).length := by
  have hn62 : n < 2 ^ 62 := by unfold QUIC_PN_MAP_MAX_GABS at hn; omega
  have hloop := ackRangeLoop_pairs pairs hvals (L - R) (quicPutVars ecn ++ rest)
  rw [hsteps, hpairs, Option.map_some] at hloop
  simp only [List.cons_append, List.nil_append, quicPutVars_cons, quicPutVars_append,
    List.append_assoc] at hloop ⊢
  have h8 : ∀ x, x < 2 ^ 62 → x ≤ QUIC_VARINT_8BYTE_MAX := fun x hx => by
    unfold QUIC_VARINT_8BYTE_MAX
    omega
  -- the four leading fields, then the checks on them
  unfold quicFrameAckProcess
  rw [quicGetVar_quicPutVar_of_le (h8 L hL)]
  dsimp only
  rw [quicGetVar_quicPutVar]
  dsimp only
  rw [quicGetVar_quicPutVar_of_le (h8 n hn62)]
  dsimp only
  rw [if_neg (by omega), quicGetVar_quicPutVar_of_le (h8 R (by omega))]
  dsimp only
  rw [if_neg (by omega), if_neg (by omega), hloop]
  dsimp only
  by_cases hty : type = QUIC_FRAME_ACK_ECN
  · obtain ⟨a, b, c, rfl⟩ := hecn.1 hty
    rw [if_pos hty, ackEcnCounts_quicPutVars]
    exact ⟨_, rfl, rfl, by simp only [List.length_append]; omega⟩
  · rw [hecn.2 hty, if_neg hty]
    exact ⟨_, rfl, rfl, by simp only [quicPutVars_nil, List.length_append, List.length_nil]; omega⟩

section Expected

variable (base minPn : Int)

-- The smallest packet number of the range below a block: just above the block below it, or
-- `min_pn_seen` under the bottom block.
def lowOf : Option QuicGapAckBlock → Int
  | none => minPn
  | some g => base + g.stop

-- Where reading the pairs of `gabs` starts: just above the top block.
def topOf (below : Option QuicGapAckBlock) : List QuicGapAckBlock → Int
  | [] => lowOf base minPn below
  | g :: gs => topOf (some g) gs

-- The ranges below each block, from the top block down.
def ackExpected : Option QuicGapAckBlock → List QuicGapAckBlock → List (Nat × Nat)
  | _, [] => []
  | below, g :: gs =>
    ackExpected (some g) gs ++ [((base + g.start - 2).toNat, (lowOf base minPn below).toNat)]

-- Blocks whose pairs `quic_frame_ack_process` reads back without a failed check.
def AckBlocksValid : Option QuicGapAckBlock → List QuicGapAckBlock → Prop
  | _, [] => True
  | below, g :: gs =>
    0 ≤ lowOf base minPn below ∧ lowOf base minPn below + 2 ≤ base + g.start ∧ g.start ≤ g.stop ∧
      base + g.stop < 2 ^ 62 ∧ AckBlocksValid (some g) gs

@[simp] theorem lowOf_none : lowOf base minPn none = minPn := rfl

@[simp] theorem lowOf_some (g : QuicGapAckBlock) : lowOf base minPn (some g) = base + g.stop := rfl

-- Reading starts just above the last block, or at `min_pn_seen` without blocks: the
-- `smallest` of the First ACK Range that `quic_frame_ack_create` computes.
theorem topOf_eq (below : Option QuicGapAckBlock) (gs : List QuicGapAckBlock) :
    topOf base minPn below gs =
      match gs.getLast? with
      | none => lowOf base minPn below
      | some g => base + g.stop := by
  induction gs generalizing below with
  | nil => rfl
  | cons g gs ih =>
    rw [topOf, ih]
    cases gs with
    | nil => rfl
    | cons g' gs' =>
      cases hlast : (g' :: gs').getLast? with
      | none => simp at hlast
      | some x => simp [hlast]

end Expected

-- The `smallest` that `quic_frame_ack_create` computes is `topOf` as a u64.
theorem quicFrameAckCreate_smallest (space : QuicPnspace) (gabs : List QuicGapAckBlock) :
    (match gabs.getLast? with
      | none => toU64 space.minPnSeen
      | some g => toU64 (space.basePn + g.stop)) =
      toU64 (topOf space.basePn space.minPnSeen none gabs) := by
  rw [topOf_eq]
  cases gabs.getLast? <;> rfl

-- Under a valid block the C arithmetic of both kinds of pair is the distance down to `lowOf`.
theorem ackGapRanges_cons {base minPn : Int} {below : Option QuicGapAckBlock} {g : QuicGapAckBlock}
    (gs : List QuicGapAckBlock) (hlow : 0 ≤ lowOf base minPn below)
    (hstart : lowOf base minPn below + 2 ≤ base + g.start) (hstop : g.start ≤ g.stop)
    (htop : base + g.stop < 2 ^ 64) :
    ackGapRanges base minPn below (g :: gs) = ackGapRanges base minPn (some g) gs ++
      [(g.stop - g.start, (base + g.start - 2 - lowOf base minPn below).toNat)] := by
  have hgap : toU64 ((g.stop : Int) - g.start) = g.stop - g.start := by
    rw [toU64_of_nonneg (by omega) (by omega)]
    omega
  cases below with
  | none =>
    simp only [lowOf] at hlow hstart ⊢
    have hlargest : toU64 ((g.start : Int) - 1 + base - 1) = (base + g.start - 2).toNat := by
      rw [toU64_of_nonneg (by omega) (by omega)]
      omega
    rw [ackGapRanges, hgap, hlargest]
    dsimp only
    rw [toU64_of_nonneg (by omega) (by omega)]
    congr 3
    omega
  | some prev =>
    simp only [lowOf] at hlow hstart ⊢
    rw [ackGapRanges, hgap, toU64_of_nonneg (by omega) (by omega)]
    congr 3
    omega

theorem ackGapRanges_length (base minPn : Int) (below : Option QuicGapAckBlock)
    (gs : List QuicGapAckBlock) : (ackGapRanges base minPn below gs).length = gs.length := by
  induction gs generalizing below with
  | nil => rfl
  | cons g gs ih =>
    cases below <;> simp [ackGapRanges, ih]

-- Every value written for valid blocks fits the 62 bits of a varint.
theorem ackGapRanges_lt {base minPn : Int} {below : Option QuicGapAckBlock}
    {gabs : List QuicGapAckBlock} (hv : AckBlocksValid base minPn below gabs) :
    ∀ q ∈ ackGapRanges base minPn below gabs, q.1 < 2 ^ 62 ∧ q.2 < 2 ^ 62 := by
  induction gabs generalizing below with
  | nil => simp [ackGapRanges]
  | cons g gs ih =>
    obtain ⟨hlow, hstart, hstop, htop, hrest⟩ := hv
    rw [ackGapRanges_cons gs hlow hstart hstop (htop.trans (by norm_num))]
    intro q hq
    rcases List.mem_append.mp hq with hq | hq
    · exact ih hrest q hq
    · rw [List.mem_singleton] at hq
      subst hq
      constructor <;> dsimp only <;> omega

-- Reading back the pairs of valid blocks acknowledges exactly the ranges between them.
theorem ackRangeSteps_gapRanges {base minPn : Int} {below : Option QuicGapAckBlock}
    {gabs : List QuicGapAckBlock} (hv : AckBlocksValid base minPn below gabs) :
    ackRangeSteps (topOf base minPn below gabs).toNat (ackGapRanges base minPn below gabs) =
      some (ackExpected base minPn below gabs, (lowOf base minPn below).toNat) := by
  induction gabs generalizing below with
  | nil => rfl
  | cons g gs ih =>
    obtain ⟨hlow, hstart, hstop, htop, hrest⟩ := hv
    rw [ackGapRanges_cons gs hlow hstart hstop (htop.trans (by norm_num)), ackRangeSteps_append,
      topOf, ih hrest]
    simp only [Option.bind_some, ackExpected, lowOf_some]
    -- the pair of `g` read from just above `g`
    have hlargest : (base + g.stop).toNat - (g.stop - g.start) - 2 = (base + g.start - 2).toNat := by
      omega
    have hsmallest : (base + g.start - 2).toNat - (base + g.start - 2 - lowOf base minPn below).toNat =
        (lowOf base minPn below).toNat := by
      omega
    rw [ackRangeSteps, if_neg (by omega), if_neg (by omega)]
    simp only [ackRangeSteps, Option.map_some, hlargest, hsmallest]

-- The set of packet numbers a list of (largest, smallest) ranges acknowledges.
def AckedBy (ranges : List (Nat × Nat)) (p : Int) : Prop :=
  ∃ r ∈ ranges, (r.2 : Int) ≤ p ∧ p ≤ r.1

@[simp] theorem ackedBy_nil (p : Int) : AckedBy [] p ↔ False := by
  simp [AckedBy]

@[simp] theorem ackedBy_cons (r : Nat × Nat) (rs : List (Nat × Nat)) (p : Int) :
    AckedBy (r :: rs) p ↔ ((r.2 : Int) ≤ p ∧ p ≤ r.1) ∨ AckedBy rs p := by
  simp [AckedBy]

@[simp] theorem ackedBy_append (rs rs' : List (Nat × Nat)) (p : Int) :
    AckedBy (rs ++ rs') p ↔ AckedBy rs p ∨ AckedBy rs' p := by
  simp only [AckedBy, List.mem_append]
  constructor
  · rintro ⟨r, hr | hr, hp⟩
    · exact Or.inl ⟨r, hr, hp⟩
    · exact Or.inr ⟨r, hr, hp⟩
  · rintro (⟨r, hr, hp⟩ | ⟨r, hr, hp⟩)
    · exact ⟨r, Or.inl hr, hp⟩
    · exact ⟨r, Or.inr hr, hp⟩

-- The pure loop stops at or below where it started, and every range it produces lies at or
-- above where it stops.
theorem ackRangeSteps_above {smallest last : Nat} {ps ranges : List (Nat × Nat)}
    (h : ackRangeSteps smallest ps = some (ranges, last)) :
    last ≤ smallest ∧ ∀ r ∈ ranges, last ≤ r.2 := by
  induction ps generalizing smallest ranges with
  | nil =>
    simp only [ackRangeSteps, Option.some.injEq, Prod.mk.injEq] at h
    rw [← h.1, ← h.2]
    exact ⟨Nat.le_refl _, fun r hr => absurd hr List.not_mem_nil⟩
  | cons q ps ih =>
    obtain ⟨gap, range⟩ := q
    rw [ackRangeSteps] at h
    split_ifs at h
    obtain ⟨⟨rs, s⟩, hsteps, heq⟩ := Option.map_eq_some_iff.mp h
    simp only [Prod.mk.injEq] at heq
    obtain ⟨rfl, rfl⟩ := heq
    obtain ⟨hlast, hrest⟩ := ih hsteps
    refine ⟨by omega, fun r hr => ?_⟩
    rcases List.mem_cons.mp hr with rfl | hr
    · exact hlast
    · exact hrest r hr

section Chain

variable {M : Set Int} {base minPn : Int} {top : Nat}

-- Reading starts between the bottom and the top of the chain.
theorem gapChain_topOf {lo : Nat} {gs : List QuicGapAckBlock}
    (hc : GapChain (fun j : Nat => base + j ∈ M) top lo gs) (hlo : lo ≤ top)
    {prev : QuicGapAckBlock} (hprev : prev.stop = lo) :
    base + lo ≤ topOf base minPn (some prev) gs ∧ topOf base minPn (some prev) gs ≤ base + top := by
  induction gs generalizing lo prev with
  | nil =>
    simp only [topOf, lowOf_some]
    omega
  | cons g gs ih =>
    obtain ⟨h1, h2, h3, -, hc'⟩ := hc
    have := ih hc' h3 rfl
    simp only [topOf] at this ⊢
    omega

-- The blocks after the first, chained from `prev`, are valid for reading back.
theorem gapChain_valid {lo : Nat} {gs : List QuicGapAckBlock}
    (hc : GapChain (fun j : Nat => base + j ∈ M) top lo gs) (hbase : 0 ≤ base)
    (htop : base + top < 2 ^ 62) {prev : QuicGapAckBlock} (hprev : prev.stop = lo) :
    AckBlocksValid base minPn (some prev) gs := by
  induction gs generalizing lo prev with
  | nil => trivial
  | cons g gs ih =>
    obtain ⟨h1, h2, h3, -, hc'⟩ := hc
    refine ⟨?_, ?_, h2, by omega, ih hc' rfl⟩ <;> simp only [lowOf_some] <;> omega

-- What the ranges between chained blocks acknowledge was recorded, and so was the run
-- from the top block to the top of the chain.
theorem gapChain_acked_mem {lo : Nat} {gs : List QuicGapAckBlock}
    (hc : GapChain (fun j : Nat => base + j ∈ M) top lo gs) (hbase : 0 ≤ base)
    {prev : QuicGapAckBlock} (hprev : prev.stop = lo) :
    (∀ p, AckedBy (ackExpected base minPn (some prev) gs) p → p ∈ M) ∧
      (∀ p, topOf base minPn (some prev) gs ≤ p → p ≤ base + top → p ∈ M) := by
  induction gs generalizing lo prev with
  | nil =>
    refine ⟨fun p hp => by simp [ackExpected] at hp, fun p hp1 hp2 => ?_⟩
    simp only [topOf, lowOf_some] at hp1
    have hj : base + ((p - base).toNat : Int) ∈ M := hc (p - base).toNat (by omega) (by omega)
    rwa [show base + ((p - base).toNat : Int) = p by omega] at hj
  | cons g gs ih =>
    obtain ⟨hlt, -, -, hrun, hc'⟩ := hc
    obtain ⟨ihA, ihT⟩ := ih hc' rfl
    refine ⟨fun p hp => ?_, fun p hp1 hp2 => ihT p hp1 hp2⟩
    simp only [ackExpected, ackedBy_append, ackedBy_cons, ackedBy_nil, or_false, lowOf_some] at hp
    rcases hp with hp | ⟨hp1, hp2⟩
    · exact ihA p hp
    -- the run just below `g`
    · have hj : base + ((p - base).toNat : Int) ∈ M := hrun (p - base).toNat (by omega) (by omega)
      rwa [show base + ((p - base).toNat : Int) = p by omega] at hj

-- With exact blocks every recorded packet number from the bottom of the chain up is
-- acknowledged by a range between blocks or lies in the run above the top block.
theorem gapChain_acked_complete {lo : Nat} {gs : List QuicGapAckBlock}
    (hc : GapChain (fun j : Nat => base + j ∈ M) top lo gs)
    (hx : GapsExact (fun j : Nat => base + j ∈ M) gs) (hbase : 0 ≤ base)
    {prev : QuicGapAckBlock} (hprev : prev.stop = lo) :
    ∀ p, base + lo ≤ p → p ∈ M →
      AckedBy (ackExpected base minPn (some prev) gs) p ∨ topOf base minPn (some prev) gs ≤ p := by
  induction gs generalizing lo prev with
  | nil =>
    intro p hp _
    right
    simp only [topOf, lowOf_some]
    omega
  | cons g gs ih =>
    obtain ⟨-, h2, -, -, hc'⟩ := hc
    intro p hp hm
    simp only [ackExpected, ackedBy_append, ackedBy_cons, ackedBy_nil, or_false, lowOf_some]
    by_cases hlow : p ≤ base + g.start - 2
    · exact Or.inl (Or.inr ⟨by omega, by omega⟩)
    by_cases hgap : p < base + g.stop
    -- inside the gap of `g` nothing was recorded
    · have hnot : base + ((p - base).toNat : Int) ∉ M :=
        hx g List.mem_cons_self (p - base).toNat (by omega) (by omega)
      rw [show base + ((p - base).toNat : Int) = p by omega] at hnot
      exact absurd hm hnot
    rcases ih hc' (fun g' hg' => hx g' (List.mem_cons_of_mem _ hg')) rfl p (by omega) hm with hp' | hp'
    · exact Or.inl (Or.inl hp')
    · exact Or.inr hp'

end Chain

end Quic
