import Quic.Lib.Bitmap
import Quic.Common.Basic

namespace Quic

def QUIC_PN_MAP_MAX_GABS : Nat := 32
def QUIC_PN_MAP_INITIAL : Nat := 64
def QUIC_PN_MAP_INCREMENT : Nat := QUIC_PN_MAP_INITIAL
def QUIC_PN_MAP_SIZE : Nat := 4096
def QUIC_PN_MAP_LIMIT : Nat := QUIC_PN_MAP_SIZE * 3 / 4
def QUIC_PNSPACE_NEXT_PN : Int := 0
def QUIC_PNSPACE_TIME_LIMIT : Nat := 333000 * 3

-- ECN codepoints and directions indexing `ecn_count`.
def QUIC_ECN_ECT1 : Fin 3 := 0
def QUIC_ECN_ECT0 : Fin 3 := 1
def QUIC_ECN_CE : Fin 3 := 2
def QUIC_ECN_LOCAL : Fin 2 := 0
def QUIC_ECN_PEER : Fin 2 := 1

-- `struct quic_pnspace`. The bit map `pn_map` of `pn_map_len` bits is a predicate on bit
-- positions; a NULL map is the zero length the socket starts with and `quic_pnspace_free`
-- leaves. Times are u64 microseconds, packet numbers s64.
structure QuicPnspace where
  ecnCount : Fin 2 → Fin 3 → Nat
  pnMap : Nat → Bool
  pnMapLen : Nat
  needSack : Bool
  lastMaxPnSeen : Int
  lastMaxPnTime : Nat
  minPnSeen : Int
  maxPnSeen : Int
  maxPnTime : Nat
  basePn : Int
  time : Nat
  maxPnAckedSeen : Int
  maxPnAckedTime : Nat
  lossTime : Nat
  nextPn : Int
  maxTimeLimit : Nat
  inflight : Nat

-- The space as the zero-filled socket allocation holds it before `quic_pnspace_init`.
def QuicPnspace.zeroed : QuicPnspace where
  ecnCount := fun _ _ => 0
  pnMap := Bitmap.zero
  pnMapLen := 0
  needSack := false
  lastMaxPnSeen := 0
  lastMaxPnTime := 0
  minPnSeen := 0
  maxPnSeen := 0
  maxPnTime := 0
  basePn := 0
  time := 0
  maxPnAckedSeen := 0
  maxPnAckedTime := 0
  lossTime := 0
  nextPn := 0
  maxTimeLimit := 0
  inflight := 0

def quicPnspaceSetBasePn (space : QuicPnspace) (pn : Int) : QuicPnspace :=
  { space with
    basePn := pn
    maxPnSeen := pn - 1
    lastMaxPnSeen := pn - 1
    minPnSeen := pn - 1
    maxPnTime := space.time
    lastMaxPnTime := space.time }

def quicPnspaceHasGap (space : QuicPnspace) : Bool :=
  space.basePn != space.maxPnSeen + 1

-- `quic_pnspace_inc_ecn_count` with the ECN bits 0..3 of the received IP header.
def quicPnspaceIncEcnCount (space : QuicPnspace) (ecn : Fin 4) : QuicPnspace :=
  if ecn = 0 then space
  else
    { space with
      ecnCount := fun dir cp =>
        if dir = QUIC_ECN_LOCAL ∧ cp.val + 1 = ecn.val then (space.ecnCount dir cp + 1) % 2 ^ 64
        else space.ecnCount dir cp }

def quicPnspaceHasEcnCount (space : QuicPnspace) : Bool :=
  space.ecnCount QUIC_ECN_LOCAL QUIC_ECN_ECT0 != 0 || space.ecnCount QUIC_ECN_LOCAL QUIC_ECN_ECT1 != 0 ||
    space.ecnCount QUIC_ECN_LOCAL QUIC_ECN_CE != 0

-- `quic_pnspace_init`: the first call allocates a zeroed map of QUIC_PN_MAP_INITIAL bits
-- (when `alloc` succeeds), a later one clears the map it has.
def quicPnspaceInit (space : QuicPnspace) (alloc : Bool) : Int × QuicPnspace :=
  if space.pnMapLen = 0 then
    if alloc then
      (0, { space with
        pnMap := Bitmap.zero, pnMapLen := QUIC_PN_MAP_INITIAL,
        maxTimeLimit := QUIC_PNSPACE_TIME_LIMIT, nextPn := QUIC_PNSPACE_NEXT_PN, basePn := -1 })
    else (-ENOMEM, space)
  else
    (0, { space with
      pnMap := Bitmap.zero, maxTimeLimit := QUIC_PNSPACE_TIME_LIMIT,
      nextPn := QUIC_PNSPACE_NEXT_PN, basePn := -1 })

-- `quic_pnspace_grow`: a larger zeroed map (`alloc` is whether the allocation succeeds)
-- receiving the words that hold the bits up to `max_pn_seen`.
def quicPnspaceGrow (space : QuicPnspace) (size : Nat) (alloc : Bool) :
    Except Int QuicPnspace :=
  if size > QUIC_PN_MAP_SIZE then .error (-EINVAL)
  else
    let inc := toU16 (align ((size : Int) - space.pnMapLen) BITS_PER_LONG + QUIC_PN_MAP_INCREMENT)
    let len := toU16 (min (space.pnMapLen + inc) QUIC_PN_MAP_SIZE)
    if !alloc then .error (-ENOMEM)
    else
      let offset := toU16 (space.maxPnSeen + 1 - space.basePn)
      .ok { space with
        pnMap := Bitmap.copyWords BITS_PER_LONG space.pnMap offset, pnMapLen := len }

def quicPnspaceCheck (space : QuicPnspace) (pn : Int) : Int :=
  if space.basePn = -1 then 0
  else if pn < space.minPnSeen ∨ pn ≥ space.basePn + QUIC_PN_MAP_SIZE then -EINVAL
  else if pn < space.basePn ∨
      (pn - space.basePn < space.pnMapLen ∧ space.pnMap (pn - space.basePn).toNat = true) then 1
  else 0

-- `quic_pnspace_move`: advance `base_pn` to the first clear bit after `pn` and shift the
-- map down by the same amount.
def quicPnspaceMove (space : QuicPnspace) (pn : Int) : QuicPnspace :=
  let offset := toU16 (pn + 1 - space.basePn)
  let offset := toU16 (Bitmap.findNextZeroBit space.pnMap space.pnMapLen offset)
  { space with
    basePn := space.basePn + offset
    pnMap := Bitmap.shiftRight space.pnMap offset space.pnMapLen }

-- The middle of `quic_pnspace_mark`, once the map holds bit `gap`: `max_pn_seen` follows
-- the largest packet number, then `base_pn` advances over `pn` or its bit is set.
def markMaxPnSeen (space : QuicPnspace) (pn : Int) : QuicPnspace :=
  if space.maxPnSeen < pn then { space with maxPnSeen := pn, maxPnTime := space.time }
  else space

def markReceived (space : QuicPnspace) (pn : Int) (gap : Nat) : QuicPnspace :=
  let space := markMaxPnSeen space pn
  if space.basePn = pn then
    if quicPnspaceHasGap space then quicPnspaceMove space pn
    else { space with basePn := space.basePn + 1 }
  else { space with pnMap := Bitmap.setBit space.pnMap gap }

-- The end of `quic_pnspace_mark`: on a new largest packet, once enough time has passed or
-- enough packets arrived, move the window past `last_max_pn_seen`.
def markAdvance (space : QuicPnspace) (pn : Int) : QuicPnspace :=
  if space.maxPnSeen ≠ pn then space
  else
    let lastMaxPnSeen := min space.lastMaxPnSeen space.basePn
    if space.maxPnTime < (space.lastMaxPnTime + space.maxTimeLimit) % 2 ^ 64 ∧
        space.maxPnSeen ≤ lastMaxPnSeen + QUIC_PN_MAP_LIMIT then space
    else
      let space :=
        if space.lastMaxPnSeen + 1 > space.basePn then
          quicPnspaceMove space space.lastMaxPnSeen
        else space
      { space with
        minPnSeen := space.lastMaxPnSeen
        lastMaxPnSeen := space.maxPnSeen
        lastMaxPnTime := space.maxPnTime }

def quicPnspaceMark (space : QuicPnspace) (pn : Int) (alloc : Bool) : Int × QuicPnspace :=
  if space.basePn = -1 then (0, quicPnspaceSetBasePn space (pn + 1))
  else if pn < space.basePn then (0, space)
  else
    let gap := toU16 (pn - space.basePn)
    let grown :=
      if gap ≥ space.pnMapLen then quicPnspaceGrow space (gap + 1) alloc else .ok space
    match grown with
    | .error err => (err, space)
    | .ok space => (0, markAdvance (markReceived space pn gap) pn)

end Quic
