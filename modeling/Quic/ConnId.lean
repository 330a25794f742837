import Quic.Common.Basic

namespace Quic

-- A connection ID set (`struct quic_conn_id_set`): the sequence numbers of its entries in list
-- order, the active entry by its number (`none` for NULL or the list head), `max_count`, and
-- the u8 `count`.
structure QuicConnIdSet where
  numbers : List Nat
  active : Option Nat
  maxCount : Nat
  count : Nat
  deriving DecidableEq, Repr

-- `quic_conn_id_set_init` with the `max_count` of `quic_conn_id_set_param`.
def quicConnIdSetInit (maxCount : Nat) : QuicConnIdSet :=
  { numbers := [], active := none, maxCount := maxCount, count := 0 }

-- `quic_conn_id_first_number`: the set is not empty where it is called.
def quicConnIdFirstNumber (s : QuicConnIdSet) : Nat := s.numbers.headD 0

-- `quic_conn_id_last_number`, in u32 arithmetic.
def quicConnIdLastNumber (s : QuicConnIdSet) : Nat :=
  toU32 ((quicConnIdFirstNumber s : Int) + s.count - 1)

-- The walk of `quic_conn_id_add`: `none` if the number is on the list already, otherwise the
-- list with it inserted before the first larger number.
def quicConnIdInsert (number : Nat) : List Nat → Option (List Nat)
  | [] => some [number]
  | n :: rest =>
    if number = n then none
    else if number < n then some (number :: n :: rest)
    else (quicConnIdInsert number rest).map (n :: ·)

-- How many entries continue the run number + 1, number + 2, ... (the u32 `++number`).
def consecutiveFrom (number : Nat) : List Nat → Nat
  | [] => 0
  | n :: rest => if n = toU32 (number + 1) then consecutiveFrom n rest + 1 else 0

-- `quic_conn_id_add`: insert the number; if it extends the run from the first entry, it
-- becomes active when none is, and `count` grows over it and the entries that follow it.
def quicConnIdAdd (s : QuicConnIdSet) (number : Nat) : QuicConnIdSet :=
  match quicConnIdInsert number s.numbers with
  | none => s
  | some numbers =>
    let s' := { s with numbers := numbers }
    if number = toU32 (quicConnIdLastNumber s' + 1) then
      let after := (numbers.dropWhile (· ≠ number)).drop 1
      { s' with active := if s.active = none then some number else s.active,
                count := toU8 (s.count + 1 + consecutiveFrom number after) }
    else s'

-- The loop of `quic_conn_id_remove`: drop the entries up to `number`, moving `active` to the
-- next entry (the list head past the last one) and decrementing the u8 `count` for each.
def quicConnIdRemoveLoop (number : Nat) :
    List Nat → Option Nat → Nat → List Nat × Option Nat × Nat
  | [], active, count => ([], active, count)
  | n :: rest, active, count =>
    if n > number then (n :: rest, active, count)
    else quicConnIdRemoveLoop number rest (if active = some n then rest.head? else active)
      (toU8 ((count : Int) - 1))

def quicConnIdRemove (s : QuicConnIdSet) (number : Nat) : QuicConnIdSet :=
  let r := quicConnIdRemoveLoop number s.numbers s.active s.count
  { s with numbers := r.1, active := r.2.1, count := r.2.2 }

-- `quic_outq_transmit_retire_conn_id` on the destination set: one RETIRE_CONNECTION_ID frame
-- for each number from the first up to `prior`, each removing through its number on creation.
def quicOutqTransmitRetireConnId (dest : QuicConnIdSet) (prior : Nat) : QuicConnIdSet :=
  let first := quicConnIdFirstNumber dest
  (List.range' first (prior - first)).foldl quicConnIdRemove dest

-- `quic_outq_transmit_new_conn_id` on the source set: issue `last + 1` until the number
-- reaches `max_count + prior`.
def quicOutqTransmitNewConnId (source : QuicConnIdSet) (prior : Nat) : QuicConnIdSet :=
  let max := source.maxCount + prior
  (List.range (max - (quicConnIdLastNumber source + 1))).foldl
    (fun s _ => quicConnIdAdd s (toU32 (quicConnIdLastNumber s + 1))) source

-- `quic_frame_new_conn_id_process` on the destination set, for a frame with the given
-- Sequence Number and Retire Prior To.
def quicFrameNewConnIdProcess (dest : QuicConnIdSet) (seqno prior : Nat) :
    Except (Int × Nat) QuicConnIdSet :=
  if seqno > U32_MAX then .error (-EINVAL, 0)
  else if prior > seqno then .error (-EINVAL, QUIC_TRANSPORT_ERROR_FRAME_ENCODING)
  else
    let first := quicConnIdFirstNumber dest
    -- an old number: nothing to add, and `prior <= seqno < first` retires nothing
    if seqno < first then .ok dest
    else
      let prior := if prior < first then first else prior
      if seqno - prior + 1 > dest.maxCount then
        .error (-EINVAL, QUIC_TRANSPORT_ERROR_CONNECTION_ID_LIMIT)
      else
        let dest := quicConnIdAdd dest seqno
        .ok (if prior > first then quicOutqTransmitRetireConnId dest prior else dest)

-- `quic_frame_retire_conn_id_process` on the source set.
def quicFrameRetireConnIdProcess (source : QuicConnIdSet) (seqno : Nat) :
    Except (Int × Nat) QuicConnIdSet :=
  if seqno + 1 + source.maxCount > U32_MAX then .error (-EINVAL, 0)
  else
    let first := quicConnIdFirstNumber source
    let last := quicConnIdLastNumber source
    if seqno ≥ first ∧ seqno ≥ last then .error (-EINVAL, QUIC_TRANSPORT_ERROR_PROTOCOL_VIOLATION)
    else
      let source := if seqno ≥ first then quicConnIdRemove source seqno else source
      .ok (quicOutqTransmitNewConnId source (quicConnIdFirstNumber source))

-- The representation invariant of a set: numbers strictly increasing, `count` at least one and
-- the length of the run of consecutive numbers from the first entry, the active entry on the
-- list, and at most `max_count` entries.
def consecutiveRun : List Nat → Nat
  | [] => 0
  | n :: rest => consecutiveFrom n rest + 1

def ConnIdSetInv (s : QuicConnIdSet) : Prop :=
  s.numbers.Pairwise (· < ·) ∧ 1 ≤ s.count ∧ s.count = consecutiveRun s.numbers ∧
    (∃ n ∈ s.numbers, s.active = some n) ∧ s.numbers.length ≤ s.maxCount

instance (s : QuicConnIdSet) : Decidable (ConnIdSetInv s) := by
  unfold ConnIdSetInv
  infer_instance

-- The destination set after the handshake holds the peer's first connection ID, number 0.
-- A NEW_CONNECTION_ID frame with Sequence Number 5 and Retire Prior To 5, arriving ahead of
-- numbers 1 to 4, is accepted: number 5 does not extend the run, so `count` stays 1, and
-- retiring 0 to 4 removes entry 0 and decrements `count` to 0. The set is left with one entry
-- and a count of 0, so `quic_conn_id_last_number` is 4, below the first number.
theorem quicFrameNewConnId_count_zero :
    let dest : QuicConnIdSet := quicConnIdAdd (quicConnIdSetInit 8) 0
    ConnIdSetInv dest ∧ quicFrameNewConnIdProcess dest 5 5 = .ok ⟨[5], some 5, 8, 0⟩ ∧
      ¬ ConnIdSetInv ⟨[5], some 5, 8, 0⟩ ∧ quicConnIdLastNumber ⟨[5], some 5, 8, 0⟩ = 4 := by
  decide

end Quic
