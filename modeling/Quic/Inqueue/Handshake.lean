import Quic.Common.Varint
import Quic.Lib.OrderedList
import Quic.Lib.Ranges
import Quic.Lib.Reachable

namespace Quic.Handshake

open Ranges

def QUIC_TICKET_MAX_LEN : Nat := 4096
def QUIC_EVENT_NEW_SESSION_TICKET : Nat := 9
def QUIC_EVENT_MAX : Nat := 10
def QUIC_TRANSPORT_ERROR_CRYPTO_BUF_EXCEEDED : Nat := 0x0d

-- A CRYPTO frame as `quic_frame_crypto_process` allocates it for the inqueue: its encryption
-- `level`, `offset`, u16 `len`, and the bytes `data` points at.
structure QuicCryptoFrame where
  level : Nat
  offset : Nat
  len : Nat
  data : List UInt8
  deriving DecidableEq, Repr

def QuicCryptoFrame.range (frame : QuicCryptoFrame) : Nat × Nat := (frame.offset, frame.len)

-- An entry of `recv_list`: its `level` (0 for stream data, datagrams and events), whether it is
-- an `event`, and its bytes.
structure QuicRecvEntry where
  level : Nat
  event : Bool
  data : List UInt8
  deriving DecidableEq, Repr

-- What `quic_inq_handshake_tail` passed on: the frame as it was received, and the offset, length
-- and bytes left after the prefix already received was cut off.
structure QuicCryptoSlice where
  frame : QuicCryptoFrame
  offset : Nat
  len : Nat
  data : List UInt8
  deriving DecidableEq, Repr

def QuicCryptoSlice.range (slice : QuicCryptoSlice) : Nat × Nat := (slice.offset, slice.len)

-- The receive side of the handshake: `recv_offset` of each level's `quic_crypto` (a u64 that
-- offsets below 2^62 and u16 lengths keep from wrapping), `handshake_list`, `recv_list`, the
-- subscribed `events`, the session ticket buffer and the application level's `ticket_ready`.
-- The last two fields are not the code's: the slices passed on and the frames accepted, in
-- order, kept to state what a run delivered.
structure QuicInqCrypto where
  recvOffset : Nat → Nat
  handshakeList : List QuicCryptoFrame
  recvList : List QuicRecvEntry
  events : Nat
  ticket : List UInt8
  ticketReady : Bool
  passed : List QuicCryptoSlice
  received : List QuicCryptoFrame

-- `quic_inq_event_recv`: an event subscribed to is queued ahead of the first stream or datagram
-- frame, behind the handshake data and the events already there; `alloc` is whether its frame
-- is allocated.
def quicInqEventRecv (s : QuicInqCrypto) (event : Nat) (data : List UInt8) (alloc : Bool) :
    Except Int QuicInqCrypto :=
  if event = 0 ∨ QUIC_EVENT_MAX ≤ event then .error (-EINVAL)
  else if s.events &&& (1 <<< event) = 0 then .ok s
  else if !alloc then .error (-ENOMEM)
  else
    let ahead := fun e : QuicRecvEntry => decide (e.level ≠ 0 ∨ e.event = true)
    .ok { s with recvList := s.recvList.takeWhile ahead ++
            ⟨0, true, UInt8.ofNat event :: data⟩ :: s.recvList.dropWhile ahead }

-- The NEW_SESSION_TICKET event of `quic_inq_handshake_tail`: `alloc` is whether its frame is
-- allocated. Its data pointer is `ticket`, the address of the socket's `struct quic_data`, so the
-- `ticket->len` bytes copied start at that struct, on a 64-bit little-endian machine its `data`
-- pointer `ptr` and its u32 `len`, and go on into the memory `after` it (padding, then the
-- socket's next fields).
structure QuicTicketEvent where
  alloc : Bool
  ptr : Nat
  after : List UInt8
  deriving DecidableEq, Repr

def QuicTicketEvent.read (ev : QuicTicketEvent) (len : Nat) : List UInt8 :=
  ((putBe 8 ev.ptr).reverse ++ (putBe 4 len).reverse ++ ev.after).take len

-- The level-0 branch of `quic_inq_handshake_tail`: a New Session Ticket message is collected
-- while it comes in order from offset 0 and within QUIC_TICKET_MAX_LEN, and announced once the
-- length in its TLS header is in; `alloc n` is whether `quic_data_append` gets its `n` bytes.
def quicInqTicketRecv (s : QuicInqCrypto) (len : Nat) (data : List UInt8) (alloc : Nat → Bool)
    (ev : QuicTicketEvent) : QuicInqCrypto :=
  if s.ticketReady = false ∧ s.recvOffset QUIC_CRYPTO_APP ≤ QUIC_TICKET_MAX_LEN ∧
      s.recvOffset QUIC_CRYPTO_APP = s.ticket.length + len then
    if len ≠ 0 ∧ alloc (s.ticket.length + len) = false then { s with ticket := [] }
    else
      let ticket := s.ticket ++ data.take len
      if 4 ≤ ticket.length ∧ getBe ((ticket.drop 1).take 3) + 4 ≤ ticket.length then
        let s := { s with ticket := ticket, ticketReady := true }
        match quicInqEventRecv s QUIC_EVENT_NEW_SESSION_TICKET (ev.read ticket.length) ev.alloc with
        | .ok t => t
        | .error _ => s
      else { s with ticket := ticket }
  else s

-- `quic_inq_handshake_tail`: cut off the prefix already received (a u64 overlap off a u16
-- `len`), advance the level's `recv_offset`, and hand the rest on: to `recv_list` ahead of the
-- first application frame above level 0, to the session ticket at level 0.
def quicInqHandshakeTail (s : QuicInqCrypto) (frame : QuicCryptoFrame) (alloc : Nat → Bool)
    (ev : QuicTicketEvent) : QuicInqCrypto :=
  let overlap := toU64 ((s.recvOffset frame.level : Int) - frame.offset)
  let offset := if overlap ≠ 0 then frame.offset + overlap else frame.offset
  let len := if overlap ≠ 0 then toU16 ((frame.len : Int) - overlap) else frame.len
  let data := (if overlap ≠ 0 then frame.data.drop overlap else frame.data).take len
  let s := { s with
    recvOffset := Function.update s.recvOffset frame.level (s.recvOffset frame.level + len),
    passed := s.passed ++ [⟨frame, offset, len, data⟩] }
  if frame.level ≠ QUIC_CRYPTO_APP then
    let ahead := fun e : QuicRecvEntry => decide (e.level ≠ 0)
    { s with recvList := s.recvList.takeWhile ahead ++
        ⟨frame.level, false, data⟩ :: s.recvList.dropWhile ahead }
  else quicInqTicketRecv s len data alloc ev

-- The walk of `handshake_list` for a frame beyond `recv_offset`: `none` where a frame of its level
-- starting no later already covers it, otherwise the list with the frame put before the first
-- frame of a higher level or of its level at a larger offset.
def quicInqHandshakeInsert (frame : QuicCryptoFrame) :
    List QuicCryptoFrame → Option (List QuicCryptoFrame)
  | [] => some [frame]
  | pos :: rest =>
    if pos.level < frame.level then (quicInqHandshakeInsert frame rest).map (pos :: ·)
    else if pos.level > frame.level then some (frame :: pos :: rest)
    else if pos.offset > frame.offset then some (frame :: pos :: rest)
    else if pos.offset + pos.len ≥ frame.offset + frame.len then none
    else (quicInqHandshakeInsert frame rest).map (pos :: ·)

-- The loop of `quic_inq_handshake_recv` after an in-order frame of `level`: skip the frames of
-- lower levels, stop at a higher level or a gap, drop the frames already received and hand the
-- others to the tail; the frames left come back with the state.
def quicInqHandshakeMerge (level : Nat) (alloc : Nat → Bool) (ev : QuicTicketEvent)
    (s : QuicInqCrypto) :
    List QuicCryptoFrame → QuicInqCrypto × List QuicCryptoFrame
  | [] => (s, [])
  | frame :: rest =>
    if frame.level < level then
      let r := quicInqHandshakeMerge level alloc ev s rest
      (r.1, frame :: r.2)
    else if frame.level > level then (s, frame :: rest)
    else if frame.offset > s.recvOffset level then (s, frame :: rest)
    else if s.recvOffset level ≥ frame.offset + frame.len then
      quicInqHandshakeMerge level alloc ev s rest
    else quicInqHandshakeMerge level alloc ev (quicInqHandshakeTail s frame alloc ev) rest

-- `quic_inq_handshake_recv`; `rmem` is whether the receive buffer takes `frame->len` more bytes.
-- An error carries the return value and `frame->errcode`.
def quicInqHandshakeRecv (s : QuicInqCrypto) (frame : QuicCryptoFrame) (rmem : Bool)
    (alloc : Nat → Bool) (ev : QuicTicketEvent) : Except (Int × Nat) QuicInqCrypto :=
  let offset := frame.offset
  let cryptoOffset := s.recvOffset frame.level
  if cryptoOffset ≥ offset + frame.len then .ok s
  else if !rmem then .error (-ENOBUFS, QUIC_TRANSPORT_ERROR_CRYPTO_BUF_EXCEEDED)
  else if offset > cryptoOffset then
    match quicInqHandshakeInsert frame s.handshakeList with
    | none => .ok s
    | some list => .ok { s with handshakeList := list }
  else
    let s := quicInqHandshakeTail s frame alloc ev
    let merged := quicInqHandshakeMerge frame.level alloc ev s s.handshakeList
    .ok { merged.1 with handshakeList := merged.2 }

-- The fields `quic_frame_crypto_process` reads after the type byte: the frame it allocates for
-- the inqueue and the bytes the CRYPTO frame takes, or `none` where it returns -EINVAL.
def quicFrameCryptoParse (level : Nat) (buf : List UInt8) : Option (QuicCryptoFrame × Nat) :=
  match quicGetVar buf with
  | none => none
  | some (offset, rest) =>
    match quicGetVar rest with
    | none => none
    | some (length, rest) =>
      if rest.length < length then none
      else some (⟨level, offset, toU16 length, rest.take length⟩,
        buf.length - (rest.length - length))

-- `quic_frame_crypto_process`: the bytes taken, or the error and `errcode`; `nalloc` is whether
-- the frame for the inqueue is allocated.
def quicFrameCryptoProcess (s : QuicInqCrypto) (level : Nat) (buf : List UInt8)
    (nalloc rmem : Bool) (alloc : Nat → Bool) (ev : QuicTicketEvent) :
    Except (Int × Nat) (Nat × QuicInqCrypto) :=
  match quicFrameCryptoParse level buf with
  | none => .error (-EINVAL, 0)
  | some (frame, taken) =>
    if !nalloc then .error (-ENOMEM, 0)
    else (quicInqHandshakeRecv s frame rmem alloc ev).map (fun t => (taken, t))

/-! ## Runs -/

-- What the rest of the stack does to these lists: a CRYPTO frame of a packet's payload at some
-- level, an event from elsewhere, a stream or datagram frame queued at the tail of `recv_list`
-- (`quic_inq_stream_tail`, `quic_inq_dgram_recv`), and `quic_recvmsg` taking entries off its
-- head.
inductive QuicInqCall
  | crypto (level : Nat) (buf : List UInt8) (nalloc rmem : Bool) (alloc : Nat → Bool)
      (ev : QuicTicketEvent)
  | event (kind : Nat) (data : List UInt8) (alloc : Bool)
  | data (bytes : List UInt8)
  | read (count : Nat)

-- A CRYPTO frame the inqueue accepted is recorded as received.
def QuicInqCall.apply (s : QuicInqCrypto) : QuicInqCall → QuicInqCrypto
  | .crypto level buf nalloc rmem alloc ev =>
    match quicFrameCryptoProcess s level buf nalloc rmem alloc ev,
        quicFrameCryptoParse level buf with
    | .ok (_, t), some (frame, _) => { t with received := t.received ++ [frame] }
    | _, _ => s
  | .event kind payload alloc =>
    match quicInqEventRecv s kind payload alloc with
    | .ok t => t
    | .error _ => s
  | .data bytes => { s with recvList := s.recvList ++ [⟨0, false, bytes⟩] }
  | .read count => { s with recvList := s.recvList.drop count }

-- A packet's frames come from a payload of a u16 length.
def QuicInqCall.allowed (_ : QuicInqCrypto) : QuicInqCall → Bool
  | .crypto _ buf _ _ _ _ => decide (buf.length < 2 ^ 16)
  | _ => true

def InqStep (s t : QuicInqCrypto) : Prop :=
  ∃ call : QuicInqCall, call.allowed s ∧ t = call.apply s

-- A socket's inqueue before any CRYPTO data, with the session ticket buffer empty as the
-- handshake's completion leaves it.
def quicInqCryptoInit (events : Nat) : QuicInqCrypto :=
  ⟨fun _ => 0, [], [], events, [], false, [], []⟩

def InqInit (s : QuicInqCrypto) : Prop := ∃ events, s = quicInqCryptoInit events

/-! ## What each function changes -/

-- The fields only the receive list and the ticket path write are left as they were.
structure Untouched (s t : QuicInqCrypto) : Prop where
  recvOffset : t.recvOffset = s.recvOffset
  handshakeList : t.handshakeList = s.handshakeList
  events : t.events = s.events
  passed : t.passed = s.passed
  received : t.received = s.received

theorem Untouched.refl (s : QuicInqCrypto) : Untouched s s := ⟨rfl, rfl, rfl, rfl, rfl⟩

-- The entries `quic_inq_event_recv` walks past: handshake data and events.
def eventAhead (e : QuicRecvEntry) : Bool := decide (e.level ≠ 0 ∨ e.event = true)

-- The entries `quic_inq_handshake_tail` walks past: handshake data.
def handshakeAhead (e : QuicRecvEntry) : Bool := decide (e.level ≠ 0)

-- An event queued or not, `quic_inq_event_recv` changes `recv_list` alone, by an event entry of
-- level 0 put behind the handshake data and events at its head.
theorem quicInqEventRecv_ok {s t : QuicInqCrypto} {event : Nat} {data : List UInt8}
    {alloc : Bool} (h : quicInqEventRecv s event data alloc = .ok t) :
    Untouched s t ∧ t.ticket = s.ticket ∧ t.ticketReady = s.ticketReady ∧
      (t.recvList = s.recvList ∨ ∃ e : QuicRecvEntry, e.level = 0 ∧
        t.recvList = s.recvList.takeWhile eventAhead ++ e :: s.recvList.dropWhile eventAhead) := by
  unfold quicInqEventRecv at h
  split_ifs at h with hinv hsub halloc
  · cases h
    exact ⟨.refl s, rfl, rfl, .inl rfl⟩
  · cases h
    exact ⟨⟨rfl, rfl, rfl, rfl, rfl⟩, rfl, rfl, .inr ⟨_, rfl, rfl⟩⟩

-- The ticket path changes the ticket, `ticket_ready` and, by its event, `recv_list`.
theorem quicInqTicketRecv_untouched (s : QuicInqCrypto) (len : Nat) (data : List UInt8)
    (alloc : Nat → Bool) (ev : QuicTicketEvent) :
    Untouched s (quicInqTicketRecv s len data alloc ev) := by
  unfold quicInqTicketRecv
  dsimp only
  split_ifs
  · exact ⟨rfl, rfl, rfl, rfl, rfl⟩
  · split
    · next t ht =>
      have hu := (quicInqEventRecv_ok ht).1
      exact ⟨hu.recvOffset, hu.handshakeList, hu.events, hu.passed, hu.received⟩
    · exact ⟨rfl, rfl, rfl, rfl, rfl⟩
  · exact ⟨rfl, rfl, rfl, rfl, rfl⟩
  · exact .refl s

-- The slice the tail passes on for a frame that reaches past `recvOffset`: from there to the
-- frame's end.
def QuicCryptoFrame.trim (frame : QuicCryptoFrame) (recvOffset : Nat) : QuicCryptoSlice :=
  ⟨frame, recvOffset, frame.offset + frame.len - recvOffset,
    (frame.data.drop (recvOffset - frame.offset)).take (frame.offset + frame.len - recvOffset)⟩

-- For a frame that starts at or below the level's `recv_offset` and ends beyond it, the u64
-- overlap and the u16 length do not wrap: the tail passes on the frame from `recv_offset` to its
-- end and moves `recv_offset` there.
theorem quicInqHandshakeTail_eq {s : QuicInqCrypto} {frame : QuicCryptoFrame}
    (alloc : Nat → Bool) (ev : QuicTicketEvent) (hstart : frame.offset ≤ s.recvOffset frame.level)
    (hend : s.recvOffset frame.level < frame.offset + frame.len) (hlen : frame.len < 2 ^ 16)
    (hro : s.recvOffset frame.level < 2 ^ 64) :
    quicInqHandshakeTail s frame alloc ev =
      let sl := frame.trim (s.recvOffset frame.level)
      let s' := { s with
        recvOffset := Function.update s.recvOffset frame.level (frame.offset + frame.len),
        passed := s.passed ++ [sl] }
      if frame.level ≠ QUIC_CRYPTO_APP then
        { s' with recvList := s.recvList.takeWhile handshakeAhead ++
            ⟨frame.level, false, sl.data⟩ :: s.recvList.dropWhile handshakeAhead }
      else quicInqTicketRecv s' sl.len sl.data alloc ev := by
  have hov : toU64 ((s.recvOffset frame.level : Int) - frame.offset) =
      s.recvOffset frame.level - frame.offset := by
    rw [toU64_of_nonneg (by omega) (by omega)]
    omega
  by_cases h0 : s.recvOffset frame.level - frame.offset = 0
  · have hro : s.recvOffset frame.level = frame.offset := by omega
    simp only [quicInqHandshakeTail, hov, h0, ne_eq, not_true_eq_false, if_false,
      QuicCryptoFrame.trim]
    simp only [hro, List.drop_zero, Nat.add_sub_cancel_left]
    rfl
  · have hlen' : toU16 ((frame.len : Int) - (s.recvOffset frame.level - frame.offset : Nat)) =
        frame.offset + frame.len - s.recvOffset frame.level := by
      rw [show ((frame.len : Int) - (s.recvOffset frame.level - frame.offset : Nat)) =
        ((frame.offset + frame.len - s.recvOffset frame.level : Nat) : Int) by omega,
        toU16_natCast (by omega)]
    simp only [quicInqHandshakeTail, hov, h0, ne_eq, not_false_eq_true, if_true, hlen',
      QuicCryptoFrame.trim, show frame.offset + (s.recvOffset frame.level - frame.offset) =
        s.recvOffset frame.level by omega,
      show s.recvOffset frame.level + (frame.offset + frame.len - s.recvOffset frame.level) =
        frame.offset + frame.len by omega]
    rfl

/-! ## The handshake list -/

-- Handshake-list order: by level, then by offset.
def keyLe (a b : QuicCryptoFrame) : Prop :=
  a.level < b.level ∨ (a.level = b.level ∧ a.offset ≤ b.offset)

theorem keyLe_trans {a b c : QuicCryptoFrame} (hab : keyLe a b) (hbc : keyLe b c) :
    keyLe a c := by
  unfold keyLe at *
  omega

-- The insertion walk on a sorted list finds a frame of the same level that starts no later and
-- ends no earlier, or puts the frame where the order keeps.
theorem quicInqHandshakeInsert_spec (frame : QuicCryptoFrame) :
    ∀ {l : List QuicCryptoFrame}, l.Pairwise keyLe →
      (quicInqHandshakeInsert frame l = none →
        ∃ g ∈ l, g.level = frame.level ∧ g.offset ≤ frame.offset ∧
          frame.offset + frame.len ≤ g.offset + g.len) ∧
      (∀ l', quicInqHandshakeInsert frame l = some l' →
        l'.Perm (frame :: l) ∧ l'.Pairwise keyLe)
  | [], _ => by
    refine ⟨fun h => ?_, fun l' h => ?_⟩
    · simp [quicInqHandshakeInsert] at h
    · simp only [quicInqHandshakeInsert, Option.some.injEq] at h
      subst h
      exact ⟨.refl _, List.pairwise_singleton _ _⟩
  | pos :: rest, hl => by
    obtain ⟨hpos, hrest⟩ := List.pairwise_cons.1 hl
    have ih := quicInqHandshakeInsert_spec frame hrest
    -- the walk goes on past `pos`, which comes before the frame
    have hpass : keyLe pos frame →
        ((quicInqHandshakeInsert frame rest).map (pos :: ·) = none →
          ∃ g ∈ pos :: rest, g.level = frame.level ∧ g.offset ≤ frame.offset ∧
            frame.offset + frame.len ≤ g.offset + g.len) ∧
        (∀ l', (quicInqHandshakeInsert frame rest).map (pos :: ·) = some l' →
          l'.Perm (frame :: pos :: rest) ∧ l'.Pairwise keyLe) := by
      intro hle
      refine ⟨fun h => ?_, fun l' h => ?_⟩
      · obtain ⟨g, hg, hgl⟩ := ih.1 (Option.map_eq_none_iff.1 h)
        exact ⟨g, List.mem_cons_of_mem pos hg, hgl⟩
      · obtain ⟨l'', h'', rfl⟩ := Option.map_eq_some_iff.1 h
        obtain ⟨hperm, hsorted⟩ := ih.2 l'' h''
        refine ⟨(hperm.cons pos).trans (.swap frame pos rest), List.pairwise_cons.2 ⟨?_, hsorted⟩⟩
        intro x hx
        rcases List.mem_cons.1 (hperm.mem_iff.1 hx) with rfl | hx
        · exact hle
        · exact hpos x hx
    -- the frame goes in front of `pos`, and so of everything after it
    have hfront : keyLe frame pos →
        (frame :: pos :: rest).Perm (frame :: pos :: rest) ∧
          (frame :: pos :: rest).Pairwise keyLe := by
      intro hle
      refine ⟨.refl _, List.pairwise_cons.2 ⟨?_, hl⟩⟩
      intro x hx
      rcases List.mem_cons.1 hx with rfl | hx
      · exact hle
      · exact keyLe_trans hle (hpos x hx)
    unfold quicInqHandshakeInsert
    split_ifs with h1 h2 h3 h4
    · exact hpass (.inl h1)
    · refine ⟨fun h => ?_, fun l' h => ?_⟩
      · cases h
      · cases h
        exact hfront (.inl h2)
    · refine ⟨fun h => ?_, fun l' h => ?_⟩
      · cases h
      · cases h
        exact hfront (.inr ⟨by omega, by omega⟩)
    · refine ⟨fun _ => ⟨pos, List.mem_cons_self, by omega, by omega, h4⟩, fun l' h => ?_⟩
      cases h
    · exact hpass (.inr ⟨by omega, by omega⟩)

/-! ## The invariant -/

-- What `quic_frame_crypto_process` hands on, from a payload of a u16 length: a varint offset and
-- `len` bytes of data.
structure QuicCryptoFrame.WellFormed (frame : QuicCryptoFrame) : Prop where
  offset_lt : frame.offset < 2 ^ 62
  len_lt : frame.len < 2 ^ 16
  data_length : frame.data.length = frame.len

-- A level's slices passed on, and the ranges of a level's frames.
def passedAt (s : QuicInqCrypto) (level : Nat) : List QuicCryptoSlice :=
  s.passed.filter (·.frame.level = level)

def rangesAt (frames : List QuicCryptoFrame) (level : Nat) : List (Nat × Nat) :=
  (frames.filter (·.level = level)).map QuicCryptoFrame.range

-- The bytes passed on at the application level, where the session ticket comes from.
def ticketBytes (s : QuicInqCrypto) : List UInt8 :=
  ((passedAt s QUIC_CRYPTO_APP).map (·.data)).flatten

-- What the tail and the ticket path keep, against the frames `R` received: each level's slices
-- lie end to end from 0 to its `recv_offset`, each is its frame from its offset on, every byte
-- below `recv_offset` was received, `recv_list` keeps handshake data ahead of level-0 entries
-- and in the order it was passed on, and the ticket is the level-0 data unless collecting it
-- was given up.
structure CoreInv (R : List QuicCryptoFrame) (s : QuicInqCrypto) : Prop where
  wf : ∀ f ∈ R, f.WellFormed
  tiles : ∀ L, Tiles 0 ((passedAt s L).map QuicCryptoSlice.range) (s.recvOffset L)
  within : ∀ sl ∈ s.passed, sl.frame ∈ R ∧ sl.frame.offset ≤ sl.offset ∧
    sl.offset + sl.len = sl.frame.offset + sl.frame.len ∧
    sl.data = sl.frame.data.drop (sl.offset - sl.frame.offset)
  below : ∀ L, Below (rangesAt R L) (s.recvOffset L)
  offset_lt : ∀ L, s.recvOffset L < 2 ^ 62 + 2 ^ 16
  ahead : s.recvList.Pairwise (fun a b => a.level = 0 → b.level = 0)
  queued : ∀ L, L ≠ 0 →
    (s.recvList.filter (·.level = L)).map (·.data) <:+ (passedAt s L).map (·.data)
  ticket : s.ticketReady = false → s.recvOffset QUIC_CRYPTO_APP ≤ QUIC_TICKET_MAX_LEN →
    s.ticket = ticketBytes s ∨ s.ticket = []

-- What the handshake list keeps: its frames were received, lie in order of level and offset and
-- start beyond their level's `recv_offset`, and every byte received is below `recv_offset` or
-- held.
structure HeldInv (s : QuicInqCrypto) : Prop where
  received : ∀ f ∈ s.handshakeList, f ∈ s.received
  sorted : s.handshakeList.Pairwise keyLe
  beyond : ∀ f ∈ s.handshakeList, s.recvOffset f.level < f.offset
  kept : ∀ L, Kept (rangesAt s.received L) (rangesAt s.handshakeList L) (s.recvOffset L)

structure CryptoInv (s : QuicInqCrypto) : Prop where
  core : CoreInv s.received s
  held : HeldInv s

/-! ## The receive list -/

-- Handshake data ahead: no entry of a level above 0 comes after one of level 0.
def HandshakeFirst (l : List QuicRecvEntry) : Prop :=
  l.Pairwise (fun a b => a.level = 0 → b.level = 0)

-- A level-0 entry put anywhere after the handshake data keeps it ahead, and changes no level's
-- handshake data.
theorem handshakeFirst_insert_level0 {l : List QuicRecvEntry} (hl : HandshakeFirst l)
    (c : QuicRecvEntry → Bool) (hc : ∀ x, x.level ≠ 0 → c x = true) {e : QuicRecvEntry}
    (he : e.level = 0) :
    HandshakeFirst (l.takeWhile c ++ e :: l.dropWhile c) ∧ ∀ L, L ≠ 0 →
      (l.takeWhile c ++ e :: l.dropWhile c).filter (·.level = L) = l.filter (·.level = L) := by
  refine ⟨OrderedList.pairwise_takeWhile_cons_dropWhile (fun _ _ _ h₁ h₂ h => h₂ (h₁ h)) c e hl
    (fun _ _ _ _ => he) (fun x _ hx _ => ?_), fun L hL => ?_⟩
  · by_contra hne
    rw [hc x hne] at hx
    exact Bool.noConfusion hx
  · exact OrderedList.filter_takeWhile_cons_dropWhile_of_neg _ c (by simp [he, Ne.symm hL]) l

theorem handshakeAhead_eq_false {e : QuicRecvEntry} : handshakeAhead e = false ↔ e.level = 0 := by
  simp [handshakeAhead]

-- A handshake entry put right after the handshake data keeps it ahead, and comes last among the
-- entries of its level.
theorem handshakeFirst_insert_handshake {l : List QuicRecvEntry} (hl : HandshakeFirst l)
    {e : QuicRecvEntry} (he : e.level ≠ 0) :
    HandshakeFirst (l.takeWhile handshakeAhead ++ e :: l.dropWhile handshakeAhead) ∧
      (l.takeWhile handshakeAhead ++ e :: l.dropWhile handshakeAhead).filter (·.level = e.level) =
        l.filter (·.level = e.level) ++ [e] ∧
      ∀ L, L ≠ e.level → (l.takeWhile handshakeAhead ++ e :: l.dropWhile handshakeAhead).filter
        (·.level = L) = l.filter (·.level = L) := by
  have hafter : ∀ x ∈ l.dropWhile handshakeAhead, x.level = 0 := fun x hx =>
    handshakeAhead_eq_false.1 (OrderedList.dropWhile_forall_of_pairwise
      (hl.imp (fun h ha => handshakeAhead_eq_false.2 (h (handshakeAhead_eq_false.1 ha)))) x hx)
  refine ⟨OrderedList.pairwise_takeWhile_cons_dropWhile (fun _ _ _ h₁ h₂ h => h₂ (h₁ h))
      handshakeAhead e hl (fun x _ hx h0 => ?_) (fun x _ hx _ => ?_), ?_, fun L hL => ?_⟩
  · simp [handshakeAhead, h0] at hx
  · simpa [handshakeAhead] using hx
  · exact OrderedList.filter_takeWhile_cons_dropWhile_of_pos _ _ (by simp) l
      (fun x hx => by simp [hafter x hx, Ne.symm he])
  · exact OrderedList.filter_takeWhile_cons_dropWhile_of_neg _ _ (by simp [Ne.symm hL]) l

/-! ## The ticket path -/

-- The ticket is left alone when the slice does not extend it in order within the limit; else it
-- is dropped (its allocation failed) or extended by the slice.
theorem quicInqTicketRecv_ticket (s : QuicInqCrypto) (len : Nat) (data : List UInt8)
    (alloc : Nat → Bool) (ev : QuicTicketEvent) :
    let t := quicInqTicketRecv s len data alloc ev
    (¬ (s.ticketReady = false ∧ s.recvOffset QUIC_CRYPTO_APP ≤ QUIC_TICKET_MAX_LEN ∧
        s.recvOffset QUIC_CRYPTO_APP = s.ticket.length + len) ∧
      t.ticket = s.ticket ∧ t.ticketReady = s.ticketReady) ∨
    ((s.ticketReady = false ∧ s.recvOffset QUIC_CRYPTO_APP ≤ QUIC_TICKET_MAX_LEN ∧
        s.recvOffset QUIC_CRYPTO_APP = s.ticket.length + len) ∧
      (t.ticket = [] ∨ t.ticket = s.ticket ++ data.take len)) := by
  intro t
  unfold t quicInqTicketRecv
  dsimp only
  split_ifs with hcond halloc hfull
  · exact .inr ⟨hcond, .inl rfl⟩
  · refine .inr ⟨hcond, .inr ?_⟩
    split
    · next t' ht => rw [(quicInqEventRecv_ok ht).2.1]
    · rfl
  · exact .inr ⟨hcond, .inr rfl⟩
  · exact .inl ⟨hcond, rfl, rfl⟩

-- The ticket path adds to `recv_list` at most its event, of level 0.
theorem quicInqTicketRecv_recvList (s : QuicInqCrypto) (len : Nat) (data : List UInt8)
    (alloc : Nat → Bool) (ev : QuicTicketEvent) :
    let t := quicInqTicketRecv s len data alloc ev
    t.recvList = s.recvList ∨ ∃ e : QuicRecvEntry, e.level = 0 ∧
      t.recvList = s.recvList.takeWhile eventAhead ++ e :: s.recvList.dropWhile eventAhead := by
  intro t
  unfold t quicInqTicketRecv
  dsimp only
  split_ifs
  · exact .inl rfl
  · split
    · next t' ht => exact (quicInqEventRecv_ok ht).2.2.2
    · exact .inl rfl
  · exact .inl rfl
  · exact .inl rfl

-- The ticket stays the application level's bytes, or empty once given up: `bytes` and `data` are
-- that level's bytes before the slice and the slice's, `recvOffset + len` the offset after it.
theorem ticket_of_ticketRecv {s : QuicInqCrypto} {len recvOffset : Nat}
    {data bytes : List UInt8} (alloc : Nat → Bool) (ev : QuicTicketEvent)
    (hdata : data.length = len) (hbytes : bytes.length = recvOffset)
    (htb : ticketBytes s = bytes ++ data)
    (hro : s.recvOffset QUIC_CRYPTO_APP = recvOffset + len)
    (hold : s.ticketReady = false → recvOffset ≤ QUIC_TICKET_MAX_LEN →
      s.ticket = bytes ∨ s.ticket = []) :
    let t := quicInqTicketRecv s len data alloc ev
    t.ticketReady = false → t.recvOffset QUIC_CRYPTO_APP ≤ QUIC_TICKET_MAX_LEN →
      t.ticket = ticketBytes t ∨ t.ticket = [] := by
  intro t hready hmax
  have hu := quicInqTicketRecv_untouched s len data alloc ev
  have htb' : ticketBytes t = bytes ++ data := by
    rw [← htb]
    simp only [ticketBytes, passedAt, t, hu.passed]
  have hmax' : s.recvOffset QUIC_CRYPTO_APP ≤ QUIC_TICKET_MAX_LEN :=
    (congrFun hu.recvOffset _).symm.trans_le hmax
  rw [htb']
  rcases quicInqTicketRecv_ticket s len data alloc ev with
    ⟨hncond, hticket, hready'⟩ | ⟨hcond, hnew | hnew⟩
  · -- the slice did not extend the ticket, so it had been given up
    rcases hold (hready' ▸ hready) (by omega) with hkept | hempty
    · exact absurd ⟨hready' ▸ hready, hmax', by rw [hkept, hbytes, hro]⟩ hncond
    · exact .inr (hticket.trans hempty)
  · exact .inr hnew
  · left
    obtain ⟨hready₀, -, hlen⟩ := hcond
    rw [hnew, List.take_of_length_le (by omega)]
    rcases hold hready₀ (by omega) with hkept | hempty
    · rw [hkept]
    · rw [hempty] at hlen ⊢
      have : bytes = [] := List.eq_nil_of_length_eq_zero (by simp at hlen; omega)
      rw [this]

/-! ## What the tail keeps -/

namespace CoreInv

variable {R : List QuicCryptoFrame} {s : QuicInqCrypto}

-- A slice's bytes are as many as its length says.
theorem slice_length (h : CoreInv R s) {sl : QuicCryptoSlice} (hsl : sl ∈ s.passed) :
    sl.data.length = sl.len := by
  obtain ⟨hf, hstart, hend, hdata⟩ := h.within sl hsl
  rw [hdata, List.length_drop, (h.wf _ hf).data_length]
  omega

-- The application level's bytes passed on are `recv_offset` many.
theorem ticketBytes_length (h : CoreInv R s) :
    (ticketBytes s).length = s.recvOffset QUIC_CRYPTO_APP := by
  have hsum := (h.tiles QUIC_CRYPTO_APP).sum_eq
  have hlens : (passedAt s QUIC_CRYPTO_APP).map (List.length ∘ (·.data)) =
      ((passedAt s QUIC_CRYPTO_APP).map QuicCryptoSlice.range).map Prod.snd := by
    rw [List.map_map]
    apply List.map_congr_left
    intro sl hsl
    exact h.slice_length (List.mem_of_mem_filter hsl)
  rw [ticketBytes, List.length_flatten, List.map_map, hlens]
  omega

theorem receive (h : CoreInv R s) {frame : QuicCryptoFrame} (hf : frame.WellFormed) :
    CoreInv (R ++ [frame]) s where
  wf f hmem := by
    rcases List.mem_append.1 hmem with hmem | hmem
    · exact h.wf f hmem
    · rw [List.mem_singleton.1 hmem]
      exact hf
  tiles := h.tiles
  within sl hsl := by
    obtain ⟨hmem, hrest⟩ := h.within sl hsl
    exact ⟨List.mem_append_left _ hmem, hrest⟩
  below L := (h.below L).mono (fun r hr => by
    simp only [rangesAt, List.filter_append, List.map_append]
    exact List.mem_append_left _ hr)
  offset_lt := h.offset_lt
  ahead := h.ahead
  queued := h.queued
  ticket := h.ticket

-- A state that differs only in `recv_list`, where the new list keeps handshake data ahead and
-- holds of each level's data a suffix of what the old one held, keeps the invariant.
theorem of_recvList (h : CoreInv R s) {t : QuicInqCrypto} (hu : Untouched s t)
    (hticket : t.ticket = s.ticket) (hready : t.ticketReady = s.ticketReady)
    (hahead : HandshakeFirst t.recvList)
    (hsuffix : ∀ L, L ≠ 0 → (t.recvList.filter (·.level = L)).map (·.data) <:+
      (s.recvList.filter (·.level = L)).map (·.data)) : CoreInv R t := by
  have hp : passedAt t = passedAt s := by
    funext L
    simp only [passedAt, hu.passed]
  have htb : ticketBytes t = ticketBytes s := by simp only [ticketBytes, hp]
  refine ⟨h.wf, ?_, ?_, ?_, ?_, hahead, ?_, ?_⟩
  · rw [hp, hu.recvOffset]
    exact h.tiles
  · rw [hu.passed]
    exact h.within
  · rw [hu.recvOffset]
    exact h.below
  · rw [hu.recvOffset]
    exact h.offset_lt
  · intro L hL
    rw [hp]
    exact (hsuffix L hL).trans (h.queued L hL)
  · rw [hticket, hready, hu.recvOffset, htb]
    exact h.ticket

-- The invariant does not look at the lists of frames held and received.
theorem with_lists (h : CoreInv R s) (held received : List QuicCryptoFrame) :
    CoreInv R { s with handshakeList := held, received := received } :=
  ⟨h.wf, h.tiles, h.within, h.below, h.offset_lt, h.ahead, h.queued, h.ticket⟩

-- `quic_inq_handshake_tail` on a frame of `R` that starts at or below its level's
-- `recv_offset` and ends beyond it keeps the invariant.
theorem tail (h : CoreInv R s) {frame : QuicCryptoFrame} (hf : frame ∈ R)
    (hstart : frame.offset ≤ s.recvOffset frame.level)
    (hend : s.recvOffset frame.level < frame.offset + frame.len) (alloc : Nat → Bool)
    (ev : QuicTicketEvent) : CoreInv R (quicInqHandshakeTail s frame alloc ev) := by
  have hwf := h.wf frame hf
  have hlt := h.offset_lt frame.level
  rw [quicInqHandshakeTail_eq alloc ev hstart hend hwf.len_lt (by omega)]
  dsimp only
  set ro := s.recvOffset frame.level with hro
  set sl := frame.trim ro with hsl
  set s' : QuicInqCrypto := { s with
    recvOffset := Function.update s.recvOffset frame.level (frame.offset + frame.len),
    passed := s.passed ++ [sl] } with hs'
  have hsl_data : sl.data = frame.data.drop (ro - frame.offset) :=
    List.take_of_length_le (by simp only [List.length_drop, hwf.data_length]; omega)
  have hsl_len : sl.data.length = sl.len := by
    rw [hsl_data, List.length_drop, hwf.data_length]
    simp only [sl, QuicCryptoFrame.trim]
    omega
  have hpassed_ne : ∀ L, L ≠ frame.level → passedAt s' L = passedAt s L := by
    intro L hL
    simp [s', passedAt, List.filter_append, Ne.symm hL, sl, QuicCryptoFrame.trim]
  have hpassed_eq : passedAt s' frame.level = passedAt s frame.level ++ [sl] := by
    simp [s', passedAt, List.filter_append, sl, QuicCryptoFrame.trim]
  have hro_ne : ∀ L, L ≠ frame.level → s'.recvOffset L = s.recvOffset L := fun L hL =>
    Function.update_of_ne hL _ _
  have hro_eq : s'.recvOffset frame.level = frame.offset + frame.len := Function.update_self _ _ _
  -- the bookkeeping every branch shares: tiles, slices within frames, bytes received, bounds
  have htiles : ∀ L, Tiles 0 ((passedAt s' L).map QuicCryptoSlice.range) (s'.recvOffset L) := by
    intro L
    by_cases hL : L = frame.level
    · subst hL
      rw [hpassed_eq, hro_eq, List.map_append, List.map_singleton,
        show frame.offset + frame.len = ro + sl.len by simp only [sl, QuicCryptoFrame.trim]; omega]
      exact (h.tiles frame.level).snoc (by simp only [sl, QuicCryptoFrame.trim]; omega)
    · rw [hpassed_ne L hL, hro_ne L hL]
      exact h.tiles L
  have hwithin : ∀ sl' ∈ s'.passed, sl'.frame ∈ R ∧ sl'.frame.offset ≤ sl'.offset ∧
      sl'.offset + sl'.len = sl'.frame.offset + sl'.frame.len ∧
      sl'.data = sl'.frame.data.drop (sl'.offset - sl'.frame.offset) := by
    intro sl' hmem
    rcases List.mem_append.1 hmem with hmem | hmem
    · exact h.within sl' hmem
    · rw [List.mem_singleton.1 hmem]
      exact ⟨hf, hstart, by simp only [sl, QuicCryptoFrame.trim]; omega, hsl_data⟩
  have hbelow : ∀ L, Below (rangesAt R L) (s'.recvOffset L) := by
    intro L
    by_cases hL : L = frame.level
    · subst hL
      rw [hro_eq]
      exact (h.below frame.level).advance (r := frame.range)
        (by simp only [rangesAt, List.mem_map, List.mem_filter, decide_eq_true_eq]
            exact ⟨frame, ⟨hf, rfl⟩, rfl⟩) hstart
    · rw [hro_ne L hL]
      exact h.below L
  have hbound : ∀ L, s'.recvOffset L < 2 ^ 62 + 2 ^ 16 := by
    intro L
    by_cases hL : L = frame.level
    · subst hL
      rw [hro_eq]
      have := hwf.offset_lt
      have := hwf.len_lt
      omega
    · rw [hro_ne L hL]
      exact h.offset_lt L
  by_cases hL : frame.level = QUIC_CRYPTO_APP
  · -- at the application level the slice goes to the ticket path
    rw [if_neg (not_not.2 hL)]
    have hu := quicInqTicketRecv_untouched s' sl.len sl.data alloc ev
    set t := quicInqTicketRecv s' sl.len sl.data alloc ev with ht
    have hpt : passedAt t = passedAt s' := by
      funext L
      simp only [passedAt, hu.passed]
    have hfilter : ∀ L, L ≠ 0 →
        t.recvList.filter (·.level = L) = s.recvList.filter (·.level = L) := by
      intro L hL0
      rcases quicInqTicketRecv_recvList s' sl.len sl.data alloc ev with hsame | ⟨e, he, hins⟩
      · rw [← ht] at hsame
        rw [hsame]
      · rw [← ht] at hins
        rw [hins]
        exact (handshakeFirst_insert_level0 h.ahead eventAhead
          (fun x hx => by simp [eventAhead, hx]) he).2 L hL0
    refine ⟨h.wf, ?_, ?_, ?_, ?_, ?_, ?_, ?_⟩
    · rw [hpt, hu.recvOffset]
      exact htiles
    · rw [hu.passed]
      exact hwithin
    · rw [hu.recvOffset]
      exact hbelow
    · rw [hu.recvOffset]
      exact hbound
    · rcases quicInqTicketRecv_recvList s' sl.len sl.data alloc ev with hsame | ⟨e, he, hins⟩
      · rw [← ht] at hsame
        rw [hsame]
        exact h.ahead
      · rw [← ht] at hins
        rw [hins]
        exact (handshakeFirst_insert_level0 h.ahead eventAhead
          (fun x hx => by simp [eventAhead, hx]) he).1
    · intro L hL0
      rw [hfilter L hL0, hpt, hpassed_ne L (by rw [hL]; exact hL0)]
      exact h.queued L hL0
    · have htb : ticketBytes s' = ticketBytes s ++ sl.data := by
        simp only [ticketBytes, ← hL, hpassed_eq, List.map_append, List.map_singleton,
          List.flatten_append, List.flatten_singleton]
      have hro0 : s'.recvOffset QUIC_CRYPTO_APP = ro + sl.len := by
        rw [← hL, hro_eq]
        simp only [sl, QuicCryptoFrame.trim]
        omega
      exact ticket_of_ticketRecv alloc ev hsl_len
        (by rw [h.ticketBytes_length, ← hL]) htb hro0
        (fun hready hmax => h.ticket hready (by rw [← hL]; exact hmax))
  · -- above it the slice goes to `recv_list`, behind the handshake data already there
    rw [if_pos hL]
    have hins := handshakeFirst_insert_handshake h.ahead
      (e := ⟨frame.level, false, sl.data⟩) (by simpa [QUIC_CRYPTO_APP] using hL)
    refine ⟨h.wf, htiles, hwithin, hbelow, hbound, hins.1, ?_, ?_⟩
    · intro L hL0
      show _ <:+ (passedAt s' L).map (·.data)
      by_cases hLf : L = frame.level
      · subst hLf
        obtain ⟨tl, htl⟩ := h.queued frame.level hL0
        rw [hins.2.1, hpassed_eq]
        exact ⟨tl, by simp only [List.map_append, List.map_singleton, ← List.append_assoc, htl]⟩
      · rw [hins.2.2 L hLf, hpassed_ne L hLf]
        exact h.queued L hL0
    · have htb : ticketBytes s' = ticketBytes s := by
        simp only [ticketBytes, hpassed_ne QUIC_CRYPTO_APP (Ne.symm hL)]
      intro hready hmax
      show s.ticket = ticketBytes s' ∨ s.ticket = []
      rw [show s'.recvOffset QUIC_CRYPTO_APP = s.recvOffset QUIC_CRYPTO_APP from
        hro_ne _ (Ne.symm hL)] at hmax
      exact htb ▸ h.ticket hready hmax

end CoreInv

-- The tail leaves the merge loop `recv_offset` at the frame's end and the lists of frames as
-- they were.
theorem quicInqHandshakeTail_fields {s : QuicInqCrypto} {frame : QuicCryptoFrame}
    (alloc : Nat → Bool) (ev : QuicTicketEvent) (hstart : frame.offset ≤ s.recvOffset frame.level)
    (hend : s.recvOffset frame.level < frame.offset + frame.len) (hlen : frame.len < 2 ^ 16)
    (hro : s.recvOffset frame.level < 2 ^ 64) :
    (quicInqHandshakeTail s frame alloc ev).recvOffset =
        Function.update s.recvOffset frame.level (frame.offset + frame.len) ∧
      (quicInqHandshakeTail s frame alloc ev).handshakeList = s.handshakeList ∧
      (quicInqHandshakeTail s frame alloc ev).received = s.received := by
  rw [quicInqHandshakeTail_eq alloc ev hstart hend hlen hro]
  dsimp only
  split_ifs
  · exact ⟨rfl, rfl, rfl⟩
  · have hu := quicInqTicketRecv_untouched { s with
      recvOffset := Function.update s.recvOffset frame.level (frame.offset + frame.len),
      passed := s.passed ++ [frame.trim (s.recvOffset frame.level)] }
      (frame.trim (s.recvOffset frame.level)).len (frame.trim (s.recvOffset frame.level)).data
      alloc ev
    exact ⟨hu.recvOffset, hu.handshakeList, hu.received⟩

/-! ## The merge loop -/

-- A list in level order whose levels are all at least `level` is its frames of that level
-- followed by the others.
theorem filter_eq_append_filter_gt (level : Nat) :
    ∀ {l : List QuicCryptoFrame}, l.Pairwise (fun a b => a.level ≤ b.level) →
      (∀ x ∈ l, level ≤ x.level) →
      l.filter (·.level = level) ++ l.filter (level < ·.level) = l
  | [], _, _ => rfl
  | x :: xs, hl, hge => by
    obtain ⟨hx, hxs⟩ := List.pairwise_cons.1 hl
    have ih := filter_eq_append_filter_gt level hxs (fun y hy => hge y (List.mem_cons_of_mem x hy))
    by_cases heq : x.level = level
    · rw [List.filter_cons_of_pos (by simpa using heq),
        List.filter_cons_of_neg (by simp [heq]), List.cons_append, ih]
    · have hgt : level < x.level := lt_of_le_of_ne (hge x List.mem_cons_self) (Ne.symm heq)
      have hnone : xs.filter (·.level = level) = [] :=
        List.filter_eq_nil_iff.2 (fun y hy => by have := hx y hy; simp; omega)
      have hall : xs.filter (level < ·.level) = xs :=
        List.filter_eq_self.2 (fun y hy => by have := hx y hy; simp; omega)
      rw [List.filter_cons_of_neg (by simpa using heq), List.filter_cons_of_pos (by simpa using hgt),
        hnone, hall, List.nil_append]

-- On a list in level order the loop works on the frames of its level alone; those below and
-- above it stay where they were.
theorem quicInqHandshakeMerge_split (level : Nat) (alloc : Nat → Bool) (ev : QuicTicketEvent) :
    ∀ (s : QuicInqCrypto) {l : List QuicCryptoFrame}, l.Pairwise (fun a b => a.level ≤ b.level) →
      quicInqHandshakeMerge level alloc ev s l =
        ((quicInqHandshakeMerge level alloc ev s (l.filter (·.level = level))).1,
          l.filter (·.level < level) ++
            (quicInqHandshakeMerge level alloc ev s (l.filter (·.level = level))).2 ++
            l.filter (level < ·.level))
  | s, [], _ => rfl
  | s, f :: rest, hl => by
    obtain ⟨hf, hrest⟩ := List.pairwise_cons.1 hl
    have ih := fun s => quicInqHandshakeMerge_split level alloc ev s hrest
    rcases Nat.lt_trichotomy f.level level with hlt | heq | hgt
    · -- below the level: kept in front
      rw [List.filter_cons_of_neg (by simp; omega), List.filter_cons_of_pos (by simpa using hlt),
        List.filter_cons_of_neg (by simp; omega)]
      simp only [quicInqHandshakeMerge, if_pos hlt, ih s, List.cons_append]
    · -- at the level: every later frame is at it or above, and the loop sees the same frames
      have hge : ∀ x ∈ rest, level ≤ x.level := fun x hx => heq ▸ hf x hx
      have hnone : rest.filter (·.level < level) = [] :=
        List.filter_eq_nil_iff.2 (fun x hx => by have := hge x hx; simp; omega)
      rw [List.filter_cons_of_pos (by simpa using heq), List.filter_cons_of_neg (by simp; omega),
        List.filter_cons_of_neg (by simp; omega), hnone, List.nil_append]
      have hstay : ¬ f.level < level := by omega
      have hstay' : ¬ f.level > level := by omega
      simp only [quicInqHandshakeMerge, if_neg hstay, if_neg hstay']
      split_ifs
      · rw [List.cons_append, filter_eq_append_filter_gt level hrest hge]
      · rw [ih s, hnone, List.nil_append]
      · rw [ih, hnone, List.nil_append]
    · -- above the level: the loop stops, and nothing after is at the level or below
      have hgt' : ∀ x ∈ f :: rest, level < x.level := by
        intro x hx
        rcases List.mem_cons.1 hx with rfl | hx
        · exact hgt
        · exact lt_of_lt_of_le hgt (hf x hx)
      rw [List.filter_eq_nil_iff.2 (fun x hx => by have := hgt' x hx; simp; omega),
        List.filter_eq_nil_iff.2 (fun x hx => by have := hgt' x hx; simp; omega),
        List.filter_eq_self.2 (fun x hx => by simpa using hgt' x hx)]
      simp only [quicInqHandshakeMerge, if_neg (show ¬ f.level < level by omega),
        if_pos hgt, List.nil_append]

-- The loop on the frames of its own level, in offset order: it keeps the invariant, hands on
-- what became contiguous, and leaves only frames that start beyond the new `recv_offset`; every
-- byte received is still handed on or held, and other levels' offsets do not move.
theorem quicInqHandshakeMerge_level (level : Nat) (alloc : Nat → Bool) (ev : QuicTicketEvent)
    (R : List QuicCryptoFrame) (s : QuicInqCrypto) (E : List QuicCryptoFrame) (h : CoreInv R s)
    (hE : ∀ f ∈ E, f.level = level ∧ f ∈ R) (hsorted : E.Pairwise (fun a b => a.offset ≤ b.offset))
    (hkept : Kept (rangesAt R level) (E.map QuicCryptoFrame.range) (s.recvOffset level)) :
    let m := quicInqHandshakeMerge level alloc ev s E
    CoreInv R m.1 ∧ Kept (rangesAt R level) (m.2.map QuicCryptoFrame.range) (m.1.recvOffset level) ∧
      (∀ f ∈ m.2, m.1.recvOffset level < f.offset) ∧ m.2.Sublist E ∧
      ∀ L, L ≠ level → m.1.recvOffset L = s.recvOffset L := by
  induction E generalizing s with
  | nil => exact ⟨h, hkept, by simp [quicInqHandshakeMerge], .slnil, fun _ _ => rfl⟩
  | cons f rest ih =>
    obtain ⟨hf, hrest⟩ := List.pairwise_cons.1 hsorted
    obtain ⟨hfl, hfR⟩ := hE f List.mem_cons_self
    have hE' := fun g hg => hE g (List.mem_cons_of_mem f hg)
    have hwf := h.wf f hfR
    intro m
    unfold m quicInqHandshakeMerge
    rw [if_neg (by omega), if_neg (by omega)]
    by_cases hgap : f.offset > s.recvOffset level
    · -- a gap before the first frame: the loop stops, and the rest start beyond it too
      rw [if_pos hgap]
      refine ⟨h, hkept, fun g hg => ?_, .refl _, fun _ _ => rfl⟩
      rcases List.mem_cons.1 hg with rfl | hg
      · exact hgap
      · exact lt_of_lt_of_le hgap (hf g hg)
    rw [if_neg hgap]
    by_cases hcov : s.recvOffset level ≥ f.offset + f.len
    · -- handed on already: dropped
      rw [if_pos hcov]
      obtain ⟨h1, h2, h3, h4, h5⟩ := ih s h hE' hrest (hkept.drop hcov)
      exact ⟨h1, h2, h3, h4.cons f, h5⟩
    · -- reaches past `recv_offset`: the tail hands on the rest of it
      rw [if_neg hcov]
      have hstart : f.offset ≤ s.recvOffset f.level := by rw [hfl]; omega
      have hend : s.recvOffset f.level < f.offset + f.len := by rw [hfl]; omega
      have htail := h.tail hfR hstart hend alloc ev
      obtain ⟨hro, -, -⟩ := quicInqHandshakeTail_fields alloc ev hstart hend hwf.len_lt
        (by have := h.offset_lt f.level; omega)
      have hro_eq : (quicInqHandshakeTail s f alloc ev).recvOffset level = f.offset + f.len := by
        rw [hro, ← hfl, Function.update_self]
      have hkept' : Kept (rangesAt R level) (rest.map QuicCryptoFrame.range)
          ((quicInqHandshakeTail s f alloc ev).recvOffset level) := by
        rw [hro_eq]
        exact (hkept.of_le (by omega)).drop (le_refl _)
      obtain ⟨h1, h2, h3, h4, h5⟩ := ih _ htail hE' hrest hkept'
      refine ⟨h1, h2, h3, h4.cons f, fun L hL => ?_⟩
      rw [h5 L hL, hro, Function.update_of_ne (by rw [hfl]; exact hL)]

theorem quicInqHandshakeMerge_sublist (level : Nat) (alloc : Nat → Bool) (ev : QuicTicketEvent) :
    ∀ (s : QuicInqCrypto) (l : List QuicCryptoFrame),
      (quicInqHandshakeMerge level alloc ev s l).2.Sublist l
  | _, [] => .slnil
  | s, f :: rest => by
    unfold quicInqHandshakeMerge
    split_ifs
    · exact (quicInqHandshakeMerge_sublist level alloc ev s rest).cons_cons f
    · exact .refl _
    · exact .refl _
    · exact (quicInqHandshakeMerge_sublist level alloc ev s rest).cons f
    · exact (quicInqHandshakeMerge_sublist level alloc ev _ rest).cons f

-- The frames below and above a level, around what is left of that level, hold every other
-- level's frames as the list did.
theorem filter_level_around {l E : List QuicCryptoFrame} {level L : Nat} (hL : L ≠ level)
    (hE : ∀ g ∈ E, g.level = level) :
    (l.filter (·.level < level) ++ E ++ l.filter (level < ·.level)).filter (·.level = L) =
      l.filter (·.level = L) := by
  have hnone : E.filter (·.level = L) = [] :=
    List.filter_eq_nil_iff.2 (fun g hg => by simp [hE g hg, Ne.symm hL])
  rw [List.filter_append, List.filter_append, hnone, List.append_nil, List.filter_filter,
    List.filter_filter]
  rcases Nat.lt_or_gt_of_ne hL with hlt | hgt
  · -- a lower level's frames are all in front
    have h1 : l.filter (fun a => decide (a.level = L) && decide (a.level < level)) =
        l.filter (·.level = L) :=
      List.filter_congr (fun a _ => by by_cases ha : a.level = L <;> simp [ha]; omega)
    have h2 : l.filter (fun a => decide (a.level = L) && decide (level < a.level)) = [] :=
      List.filter_eq_nil_iff.2 (fun a _ => by simp; omega)
    rw [h1, h2, List.append_nil]
  · -- a higher level's frames are all behind
    have h1 : l.filter (fun a => decide (a.level = L) && decide (a.level < level)) = [] :=
      List.filter_eq_nil_iff.2 (fun a _ => by simp; omega)
    have h2 : l.filter (fun a => decide (a.level = L) && decide (level < a.level)) =
        l.filter (·.level = L) :=
      List.filter_congr (fun a _ => by by_cases ha : a.level = L <;> simp [ha]; omega)
    rw [h1, h2, List.nil_append]

theorem filter_level_self {l E : List QuicCryptoFrame} {level : Nat}
    (hE : ∀ g ∈ E, g.level = level) :
    (l.filter (·.level < level) ++ E ++ l.filter (level < ·.level)).filter (·.level = level) = E := by
  have hself : E.filter (·.level = level) = E := List.filter_eq_self.2 (fun g hg => by simp [hE g hg])
  have hlo : (l.filter (·.level < level)).filter (·.level = level) = [] := by
    rw [List.filter_filter]
    exact List.filter_eq_nil_iff.2 (fun g _ => by simp; omega)
  have hhi : (l.filter (level < ·.level)).filter (·.level = level) = [] := by
    rw [List.filter_filter]
    exact List.filter_eq_nil_iff.2 (fun g _ => by simp; omega)
  rw [List.filter_append, List.filter_append, hself, hlo, hhi, List.nil_append, List.append_nil]

theorem rangesAt_append_of_ne {R : List QuicCryptoFrame} {frame : QuicCryptoFrame} {L : Nat}
    (hL : frame.level ≠ L) : rangesAt (R ++ [frame]) L = rangesAt R L := by
  simp [rangesAt, List.filter_append, hL]

theorem rangesAt_append_self (R : List QuicCryptoFrame) (frame : QuicCryptoFrame) :
    rangesAt (R ++ [frame]) frame.level = rangesAt R frame.level ++ [frame.range] := by
  simp [rangesAt, List.filter_append]

theorem mem_rangesAt {l : List QuicCryptoFrame} {L : Nat} {r : Nat × Nat} :
    r ∈ rangesAt l L ↔ ∃ g ∈ l, g.level = L ∧ g.range = r := by
  simp [rangesAt, and_assoc]

/-! ## What a CRYPTO frame does to the handshake list -/

namespace HeldInv

variable {s : QuicInqCrypto} {frame : QuicCryptoFrame}

-- A frame whose bytes were all handed on or are held changes nothing but the frames received.
theorem receive_covered (h : HeldInv s)
    (hcov : ∀ x, Covers frame.range x →
      x < s.recvOffset frame.level ∨ ∃ q ∈ rangesAt s.handshakeList frame.level, Covers q x) :
    HeldInv { s with received := s.received ++ [frame] } where
  received g hg := List.mem_append_left _ (h.received g hg)
  sorted := h.sorted
  beyond := h.beyond
  kept L := by
    by_cases hL : frame.level = L
    · subst hL
      show Kept (rangesAt (s.received ++ [frame]) frame.level) _ _
      rw [rangesAt_append_self]
      exact (h.kept frame.level).receive hcov
    · show Kept (rangesAt (s.received ++ [frame]) L) _ _
      rw [rangesAt_append_of_ne hL]
      exact h.kept L

-- A frame beyond `recv_offset`, put into the list in order, is held.
theorem insert (h : HeldInv s) (hbeyond : s.recvOffset frame.level < frame.offset)
    {l : List QuicCryptoFrame} (hperm : l.Perm (frame :: s.handshakeList))
    (hsorted : l.Pairwise keyLe) :
    HeldInv { s with handshakeList := l, received := s.received ++ [frame] } := by
  have hmem : ∀ g, g ∈ l ↔ g = frame ∨ g ∈ s.handshakeList := fun g => by
    rw [hperm.mem_iff, List.mem_cons]
  have hheld : ∀ L, ∀ r ∈ rangesAt s.handshakeList L, r ∈ rangesAt l L := by
    intro L r hr
    obtain ⟨g, hg, hgl, rfl⟩ := mem_rangesAt.1 hr
    exact mem_rangesAt.2 ⟨g, (hmem g).2 (.inr hg), hgl, rfl⟩
  refine ⟨fun g hg => ?_, hsorted, fun g hg => ?_, fun L => ?_⟩
  · rcases (hmem g).1 hg with rfl | hg
    · exact List.mem_append_right _ List.mem_cons_self
    · exact List.mem_append_left _ (h.received g hg)
  · rcases (hmem g).1 hg with rfl | hg
    · exact hbeyond
    · exact h.beyond g hg
  · show Kept (rangesAt (s.received ++ [frame]) L) (rangesAt l L) (s.recvOffset L)
    by_cases hL : frame.level = L
    · subst hL
      rw [rangesAt_append_self]
      refine ((h.kept frame.level).mono_held (hheld _)).receive (fun x hx => .inr ⟨frame.range, ?_, hx⟩)
      exact mem_rangesAt.2 ⟨frame, (hmem frame).2 (.inl rfl), rfl, rfl⟩
    · rw [rangesAt_append_of_ne hL]
      exact (h.kept L).mono_held (hheld L)

end HeldInv

-- An in-order frame: the tail hands it on from `recv_offset`, and the loop hands on what became
-- contiguous behind it.
theorem cryptoInv_inOrder {s : QuicInqCrypto} {frame : QuicCryptoFrame} (alloc : Nat → Bool)
    (ev : QuicTicketEvent) (h : CryptoInv s) (hwf : frame.WellFormed)
    (hstart : frame.offset ≤ s.recvOffset frame.level)
    (hend : s.recvOffset frame.level < frame.offset + frame.len) :
    CryptoInv { (quicInqHandshakeMerge frame.level alloc ev
        (quicInqHandshakeTail s frame alloc ev) s.handshakeList).1 with
      handshakeList := (quicInqHandshakeMerge frame.level alloc ev
        (quicInqHandshakeTail s frame alloc ev) s.handshakeList).2,
      received := s.received ++ [frame] } := by
  set L := frame.level with hL
  set R := s.received ++ [frame] with hR
  set s1 := quicInqHandshakeTail s frame alloc ev with hs1
  have hcore : CoreInv R s := h.core.receive hwf
  have hfR : frame ∈ R := List.mem_append_right _ List.mem_cons_self
  have hcore1 : CoreInv R s1 := hcore.tail hfR hstart hend alloc ev
  obtain ⟨hro1, -, -⟩ := quicInqHandshakeTail_fields alloc ev hstart hend hwf.len_lt
    (by have := hcore.offset_lt frame.level; omega)
  have hlevel : s.handshakeList.Pairwise (fun a b => a.level ≤ b.level) :=
    h.held.sorted.imp (fun hab => by unfold keyLe at hab; omega)
  have hsub := quicInqHandshakeMerge_sublist L alloc ev s1 s.handshakeList
  rw [quicInqHandshakeMerge_split L alloc ev s1 hlevel] at hsub ⊢
  dsimp only at hsub ⊢
  set E := s.handshakeList.filter (·.level = L) with hE
  -- the frames of the level, in offset order, and what the loop needs of them
  have hEprops : ∀ g ∈ E, g.level = L ∧ g ∈ R := by
    intro g hg
    obtain ⟨hg, hgl⟩ := List.mem_filter.1 hg
    exact ⟨by simpa using hgl, List.mem_append_left _ (h.held.received g hg)⟩
  have hEsorted : E.Pairwise (fun a b => a.offset ≤ b.offset) :=
    (h.held.sorted.filter _).imp_of_mem (fun ha hb hab => by
      have := (hEprops _ ha).1
      have := (hEprops _ hb).1
      unfold keyLe at hab
      omega)
  have hro1L : s1.recvOffset L = frame.offset + frame.len := by
    rw [hro1, Function.update_self]
  have hkeptE : Kept (rangesAt R L) (E.map QuicCryptoFrame.range) (s1.recvOffset L) := by
    rw [hR, rangesAt_append_self, hro1L]
    exact ((h.held.kept L).of_le (by omega)).receive (fun x hx => .inl hx.2)
  obtain ⟨hc, hk, hb, hsubE, hother⟩ :=
    quicInqHandshakeMerge_level L alloc ev R s1 E hcore1 hEprops hEsorted hkeptE
  set M := quicInqHandshakeMerge L alloc ev s1 E with hM
  have hML : ∀ g ∈ M.2, g.level = L := fun g hg => (hEprops g (hsubE.subset hg)).1
  have hro_other : ∀ L', L' ≠ L → M.1.recvOffset L' = s.recvOffset L' := by
    intro L' hL'
    rw [hother L' hL', hro1, Function.update_of_ne hL']
  refine ⟨hc.with_lists _ _, fun g hg => ?_, h.held.sorted.sublist hsub, fun g hg => ?_,
    fun L' => ?_⟩
  · exact List.mem_append_left _ (h.held.received g (hsub.subset hg))
  · by_cases hgL : g.level = L
    · -- a frame of the level left by the loop starts beyond where it stopped
      have hgM : g ∈ M.2 := by
        rcases List.mem_append.1 hg with hg | hg
        · rcases List.mem_append.1 hg with hg | hg
          · have := (List.mem_filter.1 hg).2
            simp at this
            omega
          · exact hg
        · have := (List.mem_filter.1 hg).2
          simp at this
          omega
      rw [hgL]
      exact hb g hgM
    · rw [hro_other _ hgL]
      exact h.held.beyond g (hsub.subset hg)
  · by_cases hL' : L' = L
    · subst hL'
      show Kept _ ((List.filter _ _).map _) _
      rw [filter_level_self hML]
      exact hk
    · show Kept (rangesAt R L') ((List.filter _ _).map _) _
      rw [filter_level_around hL' hML, hR, rangesAt_append_of_ne (Ne.symm hL'), hro_other L' hL']
      exact h.held.kept L'

-- `quic_inq_handshake_recv` on a well-formed frame keeps the invariant, with the frame counted as
-- received: a frame handed on already or held already is dropped, one beyond `recv_offset` is
-- held in order, and an in-order one is handed on with what it makes contiguous.
theorem cryptoInv_recv {s t : QuicInqCrypto} {frame : QuicCryptoFrame} {rmem : Bool}
    {alloc : Nat → Bool} {ev : QuicTicketEvent} (h : CryptoInv s) (hwf : frame.WellFormed)
    (hrecv : quicInqHandshakeRecv s frame rmem alloc ev = .ok t) :
    CryptoInv { t with received := s.received ++ [frame] } := by
  unfold quicInqHandshakeRecv at hrecv
  dsimp only at hrecv
  split_ifs at hrecv with hcov hrmem hout
  · cases hrecv
    exact ⟨(h.core.receive hwf).with_lists _ _, h.held.receive_covered (fun x hx => .inl (by
      unfold Covers QuicCryptoFrame.range at hx
      dsimp only at hx
      omega))⟩
  · have hspec := quicInqHandshakeInsert_spec frame h.held.sorted
    split at hrecv
    · next hnone =>
      cases hrecv
      obtain ⟨g, hg, hgl, hgo, hge⟩ := hspec.1 hnone
      refine ⟨(h.core.receive hwf).with_lists _ _,
        h.held.receive_covered (fun x hx => .inr ⟨g.range, ?_, ?_⟩)⟩
      · exact mem_rangesAt.2 ⟨g, hg, hgl, rfl⟩
      · unfold Covers QuicCryptoFrame.range at hx ⊢
        dsimp only at hx ⊢
        omega
    · next l' hsome =>
      cases hrecv
      obtain ⟨hperm, hsorted⟩ := hspec.2 l' hsome
      exact ⟨(h.core.receive hwf).with_lists _ _, h.held.insert (by omega) hperm hsorted⟩
  · cases hrecv
    have hpre := h.core.offset_lt frame.level
    have hhl := (@quicInqHandshakeTail_fields s frame alloc ev (by omega)
      (by omega) hwf.len_lt (by omega)).2.1
    rw [hhl]
    exact cryptoInv_inOrder alloc ev h hwf (by omega) (by omega)
/-! ## Runs of the receive side -/

-- What `quic_frame_crypto_process` reads from a payload of a u16 length: a well-formed frame of
-- the packet's level, taking no more bytes than there are.
theorem quicFrameCryptoParse_spec {level : Nat} {buf : List UInt8} {frame : QuicCryptoFrame}
    {taken : Nat} (h : quicFrameCryptoParse level buf = some (frame, taken))
    (hbuf : buf.length < 2 ^ 16) :
    frame.level = level ∧ frame.WellFormed ∧ taken ≤ buf.length := by
  unfold quicFrameCryptoParse at h
  split at h
  · cases h
  · next offset rest hoff =>
    split at h
    · cases h
    · next length rest' hlen =>
      split_ifs at h with hshort
      simp only [Option.some.injEq, Prod.mk.injEq] at h
      obtain ⟨rfl, rfl⟩ := h
      obtain ⟨k, -, hk, hrest, -⟩ := quicGetVar_some hoff
      obtain ⟨k', -, hk', hrest', -⟩ := quicGetVar_some hlen
      have hle : length ≤ buf.length := by
        have : rest'.length ≤ rest.length := by rw [hrest']; simp
        have : rest.length ≤ buf.length := by rw [hrest]; simp
        omega
      refine ⟨rfl, ⟨quicGetVar_lt hoff, ?_, ?_⟩, by omega⟩
      · show toU16 length < 2 ^ 16
        exact toU16_lt _
      · show (rest'.take length).length = toU16 length
        rw [List.length_take, toU16_natCast (by omega)]
        omega

theorem quicFrameCryptoProcess_ok {s t : QuicInqCrypto} {level : Nat} {buf : List UInt8}
    {nalloc rmem : Bool} {alloc : Nat → Bool} {ev : QuicTicketEvent} {taken : Nat}
    (h : quicFrameCryptoProcess s level buf nalloc rmem alloc ev = .ok (taken, t)) :
    ∃ frame, quicFrameCryptoParse level buf = some (frame, taken) ∧
      quicInqHandshakeRecv s frame rmem alloc ev = .ok t := by
  unfold quicFrameCryptoProcess at h
  split at h
  · cases h
  · next frame taken' hparse =>
    split_ifs at h
    cases hrecv : quicInqHandshakeRecv s frame rmem alloc ev with
    | error e => rw [hrecv] at h; cases h
    | ok t' =>
      rw [hrecv] at h
      simp only [Except.map, Except.ok.injEq, Prod.mk.injEq] at h
      obtain ⟨rfl, rfl⟩ := h
      exact ⟨frame, hparse, hrecv⟩

theorem quicInqHandshakeTail_received (s : QuicInqCrypto) (frame : QuicCryptoFrame)
    (alloc : Nat → Bool) (ev : QuicTicketEvent) :
    (quicInqHandshakeTail s frame alloc ev).received = s.received := by
  unfold quicInqHandshakeTail
  dsimp only
  by_cases hL : frame.level = QUIC_CRYPTO_APP
  · rw [if_neg (not_not.2 hL)]
    exact (quicInqTicketRecv_untouched _ _ _ _ _).received
  · rw [if_pos hL]

theorem quicInqHandshakeMerge_received (level : Nat) (alloc : Nat → Bool) (ev : QuicTicketEvent) :
    ∀ (s : QuicInqCrypto) (l : List QuicCryptoFrame),
      (quicInqHandshakeMerge level alloc ev s l).1.received = s.received
  | _, [] => rfl
  | s, f :: rest => by
    unfold quicInqHandshakeMerge
    split_ifs
    · exact quicInqHandshakeMerge_received level alloc ev s rest
    · rfl
    · rfl
    · exact quicInqHandshakeMerge_received level alloc ev s rest
    · rw [quicInqHandshakeMerge_received level alloc ev _ rest,
        quicInqHandshakeTail_received]

theorem quicInqHandshakeRecv_received {s t : QuicInqCrypto} {frame : QuicCryptoFrame}
    {rmem : Bool} {alloc : Nat → Bool} {ev : QuicTicketEvent}
    (h : quicInqHandshakeRecv s frame rmem alloc ev = .ok t) : t.received = s.received := by
  unfold quicInqHandshakeRecv at h
  dsimp only at h
  split_ifs at h
  · cases h
    rfl
  · split at h <;> (cases h; rfl)
  · cases h
    exact (quicInqHandshakeMerge_received _ _ _ _ _).trans (quicInqHandshakeTail_received _ _ _ _)

theorem HeldInv.of_untouched {s t : QuicInqCrypto} (h : HeldInv s) (hu : Untouched s t) :
    HeldInv t := by
  refine ⟨?_, ?_, ?_, ?_⟩
  · rw [hu.handshakeList, hu.received]
    exact h.received
  · rw [hu.handshakeList]
    exact h.sorted
  · rw [hu.handshakeList, hu.recvOffset]
    exact h.beyond
  · rw [hu.handshakeList, hu.received, hu.recvOffset]
    exact h.kept

theorem cryptoInv_init (events : Nat) : CryptoInv (quicInqCryptoInit events) := by
  refine ⟨⟨?_, fun _ => .nil 0, ?_, ?_, ?_, .nil, fun _ _ => List.suffix_refl _,
    fun _ _ => .inr rfl⟩, ⟨?_, .nil, ?_, ?_⟩⟩
  · intro f hf
    cases hf
  · intro sl hsl
    cases hsl
  · intro L x hx
    cases hx
  · intro L
    simp [quicInqCryptoInit]
  · intro f hf
    cases hf
  · intro f hf
    cases hf
  · intro L r hr
    simp [rangesAt, quicInqCryptoInit] at hr

-- Every call keeps the invariant: a CRYPTO frame of a u16 payload, an event, data queued at the
-- tail of `recv_list`, and a read off its head.
theorem cryptoInv_step {s t : QuicInqCrypto} (h : CryptoInv s) (hstep : InqStep s t) :
    CryptoInv t := by
  obtain ⟨call, hallowed, rfl⟩ := hstep
  cases call with
  | crypto level buf nalloc rmem alloc ev =>
    simp only [QuicInqCall.allowed, decide_eq_true_eq] at hallowed
    simp only [QuicInqCall.apply]
    split
    · next n t frame taken hproc hparse =>
      obtain ⟨frame', hparse', hrecv⟩ := quicFrameCryptoProcess_ok hproc
      rw [hparse] at hparse'
      obtain ⟨rfl, -⟩ := Prod.mk.inj (Option.some.inj hparse')
      rw [quicInqHandshakeRecv_received hrecv]
      exact cryptoInv_recv h (quicFrameCryptoParse_spec hparse hallowed).2.1 hrecv
    · exact h
  | event kind payload alloc =>
    simp only [QuicInqCall.apply]
    split
    · next t hev =>
      obtain ⟨hu, hticket, hready, hlist⟩ := quicInqEventRecv_ok hev
      refine ⟨?_, h.held.of_untouched hu⟩
      rw [hu.received]
      refine h.core.of_recvList hu hticket hready ?_ ?_
      · rcases hlist with hsame | ⟨e, he, hins⟩
        · rw [hsame]
          exact h.core.ahead
        · rw [hins]
          exact (handshakeFirst_insert_level0 h.core.ahead eventAhead
            (fun x hx => by simp [eventAhead, hx]) he).1
      · intro L hL
        rcases hlist with hsame | ⟨e, he, hins⟩
        · rw [hsame]
        · rw [hins, (handshakeFirst_insert_level0 h.core.ahead eventAhead
            (fun x hx => by simp [eventAhead, hx]) he).2 L hL]
    · exact h
  | data bytes =>
    have hu : Untouched s (QuicInqCall.apply s (.data bytes)) := ⟨rfl, rfl, rfl, rfl, rfl⟩
    refine ⟨h.core.of_recvList hu rfl rfl ?_ ?_, h.held.of_untouched hu⟩
    · exact List.pairwise_append.2 ⟨h.core.ahead, List.pairwise_singleton _ _,
        fun _ _ b hb _ => by rw [List.mem_singleton.1 hb]⟩
    · intro L hL
      simp [QuicInqCall.apply, List.filter_append, Ne.symm hL]
  | read count =>
    have hu : Untouched s (QuicInqCall.apply s (.read count)) := ⟨rfl, rfl, rfl, rfl, rfl⟩
    refine ⟨h.core.of_recvList hu rfl rfl (h.core.ahead.sublist (List.drop_sublist _ _)) ?_,
      h.held.of_untouched hu⟩
    intro L _
    exact ((List.drop_suffix count s.recvList).filter _).map _

theorem cryptoInv_reachable {s : QuicInqCrypto} (h : Reachable InqInit InqStep s) :
    CryptoInv s := by
  refine Reachable.invariant ?_ (fun a b => @cryptoInv_step a b) h
  rintro _ ⟨events, rfl⟩
  exact cryptoInv_init events

theorem inqStep_of_allowed (s : QuicInqCrypto) (call : QuicInqCall) (h : call.allowed s = true) :
    InqStep s (call.apply s) :=
  ⟨call, h, rfl⟩

example :
    let s := [QuicInqCall.crypto 2 [5, 3, 7, 8, 9] true true (fun _ => true)
        ⟨true, 0, []⟩,
      .crypto 2 [0, 5, 1, 2, 3, 4, 5] true true (fun _ => true) ⟨true, 0, []⟩].foldl QuicInqCall.apply
        (quicInqCryptoInit 0)
    s.recvOffset 2 = 8 ∧ s.recvList.map (·.data) = [[1, 2, 3, 4, 5], [7, 8, 9]] ∧
      s.handshakeList = [] := by
  decide

/-! ## CRYPTO data over whole runs -/

-- No CRYPTO byte accepted is lost or held up: at every level `recv_offset` is the first byte no
-- accepted frame carries, so every byte below it was received, and the byte at it never was.
theorem quicInqHandshake_recv_offset_first_gap {s : QuicInqCrypto}
    (h : Reachable InqInit InqStep s) (L : Nat) :
    FirstGap (rangesAt s.received L) (s.recvOffset L) := by
  have hinv := cryptoInv_reachable h
  refine firstGap_of_kept (hinv.core.below L) (hinv.held.kept L) (fun q hq => ?_)
  obtain ⟨g, hg, rfl, rfl⟩ := mem_rangesAt.1 hq
  exact hinv.held.beyond g hg

theorem quicInqHandshake_recv_offset_first_gap_reordered :
    let s : QuicInqCrypto := [QuicInqCall.crypto 2 [5, 3, 7, 8, 9] true true (fun _ => true)
        ⟨true, 0, []⟩,
      .crypto 2 [0, 5, 1, 2, 3, 4, 5] true true (fun _ => true) ⟨true, 0, []⟩].foldl QuicInqCall.apply
        (quicInqCryptoInit 0)
    Reachable InqInit InqStep s ∧ s.recvOffset 2 = 8 ∧
      FirstGap (rangesAt s.received 2) (s.recvOffset 2) := by
  intro s
  have h : Reachable InqInit InqStep s :=
    Reachable.foldl_of_allowedRun inqStep_of_allowed (Reachable.of_init ⟨0, rfl⟩) _ (by decide)
  exact ⟨h, by decide, quicInqHandshake_recv_offset_first_gap h 2⟩

-- What the user can still read of a handshake level on `recv_list` is the last part of what was
-- passed on at that level, in the same order: reads take it from the front, and nothing of it is
-- skipped or reordered by the events and data queued around it.
theorem quicInqHandshake_recvList_in_order {s : QuicInqCrypto}
    (h : Reachable InqInit InqStep s) {L : Nat} (hL : L ≠ 0) :
    (s.recvList.filter (·.level = L)).map (·.data) <:+ (passedAt s L).map (·.data) :=
  (cryptoInv_reachable h).core.queued L hL

theorem quicInqHandshake_recvList_in_order_read :
    let s : QuicInqCrypto := [QuicInqCall.crypto 2 [5, 3, 7, 8, 9] true true (fun _ => true)
        ⟨true, 0, []⟩,
      .crypto 2 [0, 5, 1, 2, 3, 4, 5] true true (fun _ => true) ⟨true, 0, []⟩, .read 1].foldl
        QuicInqCall.apply (quicInqCryptoInit 0)
    Reachable InqInit InqStep s ∧ (2 : Nat) ≠ 0 ∧ s.recvList.map (·.data) = [[7, 8, 9]] ∧
      (s.recvList.filter (·.level = 2)).map (·.data) <:+ (passedAt s 2).map (·.data) := by
  intro s
  have h : Reachable InqInit InqStep s :=
    Reachable.foldl_of_allowedRun inqStep_of_allowed (Reachable.of_init ⟨0, rfl⟩) _ (by decide)
  exact ⟨h, by decide, by decide, quicInqHandshake_recvList_in_order h (by decide)⟩

/-! ## The session ticket event -/

end Quic.Handshake
