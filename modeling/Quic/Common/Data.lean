import Quic.Common.Basic

namespace Quic

/-! Lists of length-prefixed byte strings (`struct quic_data` in common.c): the ALPN list of a
socket is stored in this form, converted from and to the comma-separated string that the
socket options carry. -/

def EOVERFLOW : Int := 75

def QUIC_ALPN_MAX_LEN : Nat := 128

/-! ## `quic_data_has`, `quic_data_match` -/

-- The list form: each element a one-byte length followed by its bytes.
def quicDataList (names : List (List UInt8)) : List UInt8 :=
  names.flatMap fun d => UInt8.ofNat d.length :: d

-- `quic_data_cmp(&d, d2)` is zero exactly when the lengths and the bytes agree.
def quicDataHas (d1 d2 : List UInt8) : Bool :=
  match d1 with
  | [] => false
  | length :: p =>
    if p.length < length.toNat then false
    else if p.take length.toNat = d2 then true
    else quicDataHas (p.drop length.toNat) d2
termination_by d1.length

def quicDataMatch (d1 d2 : List UInt8) : Bool :=
  match d1 with
  | [] => false
  | length :: p =>
    if p.length < length.toNat then false
    else if quicDataHas d2 (p.take length.toNat) then true
    else quicDataMatch (p.drop length.toNat) d2
termination_by d1.length

/-! ## `quic_data_to_string` -/

-- The bytes written to `to` and the return value, from `remlen = *plen` bytes of room.
def quicDataToString (remlen : Nat) (input : List UInt8) : List UInt8 × Int :=
  match input with
  | [] => ([], 0)
  | length :: p =>
    if p.length < length.toNat then ([], -EINVAL)
    else if remlen < length.toNat then ([], -EOVERFLOW)
    else
      let d := p.take length.toNat
      let rest := p.drop length.toNat
      if rest = [] then (d, 0)
      else if remlen - length.toNat = 0 then (d, -EOVERFLOW)
      else
        let r := quicDataToString (remlen - length.toNat - 1) rest
        (d ++ 44 :: r.1, r.2)
termination_by input.length

/-! ## `quic_data_from_string` -/

-- The inner loop: the bytes of one name up to a ',' (consumed) or the end of the input, each
-- taking a byte of room. It gives the name, the input left, the room left and the error.
def quicDataFromStringName (input : List UInt8) (remlen : Nat) :
    List UInt8 × List UInt8 × Nat × Int :=
  match input with
  | [] => ([], [], remlen, 0)
  | c :: input =>
    if c = 44 then ([], input, remlen, 0)
    else if remlen = 0 then ([], c :: input, 0, -EOVERFLOW)
    else
      let r := quicDataFromStringName input (remlen - 1)
      (c :: r.1, r.2)

-- What the caller holds after `quic_data_from_string`: the bytes from `to->data` up to the
-- write position (a length slot not yet filled keeps the zero of `kzalloc`), `to->len`, and the
-- return value.
structure QuicDataFromString where
  buf : List UInt8
  len : Nat
  err : Int
  deriving DecidableEq, Repr

theorem quicDataFromStringName_room (input : List UInt8) (remlen : Nat) :
    (quicDataFromStringName input remlen).1.length + (quicDataFromStringName input remlen).2.2.1 =
      remlen := by
  induction input generalizing remlen with
  | nil => simp [quicDataFromStringName]
  | cons c input ih =>
    unfold quicDataFromStringName
    split_ifs with hc h0
    · simp
    · simp [h0]
    · have := ih (remlen - 1)
      simp only [List.length_cons]
      omega

theorem quicDataFromStringName_rest_lt {input : List UInt8} {remlen : Nat} (hne : input ≠ [])
    (herr : (quicDataFromStringName input remlen).2.2.2 = 0) :
    (quicDataFromStringName input remlen).2.1.length < input.length := by
  induction input generalizing remlen with
  | nil => exact absurd rfl hne
  | cons c input ih =>
    unfold quicDataFromStringName at herr ⊢
    split_ifs at herr ⊢ with hc h0
    · simp
    · simp [EOVERFLOW] at herr
    · cases input with
      | nil => simp [quicDataFromStringName]
      | cons c' input' =>
        have := ih (List.cons_ne_nil c' input') herr
        simp only [List.length_cons] at this ⊢
        omega

-- The outer loop: spaces before a name are skipped, a byte is kept for its length, and the
-- length is written once the name is complete and at most `U8_MAX` long.
def quicDataFromStringLoop (input : List UInt8) (remlen : Nat) : QuicDataFromString :=
  match h : input.dropWhile (· == 32) with
  | [] => ⟨[], 0, 0⟩
  | c :: cs =>
    if remlen = 0 then ⟨[], 0, -EOVERFLOW⟩
    else
      let r := quicDataFromStringName (c :: cs) (remlen - 1)
      if herr : r.2.2.2 ≠ 0 then ⟨0 :: r.1, 0, r.2.2.2⟩
      else if 255 < r.1.length then ⟨0 :: r.1, 0, -EINVAL⟩
      else
        let t := quicDataFromStringLoop r.2.1 r.2.2.1
        ⟨UInt8.ofNat r.1.length :: r.1 ++ t.buf, r.1.length + 1 + t.len, t.err⟩
termination_by input.length
decreasing_by
  have hlt := quicDataFromStringName_rest_lt (List.cons_ne_nil c cs) (not_not.mp herr)
  have hle := List.length_dropWhile_le (· == 32) input
  rw [h] at hle
  omega

-- `remlen` is the `to->len` the caller set: the room in `to->data`.
def quicDataFromString (toLen : Nat) (input : List UInt8) : QuicDataFromString :=
  quicDataFromStringLoop input toLen

-- The comma-separated form of a list of names.
def alpnString (names : List (List UInt8)) : List UInt8 :=
  List.intercalate [44] names

-- A name the string form carries unchanged: 1 to 255 bytes, no ',' and no leading ' '.
def AlpnName (d : List UInt8) : Prop :=
  0 < d.length ∧ d.length ≤ 255 ∧ 44 ∉ d ∧ d.head? ≠ some 32

instance : DecidablePred AlpnName := fun _ => inferInstanceAs (Decidable (_ ∧ _ ∧ _ ∧ _))

/-! ## The list form -/

@[simp] theorem quicDataList_nil : quicDataList [] = [] := rfl

@[simp] theorem quicDataList_cons (d : List UInt8) (names : List (List UInt8)) :
    quicDataList (d :: names) = UInt8.ofNat d.length :: (d ++ quicDataList names) := by
  simp [quicDataList]

theorem toNat_ofNat_length {d : List UInt8} (hd : d.length ≤ 255) :
    (UInt8.ofNat d.length).toNat = d.length :=
  UInt8.toNat_ofNat_of_lt' (by change d.length < 256; omega)

-- One element of the list form, read by the loops of `quic_data_has` and the others: the
-- length byte is the element's length, and the element and the rest lie behind it.
theorem take_drop_element {d : List UInt8} (hd : d.length ≤ 255) (tail : List UInt8) :
    ¬(d ++ tail).length < (UInt8.ofNat d.length).toNat ∧
      (d ++ tail).take (UInt8.ofNat d.length).toNat = d ∧
      (d ++ tail).drop (UInt8.ofNat d.length).toNat = tail := by
  rw [toNat_ofNat_length hd]
  exact ⟨by simp, List.take_left' rfl, List.drop_left' rfl⟩

theorem quicDataHas_element {d : List UInt8} (hd : d.length ≤ 255) (tail d2 : List UInt8) :
    quicDataHas (UInt8.ofNat d.length :: (d ++ tail)) d2 = (d = d2 || quicDataHas tail d2) := by
  obtain ⟨hlen, htake, hdrop⟩ := take_drop_element hd tail
  rw [quicDataHas, if_neg hlen, htake, hdrop]
  by_cases h : d = d2 <;> simp [h]

theorem quicDataHas_quicDataList {names : List (List UInt8)} (hnames : ∀ d ∈ names, d.length ≤ 255)
    (d2 : List UInt8) : quicDataHas (quicDataList names) d2 = true ↔ d2 ∈ names := by
  induction names with
  | nil => simp [quicDataHas]
  | cons d names ih =>
    rw [quicDataList_cons, quicDataHas_element (hnames d List.mem_cons_self),
      Bool.or_eq_true, ih (fun x hx => hnames x (List.mem_cons_of_mem _ hx))]
    simp [eq_comm]

theorem quicDataMatch_element {d : List UInt8} (hd : d.length ≤ 255) (tail d2 : List UInt8) :
    quicDataMatch (UInt8.ofNat d.length :: (d ++ tail)) d2 =
      (quicDataHas d2 d || quicDataMatch tail d2) := by
  obtain ⟨hlen, htake, hdrop⟩ := take_drop_element hd tail
  rw [quicDataMatch, if_neg hlen, htake, hdrop]
  cases quicDataHas d2 d <;> simp

theorem quicDataMatch_quicDataList {n1 n2 : List (List UInt8)} (h1 : ∀ d ∈ n1, d.length ≤ 255)
    (h2 : ∀ d ∈ n2, d.length ≤ 255) :
    quicDataMatch (quicDataList n1) (quicDataList n2) = true ↔ ∃ d ∈ n1, d ∈ n2 := by
  induction n1 with
  | nil => simp [quicDataMatch]
  | cons d n1 ih =>
    rw [quicDataList_cons, quicDataMatch_element (h1 d List.mem_cons_self), Bool.or_eq_true,
      quicDataHas_quicDataList h2, ih (fun x hx => h1 x (List.mem_cons_of_mem _ hx))]
    simp

/-! ## From the string form -/

theorem quicDataFromStringName_append {d : List UInt8} (hd : 44 ∉ d) (tail : List UInt8) :
    ∀ {remlen : Nat}, d.length ≤ remlen →
      quicDataFromStringName (d ++ tail) remlen =
        let r := quicDataFromStringName tail (remlen - d.length)
        (d ++ r.1, r.2) := by
  induction d with
  | nil => simp
  | cons c d ih =>
    intro remlen hroom
    have hc : c ≠ 44 := fun h => hd (h ▸ List.mem_cons_self)
    simp only [List.length_cons] at hroom
    have hnext := ih (fun h => hd (List.mem_cons_of_mem _ h)) (show d.length ≤ remlen - 1 by omega)
    rw [List.cons_append, quicDataFromStringName, if_neg hc, if_neg (by omega), hnext,
      Nat.sub_sub, Nat.add_comm 1]
    rfl

-- A name ends at a ',' or at the end of the input.
theorem quicDataFromStringName_of_sep {rest : List UInt8} (hsep : ∀ c ∈ rest.head?, c = 44)
    (remlen : Nat) : quicDataFromStringName rest remlen = ([], rest.tail, remlen, 0) := by
  cases rest with
  | nil => rfl
  | cons c rest =>
    rw [hsep c rfl]
    rfl

theorem dropWhile_space_of_alpnName {d : List UInt8} (hd : AlpnName d) (tail : List UInt8) :
    (d ++ tail).dropWhile (· == 32) = d ++ tail := by
  obtain ⟨hpos, -, -, hspace⟩ := hd
  cases d with
  | nil => simp at hpos
  | cons c d =>
    have hc : c ≠ 32 := fun h => hspace (by rw [h]; rfl)
    exact List.dropWhile_cons_of_neg (by simpa using hc)

-- One name of the string form and the separator after it: the name is copied behind its
-- length byte, and the loop goes on after the separator with the room left.
theorem quicDataFromStringLoop_name {d rest : List UInt8} (hd : AlpnName d)
    (hsep : ∀ c ∈ rest.head?, c = 44) {remlen : Nat} (hroom : d.length < remlen) :
    quicDataFromStringLoop (d ++ rest) remlen =
      let t := quicDataFromStringLoop rest.tail (remlen - 1 - d.length)
      ⟨UInt8.ofNat d.length :: d ++ t.buf, d.length + 1 + t.len, t.err⟩ := by
  have hname := quicDataFromStringName_append hd.2.2.1 rest (show d.length ≤ remlen - 1 by omega)
  rw [quicDataFromStringName_of_sep hsep] at hname
  dsimp only at hname
  rw [List.append_nil] at hname
  rw [quicDataFromStringLoop]
  split
  · rename_i h
    rw [dropWhile_space_of_alpnName hd] at h
    have := congrArg List.length h
    simp only [List.length_append, List.length_nil] at this
    have := hd.1
    omega
  · rename_i c cs h
    rw [dropWhile_space_of_alpnName hd] at h
    rw [← h, if_neg (by omega), hname]
    simp only [ne_eq, not_true_eq_false, dite_false, if_neg (Nat.not_lt.mpr hd.2.1)]

theorem alpnString_cons (d : List UInt8) (names : List (List UInt8)) :
    ∃ rest, alpnString (d :: names) = d ++ rest ∧ (∀ c ∈ rest.head?, c = 44) ∧
      rest.tail = alpnString names := by
  cases names with
  | nil => exact ⟨[], by simp [alpnString], by simp, rfl⟩
  | cons e names => exact ⟨44 :: alpnString (e :: names), by simp [alpnString, List.intercalate_cons_cons], by simp, rfl⟩

theorem quicDataList_length_cons (d : List UInt8) (names : List (List UInt8)) :
    (quicDataList (d :: names)).length = d.length + 1 + (quicDataList names).length := by
  simp only [quicDataList_cons, List.length_cons, List.length_append]
  omega

-- A string of names, given room for the list form, is taken as that list.
theorem quicDataFromStringLoop_alpnString {names : List (List UInt8)}
    (hnames : ∀ d ∈ names, AlpnName d) :
    ∀ {remlen : Nat}, (quicDataList names).length ≤ remlen →
      quicDataFromStringLoop (alpnString names) remlen =
        ⟨quicDataList names, (quicDataList names).length, 0⟩ := by
  induction names with
  | nil =>
    intro remlen _
    rw [quicDataFromStringLoop]
    rfl
  | cons d names ih =>
    intro remlen hroom
    have hd := hnames d List.mem_cons_self
    obtain ⟨rest, hs, hsep, htail⟩ := alpnString_cons d names
    rw [quicDataList_length_cons] at hroom
    rw [hs, quicDataFromStringLoop_name hd hsep (by omega), htail,
      ih (fun x hx => hnames x (List.mem_cons_of_mem _ hx)) (by omega), quicDataList_length_cons,
      quicDataList_cons]
    rfl

theorem quicDataFromStringLoop_of_nil {input : List UInt8} (h : input.dropWhile (· == 32) = [])
    (remlen : Nat) : quicDataFromStringLoop input remlen = ⟨[], 0, 0⟩ := by
  rw [quicDataFromStringLoop]
  split
  · rfl
  · rename_i h'
    rw [h] at h'
    cases h'

theorem quicDataFromStringLoop_of_cons {input cs : List UInt8} {c : UInt8}
    (h : input.dropWhile (· == 32) = c :: cs) (remlen : Nat) :
    quicDataFromStringLoop input remlen =
      if remlen = 0 then ⟨[], 0, -EOVERFLOW⟩
      else
        let r := quicDataFromStringName (c :: cs) (remlen - 1)
        if r.2.2.2 ≠ 0 then ⟨0 :: r.1, 0, r.2.2.2⟩
        else if 255 < r.1.length then ⟨0 :: r.1, 0, -EINVAL⟩
        else
          let t := quicDataFromStringLoop r.2.1 r.2.2.1
          ⟨UInt8.ofNat r.1.length :: r.1 ++ t.buf, r.1.length + 1 + t.len, t.err⟩ := by
  rw [quicDataFromStringLoop]
  split
  · rename_i h'
    rw [h] at h'
    cases h'
  · rename_i c' cs' h'
    rw [h, List.cons.injEq] at h'
    obtain ⟨rfl, rfl⟩ := h'
    simp only [dite_eq_ite]

-- `quic_data_from_string` writes only where its room counter lets it: never more than the
-- `to->len` bytes the caller gave, whatever the input and however the loop ends.
theorem quicDataFromStringLoop_buf_length_le (input : List UInt8) (remlen : Nat) :
    (quicDataFromStringLoop input remlen).buf.length ≤ remlen := by
  induction input, remlen using quicDataFromStringLoop.induct with
  | case1 input remlen h => simp [quicDataFromStringLoop_of_nil h]
  | case2 input c cs h => simp [quicDataFromStringLoop_of_cons h]
  | case3 input remlen c cs h h0 r herr =>
    simp only [r] at herr
    have hroom := quicDataFromStringName_room (c :: cs) (remlen - 1)
    rw [quicDataFromStringLoop_of_cons h, if_neg h0]
    dsimp only
    rw [if_pos herr, List.length_cons]
    omega
  | case4 input remlen c cs h h0 r herr hlong =>
    simp only [r] at herr hlong
    have hroom := quicDataFromStringName_room (c :: cs) (remlen - 1)
    rw [quicDataFromStringLoop_of_cons h, if_neg h0]
    dsimp only
    rw [if_neg herr, if_pos hlong, List.length_cons]
    omega
  | case5 input remlen c cs h h0 r herr hshort ih =>
    simp only [r] at herr hshort ih
    have hroom := quicDataFromStringName_room (c :: cs) (remlen - 1)
    rw [quicDataFromStringLoop_of_cons h, if_neg h0]
    dsimp only
    rw [if_neg herr, if_neg hshort, List.cons_append, List.length_cons, List.length_append]
    omega

-- On success `to->len` counts exactly the bytes written.
theorem quicDataFromStringLoop_len (input : List UInt8) (remlen : Nat)
    (hok : (quicDataFromStringLoop input remlen).err = 0) :
    (quicDataFromStringLoop input remlen).buf.length = (quicDataFromStringLoop input remlen).len := by
  induction input, remlen using quicDataFromStringLoop.induct with
  | case1 input remlen h => simp [quicDataFromStringLoop_of_nil h]
  | case2 input c cs h => simp [quicDataFromStringLoop_of_cons h, EOVERFLOW] at hok
  | case3 input remlen c cs h h0 r herr =>
    simp only [r] at herr
    simp [quicDataFromStringLoop_of_cons h, h0, herr] at hok
  | case4 input remlen c cs h h0 r herr hlong =>
    simp only [r] at herr hlong
    simp [quicDataFromStringLoop_of_cons h, h0, herr, hlong, EINVAL] at hok
  | case5 input remlen c cs h h0 r herr hshort ih =>
    simp only [r] at herr hshort ih
    rw [quicDataFromStringLoop_of_cons h, if_neg h0] at hok ⊢
    dsimp only at hok ⊢
    rw [if_neg herr, if_neg hshort] at hok ⊢
    have := ih hok
    simp only [List.cons_append, List.length_cons, List.length_append]
    omega

/-! ## To the string form -/

theorem quicDataToString_element {d : List UInt8} (hd : d.length ≤ 255) (tail : List UInt8)
    {remlen : Nat} (hroom : d.length ≤ remlen) :
    quicDataToString remlen (UInt8.ofNat d.length :: (d ++ tail)) =
      if tail = [] then (d, 0)
      else if remlen - d.length = 0 then (d, -EOVERFLOW)
      else
        let r := quicDataToString (remlen - d.length - 1) tail
        (d ++ 44 :: r.1, r.2) := by
  obtain ⟨hlen, htake, hdrop⟩ := take_drop_element hd tail
  rw [quicDataToString, if_neg hlen, htake, hdrop, toNat_ofNat_length hd,
    if_neg (Nat.not_lt.mpr hroom)]

theorem alpnString_cons_cons (d e : List UInt8) (names : List (List UInt8)) :
    alpnString (d :: e :: names) = d ++ 44 :: alpnString (e :: names) := by
  simp [alpnString, List.intercalate_cons_cons]

-- The list form of names, written into room for the string form, gives that string back.
theorem quicDataToString_quicDataList {names : List (List UInt8)}
    (hnames : ∀ d ∈ names, d.length ≤ 255) :
    ∀ {remlen : Nat}, (alpnString names).length ≤ remlen →
      quicDataToString remlen (quicDataList names) = (alpnString names, 0) := by
  induction names with
  | nil =>
    intro remlen _
    rw [quicDataList_nil, quicDataToString]
    rfl
  | cons d names ih =>
    intro remlen hroom
    have hd := hnames d List.mem_cons_self
    cases names with
    | nil =>
      have hlen : d.length ≤ remlen := by simpa [alpnString] using hroom
      rw [quicDataList_cons, quicDataList_nil, quicDataToString_element hd [] hlen, if_pos rfl]
      simp [alpnString]
    | cons e names =>
      rw [alpnString_cons_cons] at hroom ⊢
      simp only [List.length_append, List.length_cons] at hroom
      rw [quicDataList_cons, quicDataToString_element hd _ (by omega),
        if_neg (by simp), if_neg (by omega),
        ih (fun x hx => hnames x (List.mem_cons_of_mem _ hx)) (by omega)]

-- The list form of names takes one byte more than the string form: a length byte for each
-- name against a ',' between two.
theorem quicDataList_length_alpnString {names : List (List UInt8)} (hne : names ≠ []) :
    (quicDataList names).length = (alpnString names).length + 1 := by
  induction names with
  | nil => exact absurd rfl hne
  | cons d names ih =>
    cases names with
    | nil => simp [alpnString]
    | cons e names =>
      rw [quicDataList_length_cons, ih (List.cons_ne_nil e names), alpnString_cons_cons]
      simp only [List.length_append, List.length_cons]
      omega

theorem quicDataList_length_le (names : List (List UInt8)) :
    (quicDataList names).length ≤ (alpnString names).length + 1 := by
  cases names with
  | nil => simp
  | cons d names => exact (quicDataList_length_alpnString (List.cons_ne_nil d names)).le

-- `quic_data_from_string` and `quic_data_to_string` agree on strings of names: the string
-- goes into the `len(s) + 1` bytes `quic_sock_set_alpn` allocates as its list of names, and
-- the list comes back out as the string into any room for it; from any string the conversion
-- writes no more than the `len + 1` bytes allocated; and on lists of names the two lookups
-- are membership and a shared element.
theorem quicDataAlpn_conversions_agree :
    (∀ names : List (List UInt8), (∀ d ∈ names, AlpnName d) →
      quicDataFromString ((alpnString names).length + 1) (alpnString names) =
          ⟨quicDataList names, (quicDataList names).length, 0⟩ ∧
        ∀ room, (alpnString names).length ≤ room →
          quicDataToString room (quicDataList names) = (alpnString names, 0)) ∧
    (∀ input : List UInt8, input.length ≤ QUIC_ALPN_MAX_LEN →
      (quicDataFromString (input.length + 1) input).buf.length ≤ input.length + 1) ∧
    (∀ (names : List (List UInt8)) (d : List UInt8), (∀ x ∈ names, x.length ≤ 255) →
      (quicDataHas (quicDataList names) d = true ↔ d ∈ names)) ∧
    (∀ n1 n2 : List (List UInt8), (∀ x ∈ n1, x.length ≤ 255) → (∀ x ∈ n2, x.length ≤ 255) →
      (quicDataMatch (quicDataList n1) (quicDataList n2) = true ↔ ∃ d ∈ n1, d ∈ n2)) := by
  refine ⟨fun names hnames => ⟨?_, fun room hroom => ?_⟩, fun input _ => ?_,
    fun names d hnames => quicDataHas_quicDataList hnames d,
    fun n1 n2 h1 h2 => quicDataMatch_quicDataList h1 h2⟩
  · exact quicDataFromStringLoop_alpnString hnames (quicDataList_length_le names)
  · exact quicDataToString_quicDataList (fun d hd => (hnames d hd).2.1) hroom
  · exact quicDataFromStringLoop_buf_length_le input (input.length + 1)

/-! ## The ALPN socket option -/

-- `quic_sock_set_alpn` on a socket listening or not, `alloc` whether `kzalloc` succeeds: the
-- new `quic_alpn(sk)`, its `len` bytes being those written (`quicDataFromStringLoop_len`).
def quicSockSetAlpn (listen alloc : Bool) (data : List UInt8) : Except Int (List UInt8) :=
  if data.length = 0 ∨ QUIC_ALPN_MAX_LEN < data.length ∨ listen then .error (-EINVAL)
  else if !alloc then .error (-ENOMEM)
  else
    let tmp := quicDataFromString (data.length + 1) data
    if tmp.err ≠ 0 then .error tmp.err else .ok tmp.buf

-- `quic_sock_get_alpn` with a user buffer of `len` bytes: the string copied out.
def quicSockGetAlpn (alpns : List UInt8) (len : Nat) : Except Int (List UInt8) :=
  if alpns.length = 0 then .ok []
  else if len < alpns.length then .error (-EINVAL)
  else
    let r := quicDataToString QUIC_ALPN_MAX_LEN alpns
    if r.2 ≠ 0 then .error r.2 else .ok r.1

-- Setting a string of names and reading it back gives the string, from a buffer as long as
-- the stored list: one byte more than the string, which `quic_sock_get_alpn` asks for though it
-- does not write it.
theorem quicSockAlpn_set_get {names : List (List UInt8)} (hnames : ∀ d ∈ names, AlpnName d)
    (hne : names ≠ []) (hmax : (alpnString names).length ≤ QUIC_ALPN_MAX_LEN) :
    quicSockSetAlpn false true (alpnString names) = .ok (quicDataList names) ∧
      ∀ len, (quicDataList names).length ≤ len →
        quicSockGetAlpn (quicDataList names) len = .ok (alpnString names) := by
  have hlen := quicDataList_length_alpnString hne
  have hfrom := quicDataFromStringLoop_alpnString hnames hlen.le
  have hto := quicDataToString_quicDataList (fun d hd => (hnames d hd).2.1) hmax
  constructor
  · have hpos : (alpnString names).length ≠ 0 := by
      obtain ⟨d, rest, rfl⟩ := List.exists_cons_of_ne_nil hne
      obtain ⟨r, hs, -, -⟩ := alpnString_cons d rest
      have := (hnames d List.mem_cons_self).1
      rw [hs, List.length_append]
      omega
    unfold quicSockSetAlpn quicDataFromString
    rw [if_neg (by simp [hpos, Nat.not_lt.mpr hmax]), hfrom]
    rfl
  · intro len hroom
    unfold quicSockGetAlpn
    rw [if_neg (by omega), if_neg (by omega), hto]
    rfl

end Quic
