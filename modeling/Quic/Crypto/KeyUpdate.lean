import Quic.Frame.TransportParam

namespace Quic.Crypto

-- HKDF-Expand-Label labels of crypto.c.
def KEY_LABEL_V1 : String := "quic key"
def IV_LABEL_V1 : String := "quic iv"
def HP_KEY_LABEL_V1 : String := "quic hp"
def KU_LABEL_V1 : String := "quic ku"

def KEY_LABEL_V2 : String := "quicv2 key"
def IV_LABEL_V2 : String := "quicv2 iv"
def HP_KEY_LABEL_V2 : String := "quicv2 hp"
def KU_LABEL_V2 : String := "quicv2 ku"

-- The kernel crypto API as oracles that may fail, each giving the C return value (0 on
-- success): `hkdfExpand secret label` is `quic_crypto_hkdf_expand` with an empty context and
-- the bytes it writes, `aeadSetkey key` what `crypto_aead_setauthsize` and
-- `crypto_aead_setkey` return, `skcipherSetkey key` what `crypto_skcipher_setkey` returns, and
-- `aeadDecrypt key iv` what decrypting the payload of the packet at hand under that key and IV
-- returns.
structure QuicCryptoOracle where
  hkdfExpand : List UInt8 → String → List UInt8 × Int
  aeadSetkey : List UInt8 → Int
  skcipherSetkey : List UInt8 → Int
  aeadDecrypt : List UInt8 → List UInt8 → Int

-- An array of two entries indexed by the key phase bit.
def phaseGet {α : Type} (p : α × α) (phase : Bool) : α :=
  if phase then p.2 else p.1

def phaseSet {α : Type} (p : α × α) (phase : Bool) (a : α) : α × α :=
  if phase then (p.1, a) else (a, p.2)

@[simp] theorem phaseGet_phaseSet {α : Type} (p : α × α) (phase : Bool) (a : α) (q : Bool) :
    phaseGet (phaseSet p phase a) q = if q = phase then a else phaseGet p q := by
  cases phase <;> cases q <;> rfl

-- `struct quic_crypto` of one level: the header protection keys, the key set in each AEAD
-- transform and the IV of each key phase, the secrets of both directions, and the key update
-- bookkeeping. The cipher suite and its lengths are fixed and left out.
structure QuicCrypto where
  txHpKey : List UInt8
  rxHpKey : List UInt8
  txKey : List UInt8 × List UInt8
  rxKey : List UInt8 × List UInt8
  txSecret : List UInt8
  rxSecret : List UInt8
  txIv : List UInt8 × List UInt8
  rxIv : List UInt8 × List UInt8
  keyUpdateSendTime : Nat
  keyUpdateTime : Nat
  version : Nat
  keyPending : Bool
  sendReady : Bool
  recvReady : Bool
  keyPhase : Bool
  deriving DecidableEq, Repr

-- The key and IV `quic_crypto_encrypt` passes to the AEAD, and those `quic_crypto_decrypt`
-- passes for a packet of key phase `phase`.
def QuicCrypto.txKeys (crypto : QuicCrypto) : List UInt8 × List UInt8 :=
  (phaseGet crypto.txKey crypto.keyPhase, phaseGet crypto.txIv crypto.keyPhase)

def QuicCrypto.rxKeys (crypto : QuicCrypto) (phase : Bool) : List UInt8 × List UInt8 :=
  (phaseGet crypto.rxKey phase, phaseGet crypto.rxIv phase)

-- What later calls encrypt and decrypt under at the current key phase: the phase, both
-- secrets, and the keys and IVs of that phase.
def QuicCrypto.keys (crypto : QuicCrypto) :
    Bool × List UInt8 × List UInt8 × (List UInt8 × List UInt8) × (List UInt8 × List UInt8) :=
  (crypto.keyPhase, crypto.txSecret, crypto.rxSecret, crypto.txKeys, crypto.rxKeys crypto.keyPhase)

-- `quic_crypto_keys_derive_and_install` for one direction at the current key phase. The IV is
-- derived straight into its slot, the AEAD key is set once derived, and the header protection
-- key is derived and set only outside a key update. A failed HKDF-Expand is taken to leave its
-- output as it was.
def quicCryptoKeysDeriveAndInstall (o : QuicCryptoOracle) (crypto : QuicCrypto) (rx : Bool) :
    QuicCrypto × Int :=
  let phase := crypto.keyPhase
  let secret := if rx then crypto.rxSecret else crypto.txSecret
  let v2 := crypto.version = QUIC_VERSION_V2
  let (key, err) := o.hkdfExpand secret (if v2 then KEY_LABEL_V2 else KEY_LABEL_V1)
  if err ≠ 0 then (crypto, err) else
  let (iv, err) := o.hkdfExpand secret (if v2 then IV_LABEL_V2 else IV_LABEL_V1)
  if err ≠ 0 then (crypto, err) else
  let crypto := if rx then { crypto with rxIv := phaseSet crypto.rxIv phase iv }
    else { crypto with txIv := phaseSet crypto.txIv phase iv }
  let (hpKey, err) := if crypto.keyPending then ([], 0)
    else o.hkdfExpand secret (if v2 then HP_KEY_LABEL_V2 else HP_KEY_LABEL_V1)
  if err ≠ 0 then (crypto, err) else
  let err := o.aeadSetkey key
  if err ≠ 0 then (crypto, err) else
  let crypto := if rx then { crypto with rxKey := phaseSet crypto.rxKey phase key }
    else { crypto with txKey := phaseSet crypto.txKey phase key }
  if crypto.keyPending then (crypto, 0) else
  let err := o.skcipherSetkey hpKey
  if err ≠ 0 then (crypto, err)
  else if rx then ({ crypto with rxHpKey := hpKey }, 0)
  else ({ crypto with txHpKey := hpKey }, 0)

-- The label `quic_crypto_key_update` derives the next secrets with.
def quicCryptoKuLabel (version : Nat) : String :=
  if version = QUIC_VERSION_V2 then KU_LABEL_V2 else KU_LABEL_V1

-- `quic_crypto_key_update`: the next secrets of both directions and their keys, at the other
-- key phase. On an error the secrets, the phase and `key_pending` are restored; the slots of
-- the other phase already written stay written.
def quicCryptoKeyUpdate (o : QuicCryptoOracle) (crypto : QuicCrypto) : QuicCrypto × Int :=
  if crypto.keyPending ∨ !crypto.recvReady then (crypto, -EINVAL)
  else
    let label := quicCryptoKuLabel crypto.version
    let txSecret := crypto.txSecret
    let rxSecret := crypto.rxSecret
    let rollback (c : QuicCrypto) (err : Int) : QuicCrypto × Int :=
      ({ c with keyPending := false, txSecret := txSecret, rxSecret := rxSecret,
                keyPhase := !c.keyPhase }, err)
    let c := { crypto with keyPending := true, keyPhase := !crypto.keyPhase }
    let (tx, err) := o.hkdfExpand txSecret label
    if err ≠ 0 then rollback c err else
    let (c, err) := quicCryptoKeysDeriveAndInstall o { c with txSecret := tx } false
    if err ≠ 0 then rollback c err else
    let (rx, err) := o.hkdfExpand rxSecret label
    if err ≠ 0 then rollback c err else
    let (c, err) := quicCryptoKeysDeriveAndInstall o { c with rxSecret := rx } true
    if err ≠ 0 then rollback c err else (c, 0)

-- What `quic_crypto_decrypt` reads of the packet: `cb->resume` (the payload was decrypted
-- asynchronously) and what reading its packet number then returns, `cb->number_len` (0 while
-- the header is protected), what removing header protection returns (an error, or the Key
-- Phase bit it reveals), the bit already in `cb->key_phase`, and `cb->backlog` (process
-- context).
structure QuicDecryptSkb where
  resume : Bool
  numberErr : Int
  numberLen : Nat
  headerProtect : Except Int Bool
  keyPhase : Bool
  backlog : Bool
  deriving DecidableEq, Repr

-- The crypto state after `quic_crypto_decrypt`, what it returns, and what it leaves in
-- `cb->key_update` and `cb->errcode`.
structure QuicDecryptOut where
  crypto : QuicCrypto
  err : Int
  keyUpdate : Bool
  errcode : Nat
  deriving DecidableEq, Repr

-- The `out:` label: once a packet under the new keys is in and the old keys were kept for
-- `key_update_time` after the first packet sent under the new ones, they are dropped.
def quicCryptoRetainOldKeys (crypto : QuicCrypto) (phase : Bool) (now : Nat) : QuicCrypto :=
  if crypto.keyPending ∧ phase = crypto.keyPhase then
    let time := crypto.keyUpdateSendTime
    if time ≠ 0 ∧ toU64 ((now : Int) - time) ≥ crypto.keyUpdateTime then
      { crypto with keyPending := false, keyUpdateTime := 0 }
    else crypto
  else crypto

-- The payload decryption of `quic_crypto_decrypt` under the keys of the packet's phase. When
-- the old keys fail, the peer may have started another key update, so `key_pending` is cleared.
def quicCryptoDecryptPayload (o : QuicCryptoOracle) (crypto : QuicCrypto) (phase : Bool)
    (now : Nat) (keyUpdate : Bool) : QuicDecryptOut :=
  let err := o.aeadDecrypt (phaseGet crypto.rxKey phase) (phaseGet crypto.rxIv phase)
  if err ≠ 0 then
    if err = -EINPROGRESS then ⟨crypto, err, keyUpdate, 0⟩
    else if crypto.keyPending ∧ phase ≠ crypto.keyPhase then
      ⟨{ crypto with keyPending := false, keyUpdateTime := 0 }, err, keyUpdate, 0⟩
    else ⟨crypto, err, keyUpdate, 0⟩
  else ⟨quicCryptoRetainOldKeys crypto phase now, 0, keyUpdate, 0⟩

-- `quic_crypto_decrypt` at time `now`. rfc9001#section-6: a changed Key Phase bit starts a key
-- update before the packet is decrypted under the next keys.
def quicCryptoDecrypt (o : QuicCryptoOracle) (crypto : QuicCrypto) (skb : QuicDecryptSkb)
    (now : Nat) : QuicDecryptOut :=
  if skb.resume then
    if skb.numberErr ≠ 0 then ⟨crypto, skb.numberErr, false, 0⟩
    else ⟨quicCryptoRetainOldKeys crypto skb.keyPhase now, 0, false, 0⟩
  else
    match (if skb.numberLen = 0 then skb.headerProtect else .ok skb.keyPhase) with
    | .error err => ⟨crypto, err, false, 0⟩
    | .ok phase =>
      if phase ≠ crypto.keyPhase ∧ !crypto.keyPending then
        if !crypto.sendReady then ⟨crypto, -EINVAL, false, 0⟩
        else if !skb.backlog then ⟨crypto, -EKEYREVOKED, false, 0⟩
        else
          let (c, err) := quicCryptoKeyUpdate o crypto
          if err ≠ 0 then ⟨c, err, false, QUIC_TRANSPORT_ERROR_KEY_UPDATE⟩
          else quicCryptoDecryptPayload o c phase now true
      else quicCryptoDecryptPayload o crypto phase now false

/- What a key update touches. -/

-- `c` is `crypto` with at most the keys and IVs of key phase `phase` replaced.
structure QuicCrypto.Frame (crypto c : QuicCrypto) (phase : Bool) : Prop where
  eq : c = { crypto with txKey := c.txKey, rxKey := c.rxKey, txIv := c.txIv, rxIv := c.rxIv }
  txKey : phaseGet c.txKey (!phase) = phaseGet crypto.txKey (!phase)
  rxKey : phaseGet c.rxKey (!phase) = phaseGet crypto.rxKey (!phase)
  txIv : phaseGet c.txIv (!phase) = phaseGet crypto.txIv (!phase)
  rxIv : phaseGet c.rxIv (!phase) = phaseGet crypto.rxIv (!phase)

theorem QuicCrypto.Frame.refl (crypto : QuicCrypto) (phase : Bool) :
    crypto.Frame crypto phase :=
  ⟨rfl, rfl, rfl, rfl, rfl⟩

theorem QuicCrypto.Frame.trans {a b c : QuicCrypto} {phase : Bool} (hab : a.Frame b phase)
    (hbc : b.Frame c phase) : a.Frame c phase := by
  refine ⟨?_, hbc.txKey.trans hab.txKey, hbc.rxKey.trans hab.rxKey, hbc.txIv.trans hab.txIv,
    hbc.rxIv.trans hab.rxIv⟩
  rw [hbc.eq, hab.eq]

-- Inside a key update (`key_pending` set) deriving and installing the keys of one direction
-- writes only the slots of the current key phase, whatever the oracles return.
theorem quicCryptoKeysDeriveAndInstall_frame (o : QuicCryptoOracle) {crypto : QuicCrypto}
    (rx : Bool) {phase : Bool} (hpending : crypto.keyPending = true)
    (hphase : crypto.keyPhase = phase) :
    crypto.Frame (quicCryptoKeysDeriveAndInstall o crypto rx).1 phase := by
  subst hphase
  -- with `key_pending` set in the record itself, no header protection key is derived
  obtain ⟨txHpKey, rxHpKey, txKey, rxKey, txSecret, rxSecret, txIv, rxIv, sendTime, updateTime,
    version, keyPending, sendReady, recvReady, keyPhase⟩ := crypto
  dsimp only at hpending
  subst hpending
  unfold quicCryptoKeysDeriveAndInstall
  -- every way out leaves the record, with the IV and then the key of this phase written
  cases rx <;> simp only [Bool.false_eq_true, if_false, if_true] <;> split_ifs <;>
    exact ⟨rfl, by simp, by simp, by simp, by simp⟩

-- Inside a key update, deriving and installing one direction succeeds whenever HKDF-Expand and
-- setting the AEAD key do.
theorem quicCryptoKeysDeriveAndInstall_ok (o : QuicCryptoOracle) {crypto : QuicCrypto}
    (rx : Bool) (hkdf : ∀ secret label, (o.hkdfExpand secret label).2 = 0)
    (hsetkey : ∀ key, o.aeadSetkey key = 0) (hpending : crypto.keyPending = true) :
    (quicCryptoKeysDeriveAndInstall o crypto rx).2 = 0 := by
  obtain ⟨txHpKey, rxHpKey, txKey, rxKey, txSecret, rxSecret, txIv, rxIv, sendTime, updateTime,
    version, keyPending, sendReady, recvReady, keyPhase⟩ := crypto
  dsimp only at hpending
  subst hpending
  unfold quicCryptoKeysDeriveAndInstall
  cases rx <;> simp [hkdf, hsetkey]

theorem QuicCrypto.Frame.setRxSecret {a b : QuicCrypto} {phase : Bool} (h : a.Frame b phase)
    (rx : List UInt8) : ({ a with rxSecret := rx } : QuicCrypto).Frame { b with rxSecret := rx } phase :=
  ⟨by rw [h.eq], h.txKey, h.rxKey, h.txIv, h.rxIv⟩

-- The `err:` label of `quic_crypto_key_update` undoes everything but the slots of the phase it
-- was installing.
theorem QuicCrypto.Frame.rollback {crypto c : QuicCrypto} {tx rx : List UInt8}
    (hpending : crypto.keyPending = false)
    (h : ({ crypto with keyPending := true, keyPhase := !crypto.keyPhase, txSecret := tx,
                        rxSecret := rx } : QuicCrypto).Frame c (!crypto.keyPhase)) :
    crypto.Frame { c with keyPending := false, txSecret := crypto.txSecret,
                          rxSecret := crypto.rxSecret, keyPhase := !c.keyPhase }
      (!crypto.keyPhase) := by
  obtain ⟨heq, htxKey, hrxKey, htxIv, hrxIv⟩ := h
  rw [Bool.not_not] at htxKey hrxKey htxIv hrxIv
  refine ⟨?_, ?_, ?_, ?_, ?_⟩
  · rw [heq]
    clear heq htxKey hrxKey htxIv hrxIv
    cases crypto
    dsimp only at hpending ⊢
    subst hpending
    simp
  all_goals simpa using ‹_›

-- What `quic_crypto_key_update` leaves: after an error, the state it started from but for the
-- slots of the other key phase; after a success, the next secrets at the other phase, with
-- the slots of the current phase (the old keys) kept.
theorem quicCryptoKeyUpdate_cases (o : QuicCryptoOracle) (crypto : QuicCrypto) :
    let label := quicCryptoKuLabel crypto.version
    ((quicCryptoKeyUpdate o crypto).2 ≠ 0 ∧
      crypto.Frame (quicCryptoKeyUpdate o crypto).1 (!crypto.keyPhase)) ∨
    ((quicCryptoKeyUpdate o crypto).2 = 0 ∧ crypto.keyPending = false ∧
      ({ crypto with keyPending := true, keyPhase := !crypto.keyPhase,
                     txSecret := (o.hkdfExpand crypto.txSecret label).1,
                     rxSecret := (o.hkdfExpand crypto.rxSecret label).1 } : QuicCrypto).Frame
        (quicCryptoKeyUpdate o crypto).1 (!crypto.keyPhase)) := by
  intro label
  unfold quicCryptoKeyUpdate
  by_cases hrefuse : crypto.keyPending = true ∨ (!crypto.recvReady) = true
  · rw [if_pos hrefuse]
    exact .inl ⟨by unfold EINVAL; omega, .refl _ _⟩
  rw [if_neg hrefuse]
  have hpending : crypto.keyPending = false := by
    simpa using (not_or.mp hrefuse).1
  dsimp only
  -- the record with `key_pending` set and the phase turned, at the secrets derived so far
  have hc0 := QuicCrypto.Frame.refl
    ({ crypto with keyPending := true, keyPhase := !crypto.keyPhase } : QuicCrypto) (!crypto.keyPhase)
  have htx := @quicCryptoKeysDeriveAndInstall_frame o
    { crypto with keyPending := true, keyPhase := !crypto.keyPhase,
                  txSecret := (o.hkdfExpand crypto.txSecret label).1 } false (!crypto.keyPhase) rfl rfl
  split_ifs with h1 h2 h3 h4
  · exact .inl ⟨h1, .rollback hpending hc0⟩
  · exact .inl ⟨h2, .rollback hpending htx⟩
  · exact .inl ⟨h3, .rollback hpending htx⟩
  · -- the receive keys failed after the send keys were installed
    exact .inl ⟨h4, .rollback hpending ((htx.setRxSecret _).trans
      (quicCryptoKeysDeriveAndInstall_frame o true (by rw [htx.eq]) (by rw [htx.eq])))⟩
  · exact .inr ⟨rfl, hpending, (htx.setRxSecret _).trans
      (quicCryptoKeysDeriveAndInstall_frame o true (by rw [htx.eq]) (by rw [htx.eq]))⟩

-- A key update that is allowed goes through whenever the oracles it calls succeed.
theorem quicCryptoKeyUpdate_ok (o : QuicCryptoOracle) (crypto : QuicCrypto)
    (hkdf : ∀ secret label, (o.hkdfExpand secret label).2 = 0)
    (hsetkey : ∀ key, o.aeadSetkey key = 0) (hpending : crypto.keyPending = false)
    (hrecv : crypto.recvReady = true) :
    (quicCryptoKeyUpdate o crypto).2 = 0 := by
  have htx := @quicCryptoKeysDeriveAndInstall_frame o
    { crypto with keyPending := true, keyPhase := !crypto.keyPhase,
                  txSecret := (o.hkdfExpand crypto.txSecret (quicCryptoKuLabel crypto.version)).1 }
    false (!crypto.keyPhase) rfl rfl
  unfold quicCryptoKeyUpdate
  rw [if_neg (by simp [hpending, hrecv])]
  dsimp only
  rw [if_neg (not_not.mpr (hkdf _ _)),
    if_neg (not_not.mpr (quicCryptoKeysDeriveAndInstall_ok o false hkdf hsetkey rfl)),
    if_neg (not_not.mpr (hkdf _ _)),
    if_neg (not_not.mpr (quicCryptoKeysDeriveAndInstall_ok o true hkdf hsetkey (by rw [htx.eq])))]

theorem QuicCrypto.Frame.keys_eq {crypto c : QuicCrypto} (h : crypto.Frame c (!crypto.keyPhase)) :
    c.keys = crypto.keys := by
  have htxKey := h.txKey
  have htxIv := h.txIv
  have hrxKey := h.rxKey
  have hrxIv := h.rxIv
  rw [Bool.not_not] at htxKey htxIv hrxKey hrxIv
  rw [h.eq]
  simp [QuicCrypto.keys, QuicCrypto.txKeys, QuicCrypto.rxKeys, htxKey, htxIv, hrxKey, hrxIv]

-- Only the bookkeeping of a finished key update changes once the packet's keys are chosen.
theorem quicCryptoRetainOldKeys_eq (crypto : QuicCrypto) (phase : Bool) (now : Nat) :
    ∃ pending time, quicCryptoRetainOldKeys crypto phase now =
      { crypto with keyPending := pending, keyUpdateTime := time } := by
  unfold quicCryptoRetainOldKeys
  dsimp only
  split_ifs
  · exact ⟨false, 0, rfl⟩
  · exact ⟨crypto.keyPending, crypto.keyUpdateTime, rfl⟩
  · exact ⟨crypto.keyPending, crypto.keyUpdateTime, rfl⟩

theorem quicCryptoDecryptPayload_eq (o : QuicCryptoOracle) (crypto : QuicCrypto) (phase : Bool)
    (now : Nat) (keyUpdate : Bool) :
    (quicCryptoDecryptPayload o crypto phase now keyUpdate).keyUpdate = keyUpdate ∧
      ∃ pending time, (quicCryptoDecryptPayload o crypto phase now keyUpdate).crypto =
        { crypto with keyPending := pending, keyUpdateTime := time } := by
  unfold quicCryptoDecryptPayload
  dsimp only
  split_ifs
  · exact ⟨rfl, crypto.keyPending, crypto.keyUpdateTime, rfl⟩
  · exact ⟨rfl, false, 0, rfl⟩
  · exact ⟨rfl, crypto.keyPending, crypto.keyUpdateTime, rfl⟩
  · exact ⟨rfl, quicCryptoRetainOldKeys_eq crypto phase now⟩

-- The three ways `quic_crypto_decrypt` ends for the keys: no key update is tried (only the
-- bookkeeping of an earlier one may be cleared), one is tried and rolled back, or one is
-- installed and the packet then decrypted or not.
theorem quicCryptoDecrypt_cases (o : QuicCryptoOracle) (crypto : QuicCrypto)
    (skb : QuicDecryptSkb) (now : Nat) :
    ((quicCryptoDecrypt o crypto skb now).keyUpdate = false ∧ ∃ pending time,
      (quicCryptoDecrypt o crypto skb now).crypto =
        { crypto with keyPending := pending, keyUpdateTime := time }) ∨
    ((quicCryptoDecrypt o crypto skb now).keyUpdate = false ∧ crypto.keyPending = false ∧
      crypto.Frame (quicCryptoDecrypt o crypto skb now).crypto (!crypto.keyPhase)) ∨
    ((quicCryptoDecrypt o crypto skb now).keyUpdate = true ∧
      (quicCryptoKeyUpdate o crypto).2 = 0 ∧ ∃ pending time,
        (quicCryptoDecrypt o crypto skb now).crypto =
          { (quicCryptoKeyUpdate o crypto).1 with keyPending := pending, keyUpdateTime := time }) := by
  have hsame : ∃ pending time, crypto = { crypto with keyPending := pending, keyUpdateTime := time } :=
    ⟨crypto.keyPending, crypto.keyUpdateTime, rfl⟩
  unfold quicCryptoDecrypt
  by_cases hresume : skb.resume = true
  · rw [if_pos hresume]
    split_ifs
    · exact .inl ⟨rfl, hsame⟩
    · exact .inl ⟨rfl, quicCryptoRetainOldKeys_eq crypto skb.keyPhase now⟩
  rw [if_neg hresume]
  generalize (if skb.numberLen = 0 then skb.headerProtect else .ok skb.keyPhase) = header
  rcases header with err | phase
  · exact .inl ⟨rfl, hsame⟩
  dsimp only
  split_ifs with hupdate hsend hbacklog hkey
  · exact .inl ⟨rfl, hsame⟩
  · exact .inl ⟨rfl, hsame⟩
  · -- the key update failed and was rolled back
    have hpending : crypto.keyPending = false := by simpa using hupdate.2
    rcases quicCryptoKeyUpdate_cases o crypto with ⟨-, hframe⟩ | ⟨hok, -⟩
    · exact .inr (.inl ⟨rfl, hpending, hframe⟩)
    · exact absurd hok hkey
  · obtain ⟨hk, hc⟩ := quicCryptoDecryptPayload_eq o (quicCryptoKeyUpdate o crypto).1 phase now true
    exact .inr (.inr ⟨hk, not_not.mp hkey, hc⟩)
  · obtain ⟨hk, hc⟩ := quicCryptoDecryptPayload_eq o crypto phase now false
    exact .inl ⟨hk, hc⟩

-- A packet that brings no key update, failed or not, leaves the key phase, the secrets and the
-- keys and IVs of the current phase as they were, and while old keys are kept (`key_pending`),
-- those too.
theorem quicCryptoDecrypt_keys_of_no_update (o : QuicCryptoOracle) (crypto : QuicCrypto)
    (skb : QuicDecryptSkb) (now : Nat)
    (hupdate : (quicCryptoDecrypt o crypto skb now).keyUpdate = false) :
    (quicCryptoDecrypt o crypto skb now).crypto.keys = crypto.keys ∧
      (crypto.keyPending = true → (quicCryptoDecrypt o crypto skb now).crypto.rxKeys
        (!crypto.keyPhase) = crypto.rxKeys (!crypto.keyPhase)) := by
  rcases quicCryptoDecrypt_cases o crypto skb now with ⟨-, pending, time, h⟩ | ⟨-, hpending, hframe⟩ |
    ⟨hk, -⟩
  · rw [h]
    exact ⟨rfl, fun _ => rfl⟩
  · refine ⟨hframe.keys_eq, fun h => ?_⟩
    rw [hpending] at h
    cases h
  · rw [hupdate] at hk
    cases hk

-- A packet whose Key Phase bit reads flipped starts a key update before its payload is
-- authenticated, and when the payload then fails under the next keys nothing is rolled back:
-- the phase stays turned and the secrets replaced, with `key_pending` set.
theorem quicCryptoDecrypt_forged_phase_updates_keys (o : QuicCryptoOracle) (crypto : QuicCrypto)
    (skb : QuicDecryptSkb) (now : Nat)
    (hkdf : ∀ secret label, (o.hkdfExpand secret label).2 = 0)
    (hsetkey : ∀ key, o.aeadSetkey key = 0)
    (hforged : ∀ key iv, o.aeadDecrypt key iv = -EBADMSG)
    (hready : crypto.sendReady = true) (hrecv : crypto.recvReady = true)
    (hpending : crypto.keyPending = false) (hresume : skb.resume = false)
    (hnumber : skb.numberLen = 0) (hheader : skb.headerProtect = .ok (!crypto.keyPhase))
    (hbacklog : skb.backlog = true) :
    (quicCryptoDecrypt o crypto skb now).err = -EBADMSG ∧
      (quicCryptoDecrypt o crypto skb now).crypto.keyPhase = !crypto.keyPhase ∧
      (quicCryptoDecrypt o crypto skb now).crypto.keyPending = true ∧
      (quicCryptoDecrypt o crypto skb now).crypto.txSecret =
        (o.hkdfExpand crypto.txSecret (quicCryptoKuLabel crypto.version)).1 ∧
      (quicCryptoDecrypt o crypto skb now).crypto.rxSecret =
        (o.hkdfExpand crypto.rxSecret (quicCryptoKuLabel crypto.version)).1 := by
  have hok := quicCryptoKeyUpdate_ok o crypto hkdf hsetkey hpending hrecv
  -- the update is installed: the next secrets at the other phase, with `key_pending` set
  obtain ⟨-, -, hframe⟩ := (quicCryptoKeyUpdate_cases o crypto).resolve_left (fun h => h.1 hok)
  have hphase : (quicCryptoKeyUpdate o crypto).1.keyPhase = !crypto.keyPhase := by
    rw [hframe.eq]
  -- the payload then fails under the new keys, and the phases now agree, so `key_pending` stays
  have hpayload : quicCryptoDecryptPayload o (quicCryptoKeyUpdate o crypto).1 (!crypto.keyPhase)
      now true = ⟨(quicCryptoKeyUpdate o crypto).1, -EBADMSG, true, 0⟩ := by
    unfold quicCryptoDecryptPayload
    rw [hforged, if_pos (by unfold EBADMSG; omega), if_neg (by unfold EBADMSG EINPROGRESS; omega),
      if_neg (by simp [hphase])]
  have hdecrypt : quicCryptoDecrypt o crypto skb now =
      ⟨(quicCryptoKeyUpdate o crypto).1, -EBADMSG, true, 0⟩ := by
    unfold quicCryptoDecrypt
    rw [if_neg (by simp [hresume]), if_pos hnumber, hheader]
    dsimp only
    rw [if_pos ⟨by simp, by simp [hpending]⟩, if_neg (by simp [hready]),
      if_neg (by simp [hbacklog]), if_neg (not_not.mpr hok), hpayload]
  rw [hdecrypt]
  refine ⟨rfl, hphase, ?_, ?_, ?_⟩ <;> rw [hframe.eq]

-- A packet of flipped phase under an AEAD that refuses every key, on a fresh 1-RTT state.
theorem quicCryptoDecrypt_forged_phase_example :
    (quicCryptoDecrypt ⟨fun secret _ => (0 :: secret, 0), fun _ => 0, fun _ => 0,
        fun _ _ => -EBADMSG⟩
      ⟨[], [], ([1], [1]), ([2], [2]), [3], [4], ([5], [5]), ([6], [6]), 0, 0, QUIC_VERSION_V1,
        false, true, true, false⟩
      ⟨false, 0, 0, .ok true, true, true⟩ 0).err = -EBADMSG ∧
    (quicCryptoDecrypt ⟨fun secret _ => (0 :: secret, 0), fun _ => 0, fun _ => 0,
        fun _ _ => -EBADMSG⟩
      ⟨[], [], ([1], [1]), ([2], [2]), [3], [4], ([5], [5]), ([6], [6]), 0, 0, QUIC_VERSION_V1,
        false, true, true, false⟩
      ⟨false, 0, 0, .ok true, true, true⟩ 0).crypto.keyPhase = true ∧
    (quicCryptoDecrypt ⟨fun secret _ => (0 :: secret, 0), fun _ => 0, fun _ => 0,
        fun _ _ => -EBADMSG⟩
      ⟨[], [], ([1], [1]), ([2], [2]), [3], [4], ([5], [5]), ([6], [6]), 0, 0, QUIC_VERSION_V1,
        false, true, true, false⟩
      ⟨false, 0, 0, .ok true, true, true⟩ 0).crypto.keyPending = true ∧
    (quicCryptoDecrypt ⟨fun secret _ => (0 :: secret, 0), fun _ => 0, fun _ => 0,
        fun _ _ => -EBADMSG⟩
      ⟨[], [], ([1], [1]), ([2], [2]), [3], [4], ([5], [5]), ([6], [6]), 0, 0, QUIC_VERSION_V1,
        false, true, true, false⟩
      ⟨false, 0, 0, .ok true, true, true⟩ 0).crypto.txSecret = [0, 3] ∧
    (quicCryptoDecrypt ⟨fun secret _ => (0 :: secret, 0), fun _ => 0, fun _ => 0,
        fun _ _ => -EBADMSG⟩
      ⟨[], [], ([1], [1]), ([2], [2]), [3], [4], ([5], [5]), ([6], [6]), 0, 0, QUIC_VERSION_V1,
        false, true, true, false⟩
      ⟨false, 0, 0, .ok true, true, true⟩ 0).crypto.rxSecret = [0, 4] :=
  quicCryptoDecrypt_forged_phase_updates_keys _ _ _ 0 (fun _ _ => rfl) (fun _ => rfl)
    (fun _ _ => rfl) rfl rfl rfl rfl rfl rfl rfl

end Quic.Crypto
