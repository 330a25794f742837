import Quic.Common.Varint

namespace Quic

-- Transport parameter ids (frame.h) and the limits and defaults the two sides check against.
def QUIC_TRANSPORT_PARAM_ORIGINAL_DESTINATION_CONNECTION_ID : Nat := 0x0000
def QUIC_TRANSPORT_PARAM_MAX_IDLE_TIMEOUT : Nat := 0x0001
def QUIC_TRANSPORT_PARAM_STATELESS_RESET_TOKEN : Nat := 0x0002
def QUIC_TRANSPORT_PARAM_MAX_UDP_PAYLOAD_SIZE : Nat := 0x0003
def QUIC_TRANSPORT_PARAM_INITIAL_MAX_DATA : Nat := 0x0004
def QUIC_TRANSPORT_PARAM_INITIAL_MAX_STREAM_DATA_BIDI_LOCAL : Nat := 0x0005
def QUIC_TRANSPORT_PARAM_INITIAL_MAX_STREAM_DATA_BIDI_REMOTE : Nat := 0x0006
def QUIC_TRANSPORT_PARAM_INITIAL_MAX_STREAM_DATA_UNI : Nat := 0x0007
def QUIC_TRANSPORT_PARAM_INITIAL_MAX_STREAMS_BIDI : Nat := 0x0008
def QUIC_TRANSPORT_PARAM_INITIAL_MAX_STREAMS_UNI : Nat := 0x0009
def QUIC_TRANSPORT_PARAM_ACK_DELAY_EXPONENT : Nat := 0x000a
def QUIC_TRANSPORT_PARAM_MAX_ACK_DELAY : Nat := 0x000b
def QUIC_TRANSPORT_PARAM_DISABLE_ACTIVE_MIGRATION : Nat := 0x000c
def QUIC_TRANSPORT_PARAM_PREFERRED_ADDRESS : Nat := 0x000d
def QUIC_TRANSPORT_PARAM_ACTIVE_CONNECTION_ID_LIMIT : Nat := 0x000e
def QUIC_TRANSPORT_PARAM_INITIAL_SOURCE_CONNECTION_ID : Nat := 0x000f
def QUIC_TRANSPORT_PARAM_RETRY_SOURCE_CONNECTION_ID : Nat := 0x0010
def QUIC_TRANSPORT_PARAM_VERSION_INFORMATION : Nat := 0x11
def QUIC_TRANSPORT_PARAM_MAX_DATAGRAM_FRAME_SIZE : Nat := 0x0020
def QUIC_TRANSPORT_PARAM_GREASE_QUIC_BIT : Nat := 0x2ab2
def QUIC_TRANSPORT_PARAM_DISABLE_1RTT_ENCRYPTION : Nat := 0xbaad

def QUIC_VERSION_V1 : Nat := 0x1
def QUIC_VERSION_V2 : Nat := 0x6b3343cf
def QUIC_VERSION_LEN : Nat := 4
def QUIC_MAX_VERSIONS : Nat := 16

def QUIC_CONN_ID_MAX_LEN : Nat := 20
def QUIC_CONN_ID_TOKEN_LEN : Nat := 16
def QUIC_CONN_ID_LEAST : Nat := 2
def QUIC_CONN_ID_DEF : Nat := 7
def QUIC_CONN_ID_LIMIT : Nat := 8
def QUIC_PREF_ADDR_LEN : Nat := 24

def QUIC_MAX_ACK_DELAY : Nat := 16384 * 1000
def QUIC_DEF_ACK_DELAY : Nat := 25000
def QUIC_MAX_ACK_DELAY_EXPONENT : Nat := 20
def QUIC_DEF_ACK_DELAY_EXPONENT : Nat := 3
def QUIC_MIN_IDLE_TIMEOUT : Nat := 1000000
def QUIC_DEF_IDLE_TIMEOUT : Nat := 30000000
def QUIC_MAX_STREAMS : Nat := 4096
def QUIC_DEF_STREAMS : Nat := 100
def S32_MAX : Nat := 2 ^ 31 - 1

-- `struct quic_transport_param` (uapi quic.h); the u8 flags are read as truth values.
structure QuicTransportParam where
  remote : Bool
  disableActiveMigration : Bool
  greaseQuicBit : Bool
  statelessReset : Bool
  disable1rttEncryption : Bool
  disableCompatibleVersion : Bool
  activeConnectionIdLimit : Nat
  ackDelayExponent : Nat
  maxDatagramFrameSize : Nat
  maxUdpPayloadSize : Nat
  maxIdleTimeout : Nat
  maxAckDelay : Nat
  maxStreamsBidi : Nat
  maxStreamsUni : Nat
  maxData : Nat
  maxStreamDataBidiLocal : Nat
  maxStreamDataBidiRemote : Nat
  maxStreamDataUni : Nat
  deriving DecidableEq, Repr

-- A zeroed parameter struct (`struct quic_transport_param param = {}`).
def QuicTransportParam.zero : QuicTransportParam :=
  ⟨false, false, false, false, false, false, 0, 0, 0, 0, 0, 0, 0, 0, 0, 0, 0, 0⟩

-- `quic_transport_param_init`: the module's default local parameters.
def quicDefaultParam : QuicTransportParam :=
  { QuicTransportParam.zero with
    maxUdpPayloadSize := QUIC_MAX_UDP_PAYLOAD, ackDelayExponent := QUIC_DEF_ACK_DELAY_EXPONENT,
    maxAckDelay := QUIC_DEF_ACK_DELAY, activeConnectionIdLimit := QUIC_CONN_ID_DEF,
    maxIdleTimeout := QUIC_DEF_IDLE_TIMEOUT, maxData := QUIC_PATH_MAX_PMTU * 32,
    maxStreamDataBidiLocal := QUIC_PATH_MAX_PMTU * 16,
    maxStreamDataBidiRemote := QUIC_PATH_MAX_PMTU * 16,
    maxStreamDataUni := QUIC_PATH_MAX_PMTU * 16,
    maxStreamsBidi := QUIC_DEF_STREAMS, maxStreamsUni := QUIC_DEF_STREAMS }

-- `quic_param_check_and_copy`: every nonzero field of `p` is checked and copied over `param`.
def quicParamCheckAndCopy (p param : QuicTransportParam) : Except Int QuicTransportParam := do
  let mut param := param
  if p.maxUdpPayloadSize ≠ 0 then
    if p.maxUdpPayloadSize < QUIC_MIN_UDP_PAYLOAD ∨ p.maxUdpPayloadSize > QUIC_MAX_UDP_PAYLOAD then
      throw (-EINVAL)
    param := { param with maxUdpPayloadSize := p.maxUdpPayloadSize }
  if p.ackDelayExponent ≠ 0 then
    if p.ackDelayExponent > QUIC_MAX_ACK_DELAY_EXPONENT then throw (-EINVAL)
    param := { param with ackDelayExponent := p.ackDelayExponent }
  if p.maxAckDelay ≠ 0 then
    if p.maxAckDelay ≥ QUIC_MAX_ACK_DELAY then throw (-EINVAL)
    param := { param with maxAckDelay := p.maxAckDelay }
  if p.activeConnectionIdLimit ≠ 0 then
    if p.activeConnectionIdLimit < QUIC_CONN_ID_LEAST ∨ p.activeConnectionIdLimit > QUIC_CONN_ID_LIMIT then
      throw (-EINVAL)
    param := { param with activeConnectionIdLimit := p.activeConnectionIdLimit }
  if p.maxIdleTimeout ≠ 0 then
    if p.maxIdleTimeout < QUIC_MIN_IDLE_TIMEOUT then throw (-EINVAL)
    param := { param with maxIdleTimeout := p.maxIdleTimeout }
  if p.maxDatagramFrameSize ≠ 0 then
    if p.maxDatagramFrameSize < QUIC_PATH_MIN_PMTU then throw (-EINVAL)
    param := { param with maxDatagramFrameSize := p.maxDatagramFrameSize }
  if p.maxData ≠ 0 then
    if p.maxData < QUIC_PATH_MIN_PMTU ∨ (p.remote = false ∧ p.maxData > S32_MAX / 2) then
      throw (-EINVAL)
    param := { param with maxData := p.maxData }
  if p.maxStreamDataBidiLocal ≠ 0 then
    if p.maxStreamDataBidiLocal < QUIC_PATH_MIN_PMTU ∨
        (p.remote = false ∧ p.maxStreamDataBidiLocal > S32_MAX / 4) then throw (-EINVAL)
    param := { param with maxStreamDataBidiLocal := p.maxStreamDataBidiLocal }
  if p.maxStreamDataBidiRemote ≠ 0 then
    if p.maxStreamDataBidiRemote < QUIC_PATH_MIN_PMTU ∨
        (p.remote = false ∧ p.maxStreamDataBidiRemote > S32_MAX / 4) then throw (-EINVAL)
    param := { param with maxStreamDataBidiRemote := p.maxStreamDataBidiRemote }
  if p.maxStreamDataUni ≠ 0 then
    if p.maxStreamDataUni < QUIC_PATH_MIN_PMTU ∨
        (p.remote = false ∧ p.maxStreamDataUni > S32_MAX / 4) then throw (-EINVAL)
    param := { param with maxStreamDataUni := p.maxStreamDataUni }
  -- a remote stream count above the limit is clamped, a local one refused
  if p.maxStreamsBidi ≠ 0 then
    if p.maxStreamsBidi > QUIC_MAX_STREAMS ∧ p.remote = false then throw (-EINVAL)
    param := { param with maxStreamsBidi := min p.maxStreamsBidi QUIC_MAX_STREAMS }
  if p.maxStreamsUni ≠ 0 then
    if p.maxStreamsUni > QUIC_MAX_STREAMS ∧ p.remote = false then throw (-EINVAL)
    param := { param with maxStreamsUni := min p.maxStreamsUni QUIC_MAX_STREAMS }
  if p.disableActiveMigration then param := { param with disableActiveMigration := true }
  if p.disable1rttEncryption then param := { param with disable1rttEncryption := true }
  if p.disableCompatibleVersion then param := { param with disableCompatibleVersion := true }
  if p.greaseQuicBit then param := { param with greaseQuicBit := true }
  if p.statelessReset then param := { param with statelessReset := true }
  return param

-- `quic_usec_to_msec`: `DIV_ROUND_UP` of its u32 argument, whose `usec + 1000 - 1` is u32
-- arithmetic; `quic_msec_to_usec` saturates at U32_MAX.
def quicUsecToMsec (usec : Nat) : Nat := toU32 ((usec : Int) + 1000 - 1) / 1000

def quicMsecToUsec (msec : Nat) : Nat := if msec > U32_MAX / 1000 then U32_MAX else msec * 1000

-- `quic_put_param`: id, length of the value's varint, and the value, all as varints.
def quicPutParam (id value : Nat) : List UInt8 := quicPutVars [id, quicVarLen value, value]

-- `quic_get_param`: the declared length must be the length of the varint that follows.
def quicGetParam (p : List UInt8) : Option (Nat × List UInt8) :=
  match quicGetVar p with
  | none => none
  | some (valuelen, p) =>
    if p.length < valuelen then none
    else
      match quicGetVar p with
      | none => none
      | some (value, rest) => if p.length - rest.length ≠ valuelen then none else some (value, rest)

-- `quic_frame_put_conn_id` and an empty-valued flag parameter.
def quicFramePutConnId (id : Nat) (connId : List UInt8) : List UInt8 :=
  quicPutVars [id, connId.length] ++ connId

def quicPutFlag (id : Nat) : List UInt8 := quicPutVars [id, 0]

-- `quic_packet_compatible_versions`: the row of `quic_versions` for a supported version.
def quicPacketCompatibleVersions (version : Nat) : Option (List Nat) :=
  if version = QUIC_VERSION_V1 then some [QUIC_VERSION_V1, QUIC_VERSION_V2, QUIC_VERSION_V1]
  else if version = QUIC_VERSION_V2 then some [QUIC_VERSION_V2, QUIC_VERSION_V2, QUIC_VERSION_V1]
  else none

-- `quic_frame_put_version_info`: the chosen version, then the compatible ones.
def quicFramePutVersionInfo (id version : Nat) : List UInt8 :=
  match quicPacketCompatibleVersions version with
  | none => []
  | some versions =>
    let others := versions.drop 1
    quicPutVars [id, QUIC_VERSION_LEN * (1 + others.length)] ++ putBe 4 version ++
      (others.map (putBe 4)).flatten

-- What the two ends know of the connection: the role, the connection IDs exchanged in the
-- long headers, the stateless reset token a server derives for its connection ID, and the
-- version in use. The preferred address is not offered.
structure QuicParamCtx where
  isServ : Bool
  origDcid : List UInt8
  retry : Bool
  retryDcid : List UInt8
  scid : List UInt8
  dcid : List UInt8
  token : List UInt8
  version : Nat
  deriving DecidableEq, Repr

def optionalBytes (c : Bool) (bytes : List UInt8) : List UInt8 := if c then bytes else []

-- `quic_frame_build_transport_params_ext`.
def quicFrameBuildTransportParamsExt (ctx : QuicParamCtx) (params : QuicTransportParam) :
    List UInt8 :=
  optionalBytes ctx.isServ
    (quicFramePutConnId QUIC_TRANSPORT_PARAM_ORIGINAL_DESTINATION_CONNECTION_ID ctx.origDcid ++
      optionalBytes params.statelessReset
        (quicPutVars [QUIC_TRANSPORT_PARAM_STATELESS_RESET_TOKEN, QUIC_CONN_ID_TOKEN_LEN] ++
          ctx.token) ++
      optionalBytes ctx.retry
        (quicFramePutConnId QUIC_TRANSPORT_PARAM_RETRY_SOURCE_CONNECTION_ID ctx.retryDcid)) ++
  quicFramePutConnId QUIC_TRANSPORT_PARAM_INITIAL_SOURCE_CONNECTION_ID ctx.scid ++
  optionalBytes (params.maxStreamDataBidiLocal ≠ 0)
    (quicPutParam QUIC_TRANSPORT_PARAM_INITIAL_MAX_STREAM_DATA_BIDI_LOCAL
      params.maxStreamDataBidiLocal) ++
  optionalBytes (params.maxStreamDataBidiRemote ≠ 0)
    (quicPutParam QUIC_TRANSPORT_PARAM_INITIAL_MAX_STREAM_DATA_BIDI_REMOTE
      params.maxStreamDataBidiRemote) ++
  optionalBytes (params.maxStreamDataUni ≠ 0)
    (quicPutParam QUIC_TRANSPORT_PARAM_INITIAL_MAX_STREAM_DATA_UNI params.maxStreamDataUni) ++
  optionalBytes (params.maxData ≠ 0)
    (quicPutParam QUIC_TRANSPORT_PARAM_INITIAL_MAX_DATA params.maxData) ++
  optionalBytes (params.maxStreamsBidi ≠ 0)
    (quicPutParam QUIC_TRANSPORT_PARAM_INITIAL_MAX_STREAMS_BIDI params.maxStreamsBidi) ++
  optionalBytes (params.maxStreamsUni ≠ 0)
    (quicPutParam QUIC_TRANSPORT_PARAM_INITIAL_MAX_STREAMS_UNI params.maxStreamsUni) ++
  optionalBytes (params.maxUdpPayloadSize ≠ QUIC_MAX_UDP_PAYLOAD)
    (quicPutParam QUIC_TRANSPORT_PARAM_MAX_UDP_PAYLOAD_SIZE params.maxUdpPayloadSize) ++
  optionalBytes (params.ackDelayExponent ≠ QUIC_DEF_ACK_DELAY_EXPONENT)
    (quicPutParam QUIC_TRANSPORT_PARAM_ACK_DELAY_EXPONENT params.ackDelayExponent) ++
  optionalBytes params.disableActiveMigration
    (quicPutFlag QUIC_TRANSPORT_PARAM_DISABLE_ACTIVE_MIGRATION) ++
  optionalBytes params.disable1rttEncryption
    (quicPutFlag QUIC_TRANSPORT_PARAM_DISABLE_1RTT_ENCRYPTION) ++
  optionalBytes (!params.disableCompatibleVersion)
    (quicFramePutVersionInfo QUIC_TRANSPORT_PARAM_VERSION_INFORMATION ctx.version) ++
  optionalBytes params.greaseQuicBit (quicPutFlag QUIC_TRANSPORT_PARAM_GREASE_QUIC_BIT) ++
  optionalBytes (params.maxAckDelay ≠ QUIC_DEF_ACK_DELAY)
    (quicPutParam QUIC_TRANSPORT_PARAM_MAX_ACK_DELAY (quicUsecToMsec params.maxAckDelay)) ++
  optionalBytes (params.maxIdleTimeout ≠ 0)
    (quicPutParam QUIC_TRANSPORT_PARAM_MAX_IDLE_TIMEOUT (quicUsecToMsec params.maxIdleTimeout)) ++
  optionalBytes (params.activeConnectionIdLimit ≠ 0 ∧
      params.activeConnectionIdLimit ≠ QUIC_CONN_ID_LEAST)
    (quicPutParam QUIC_TRANSPORT_PARAM_ACTIVE_CONNECTION_ID_LIMIT
      params.activeConnectionIdLimit) ++
  optionalBytes (params.maxDatagramFrameSize ≠ 0)
    (quicPutParam QUIC_TRANSPORT_PARAM_MAX_DATAGRAM_FRAME_SIZE params.maxDatagramFrameSize)

-- `quic_frame_get_conn_id`.
def quicFrameGetConnId (p : List UInt8) : Option (List UInt8 × List UInt8) :=
  match quicGetVar p with
  | none => none
  | some (valuelen, p) =>
    if p.length < valuelen ∨ valuelen > QUIC_CONN_ID_MAX_LEN then none
    else some (p.take valuelen, p.drop valuelen)

-- `quic_frame_get_version_info`: up to QUIC_MAX_VERSIONS 32-bit versions.
def quicFrameGetVersionInfo (p : List UInt8) : Option (List Nat × List UInt8) :=
  match quicGetVar p with
  | none => none
  | some (valuelen, p) =>
    if valuelen = 0 ∨ p.length < valuelen then none
    else if valuelen % QUIC_VERSION_LEN ≠ 0 ∨ valuelen > QUIC_VERSION_LEN * QUIC_MAX_VERSIONS then
      none
    else
      let count := valuelen / QUIC_VERSION_LEN
      some ((List.range count).map (fun i => getBe ((p.drop (QUIC_VERSION_LEN * i)).take 4)),
        p.drop valuelen)

-- `quic_frame_get_address`: the checks on a preferred address; the address and the connection
-- ID it carries are only read.
def quicFrameGetAddress (p : List UInt8) : Option (List UInt8) :=
  match quicGetVar p with
  | none => none
  | some (valuelen, p) =>
    if p.length < valuelen ∨ valuelen < QUIC_PREF_ADDR_LEN + 1 then none
    else
      match p.drop QUIC_PREF_ADDR_LEN with
      | [] => none
      | len :: p =>
        if len.toNat > QUIC_CONN_ID_MAX_LEN then none
        else if valuelen ≠ QUIC_PREF_ADDR_LEN + 1 + len.toNat + QUIC_CONN_ID_TOKEN_LEN then none
        else if p.length < len.toNat + QUIC_CONN_ID_TOKEN_LEN then none
        else some (p.drop (len.toNat + QUIC_CONN_ID_TOKEN_LEN))

-- The parser's state: the parameters read so far and the `versions` handed to
-- `quic_packet_select_version`.
structure QuicParamParse where
  params : QuicTransportParam
  versions : List Nat
  deriving DecidableEq, Repr

-- A numeric parameter read by `quic_get_param`, checked and stored.
def quicParamValue (p : List UInt8) (ok : Nat → Bool) (set : Nat → QuicTransportParam)
    (st : QuicParamParse) : Except Int (QuicParamParse × List UInt8) :=
  match quicGetParam p with
  | none => .error (-EINVAL)
  | some (value, rest) => if ok value then .ok ({ st with params := set value }, rest) else .error (-EINVAL)

-- A flag parameter with an empty value.
def quicParamFlag (p : List UInt8) (set : QuicTransportParam) (st : QuicParamParse) :
    Except Int (QuicParamParse × List UInt8) :=
  match quicGetVar p with
  | none => .error (-EINVAL)
  | some (valuelen, rest) => if valuelen ≠ 0 then .error (-EINVAL) else .ok ({ st with params := set }, rest)

-- A parameter whose value is skipped after `check` on its length.
def quicParamSkip (p : List UInt8) (check : Nat → Bool) (set : QuicTransportParam)
    (st : QuicParamParse) : Except Int (QuicParamParse × List UInt8) :=
  match quicGetVar p with
  | none => .error (-EINVAL)
  | some (valuelen, rest) =>
    if rest.length < valuelen ∨ !check valuelen then .error (-EINVAL)
    else .ok ({ st with params := set }, rest.drop valuelen)

-- A connection ID parameter, which must name the given connection ID.
def quicParamConnId (p : List UInt8) (expected : List UInt8) (st : QuicParamParse) :
    Except Int (QuicParamParse × List UInt8) :=
  match quicFrameGetConnId p with
  | none => .error (-EINVAL)
  | some (connId, rest) => if connId ≠ expected then .error (-EINVAL) else .ok (st, rest)

-- One case of the `switch` of `quic_frame_parse_transport_params_ext`.
def quicTransportParamParseOne (ctx : QuicParamCtx) (st : QuicParamParse) (type : Nat)
    (p : List UInt8) : Except Int (QuicParamParse × List UInt8) :=
  let prm := st.params
  if type = QUIC_TRANSPORT_PARAM_ORIGINAL_DESTINATION_CONNECTION_ID then
    if ctx.isServ then .error (-EINVAL) else quicParamConnId p ctx.origDcid st
  else if type = QUIC_TRANSPORT_PARAM_RETRY_SOURCE_CONNECTION_ID then
    if ctx.isServ ∨ !ctx.retry then .error (-EINVAL) else quicParamConnId p ctx.retryDcid st
  else if type = QUIC_TRANSPORT_PARAM_INITIAL_SOURCE_CONNECTION_ID then
    quicParamConnId p ctx.dcid st
  else if type = QUIC_TRANSPORT_PARAM_INITIAL_MAX_STREAM_DATA_BIDI_LOCAL then
    quicParamValue p (fun _ => true) (fun v => { prm with maxStreamDataBidiLocal := v }) st
  else if type = QUIC_TRANSPORT_PARAM_INITIAL_MAX_STREAM_DATA_BIDI_REMOTE then
    quicParamValue p (fun _ => true) (fun v => { prm with maxStreamDataBidiRemote := v }) st
  else if type = QUIC_TRANSPORT_PARAM_INITIAL_MAX_STREAM_DATA_UNI then
    quicParamValue p (fun _ => true) (fun v => { prm with maxStreamDataUni := v }) st
  else if type = QUIC_TRANSPORT_PARAM_INITIAL_MAX_DATA then
    quicParamValue p (fun _ => true) (fun v => { prm with maxData := v }) st
  else if type = QUIC_TRANSPORT_PARAM_INITIAL_MAX_STREAMS_BIDI then
    quicParamValue p (fun _ => true) (fun v => { prm with maxStreamsBidi := min v QUIC_MAX_STREAMS }) st
  else if type = QUIC_TRANSPORT_PARAM_INITIAL_MAX_STREAMS_UNI then
    quicParamValue p (fun _ => true) (fun v => { prm with maxStreamsUni := min v QUIC_MAX_STREAMS }) st
  else if type = QUIC_TRANSPORT_PARAM_MAX_IDLE_TIMEOUT then
    quicParamValue p (fun v => quicMsecToUsec v ≥ QUIC_MIN_IDLE_TIMEOUT)
      (fun v => { prm with maxIdleTimeout := quicMsecToUsec v }) st
  else if type = QUIC_TRANSPORT_PARAM_MAX_UDP_PAYLOAD_SIZE then
    quicParamValue p (fun v => QUIC_MIN_UDP_PAYLOAD ≤ v ∧ v ≤ QUIC_MAX_UDP_PAYLOAD)
      (fun v => { prm with maxUdpPayloadSize := v }) st
  else if type = QUIC_TRANSPORT_PARAM_ACK_DELAY_EXPONENT then
    quicParamValue p (fun v => v ≤ QUIC_MAX_ACK_DELAY_EXPONENT)
      (fun v => { prm with ackDelayExponent := v }) st
  else if type = QUIC_TRANSPORT_PARAM_DISABLE_ACTIVE_MIGRATION then
    quicParamFlag p { prm with disableActiveMigration := true } st
  else if type = QUIC_TRANSPORT_PARAM_DISABLE_1RTT_ENCRYPTION then
    quicParamSkip p (fun valuelen => ctx.isServ ∨ valuelen = 0)
      { prm with disable1rttEncryption := true } st
  else if type = QUIC_TRANSPORT_PARAM_GREASE_QUIC_BIT then
    quicParamFlag p { prm with greaseQuicBit := true } st
  else if type = QUIC_TRANSPORT_PARAM_MAX_ACK_DELAY then
    quicParamValue p (fun v => quicMsecToUsec v < QUIC_MAX_ACK_DELAY)
      (fun v => { prm with maxAckDelay := quicMsecToUsec v }) st
  else if type = QUIC_TRANSPORT_PARAM_ACTIVE_CONNECTION_ID_LIMIT then
    quicParamValue p (fun v => QUIC_CONN_ID_LEAST ≤ v ∧ v ≤ QUIC_CONN_ID_LIMIT)
      (fun v => { prm with activeConnectionIdLimit := v }) st
  else if type = QUIC_TRANSPORT_PARAM_MAX_DATAGRAM_FRAME_SIZE then
    quicParamValue p (fun v => v = 0 ∨ QUIC_PATH_MIN_PMTU ≤ v)
      (fun v => { prm with maxDatagramFrameSize := toU16 v }) st
  else if type = QUIC_TRANSPORT_PARAM_STATELESS_RESET_TOKEN then
    if ctx.isServ then .error (-EINVAL)
    else quicParamSkip p (fun valuelen => valuelen = QUIC_CONN_ID_TOKEN_LEN)
      { prm with statelessReset := true } st
  else if type = QUIC_TRANSPORT_PARAM_VERSION_INFORMATION then
    match quicFrameGetVersionInfo p with
    | none => .error (-EINVAL)
    | some (versions, rest) =>
      if versions.head? ≠ some ctx.version then .error (-EINVAL)
      else .ok ({ st with versions := versions }, rest)
  else if type = QUIC_TRANSPORT_PARAM_PREFERRED_ADDRESS then
    if ctx.isServ then .error (-EINVAL)
    else
      match quicFrameGetAddress p with
      | none => .error (-EINVAL)
      | some rest => .ok (st, rest)
  else
    -- an unknown parameter is skipped
    quicParamSkip p (fun _ => true) prm st

-- The `while (len > 0)` loop; every parameter takes at least its type byte, so the length of
-- the data is enough fuel.
def quicTransportParamParseLoop (ctx : QuicParamCtx) :
    Nat → QuicParamParse → List UInt8 → Except Int QuicParamParse
  | _, st, [] => .ok st
  | 0, _, _ :: _ => .error (-EINVAL)
  | fuel + 1, st, p =>
    match quicGetVar p with
    | none => .error (-EINVAL)
    | some (type, p) =>
      match quicTransportParamParseOne ctx st type p with
      | .error err => .error err
      | .ok (st, p) => quicTransportParamParseLoop ctx fuel st p

-- `quic_frame_parse_transport_params_ext` up to the final `quic_packet_select_version`, whose
-- input it returns beside the parameters.
def quicFrameParseTransportParamsExt (ctx : QuicParamCtx) (params : QuicTransportParam)
    (data : List UInt8) : Except Int QuicParamParse :=
  let params := { params with
    maxUdpPayloadSize := QUIC_MAX_UDP_PAYLOAD, ackDelayExponent := QUIC_DEF_ACK_DELAY_EXPONENT,
    maxAckDelay := QUIC_DEF_ACK_DELAY, activeConnectionIdLimit := QUIC_CONN_ID_LEAST }
  quicTransportParamParseLoop ctx data.length ⟨params, [ctx.version]⟩ data

-- Below the wrap the conversion rounds up to a whole millisecond; from 2^32 - 999 us on the
-- sum wraps and the result is 0 ms.
theorem quicUsecToMsec_of_lt {usec : Nat} (h : usec + 999 < 2 ^ 32) :
    quicUsecToMsec usec = (usec + 999) / 1000 := by
  unfold quicUsecToMsec toU32 toUnsigned
  omega

theorem quicUsecToMsec_wrap {usec : Nat} (hlo : 2 ^ 32 - 999 ≤ usec) (hhi : usec < 2 ^ 32) :
    quicUsecToMsec usec = 0 := by
  unfold quicUsecToMsec toU32 toUnsigned
  omega

-- A client whose local `max_ack_delay` is 16383500 us, accepted by
-- `quic_param_check_and_copy` since it is below QUIC_MAX_ACK_DELAY, sends it rounded up to
-- 16384 ms; the server reads that back as 16384000 us, which is QUIC_MAX_ACK_DELAY, and rejects
-- the whole extension. A local `max_idle_timeout` of U32_MAX us is accepted too, but the u32
-- rounding wraps and it is sent as 0 ms, below QUIC_MIN_IDLE_TIMEOUT once read back.
theorem quicTransportParam_max_ack_delay_rejected :
    let param : QuicTransportParam := { quicDefaultParam with maxAckDelay := 16383500 }
    let idle : QuicTransportParam := { quicDefaultParam with maxIdleTimeout := U32_MAX }
    let client : QuicParamCtx := ⟨false, [9, 9, 9, 9, 9, 9, 9, 9], false, [],
      [1, 2, 3, 4, 5, 6, 7, 8], [5, 5, 5, 5, 5, 5, 5, 5], [], QUIC_VERSION_V1⟩
    let server : QuicParamCtx := ⟨true, [9, 9, 9, 9, 9, 9, 9, 9], false, [],
      [5, 5, 5, 5, 5, 5, 5, 5], [1, 2, 3, 4, 5, 6, 7, 8], List.replicate 16 7, QUIC_VERSION_V1⟩
    quicParamCheckAndCopy param quicDefaultParam = .ok param ∧
      quicFrameParseTransportParamsExt server { QuicTransportParam.zero with remote := true }
        (quicFrameBuildTransportParamsExt client param) = .error (-EINVAL) ∧
      quicParamCheckAndCopy idle quicDefaultParam = .ok idle ∧
      quicUsecToMsec idle.maxIdleTimeout = 0 ∧
      quicFrameParseTransportParamsExt server { QuicTransportParam.zero with remote := true }
        (quicFrameBuildTransportParamsExt client idle) = .error (-EINVAL) :=
  ⟨rfl, rfl, rfl, quicUsecToMsec_wrap (by decide) (by decide), rfl⟩

/-! ## Reading one parameter -/

-- `quic_get_param` reads back a value written with its length, as `quic_put_param` does after
-- the id.
theorem quicGetParam_quicPutVars {v : Nat} (hv : v ≤ QUIC_VARINT_8BYTE_MAX) (rest : List UInt8) :
    quicGetParam (quicPutVars [quicVarLen v, v] ++ rest) = some (v, rest) := by
  have hlen : quicVarLen v % 2 ^ 62 = quicVarLen v :=
    Nat.mod_eq_of_lt (by have := quicVarLen_le_eight v; omega)
  have hl : (quicPutVar v ++ rest).length = quicVarLen v + rest.length := by
    simp [quicPutVar_length]
  unfold quicGetParam
  rw [quicGetVar_quicPutVars, hlen]
  simp only [quicPutVars_cons, quicPutVars_nil, List.append_nil]
  rw [if_neg (by omega), quicGetVar_quicPutVar_of_le hv, hl]
  simp

theorem quicParamValue_quicPutVars {v : Nat} (hv : v ≤ QUIC_VARINT_8BYTE_MAX) (rest : List UInt8)
    (ok : Nat → Bool) (set : Nat → QuicTransportParam) (st : QuicParamParse) :
    quicParamValue (quicPutVars [quicVarLen v, v] ++ rest) ok set st =
      if ok v then .ok ({ st with params := set v }, rest) else .error (-EINVAL) := by
  simp only [quicParamValue, quicGetParam_quicPutVars hv]

section OneParam

variable (ctx : QuicParamCtx) (st : QuicParamParse) {v : Nat} (hv : v ≤ QUIC_VARINT_8BYTE_MAX)
  (rest : List UInt8)
include hv

-- max_datagram_frame_size: 0 and every value from QUIC_PATH_MIN_PMTU on are accepted, and the
-- value is kept modulo 2^16, the width of the field it is stored in.
theorem quicTransportParamParseOne_maxDatagramFrameSize :
    quicTransportParamParseOne ctx st QUIC_TRANSPORT_PARAM_MAX_DATAGRAM_FRAME_SIZE
        (quicPutVars [quicVarLen v, v] ++ rest) =
      if v = 0 ∨ QUIC_PATH_MIN_PMTU ≤ v then
        .ok ({ st with params := { st.params with maxDatagramFrameSize := v % 2 ^ 16 } }, rest)
      else .error (-EINVAL) := by
  show quicParamValue _ _ _ st = _
  rw [quicParamValue_quicPutVars hv, toU16_natCast_eq_mod]
  simp

-- max_idle_timeout: refused below 1000 ms, 0 included, and stored in microseconds.
theorem quicTransportParamParseOne_maxIdleTimeout :
    quicTransportParamParseOne ctx st QUIC_TRANSPORT_PARAM_MAX_IDLE_TIMEOUT
        (quicPutVars [quicVarLen v, v] ++ rest) =
      if 1000 ≤ v then
        .ok ({ st with params := { st.params with maxIdleTimeout := quicMsecToUsec v } }, rest)
      else .error (-EINVAL) := by
  show quicParamValue _ _ _ st = _
  rw [quicParamValue_quicPutVars hv]
  have hiff : quicMsecToUsec v ≥ QUIC_MIN_IDLE_TIMEOUT ↔ 1000 ≤ v := by
    unfold quicMsecToUsec QUIC_MIN_IDLE_TIMEOUT U32_MAX
    split <;> omega
  simp only [decide_eq_true_eq, hiff]

-- max_ack_delay: accepted exactly below 2^14 ms, and stored in microseconds.
theorem quicTransportParamParseOne_maxAckDelay :
    quicTransportParamParseOne ctx st QUIC_TRANSPORT_PARAM_MAX_ACK_DELAY
        (quicPutVars [quicVarLen v, v] ++ rest) =
      if v < 2 ^ 14 then
        .ok ({ st with params := { st.params with maxAckDelay := v * 1000 } }, rest)
      else .error (-EINVAL) := by
  show quicParamValue _ _ _ st = _
  rw [quicParamValue_quicPutVars hv]
  by_cases hlt : v < 2 ^ 14
  · have hus : quicMsecToUsec v = v * 1000 := by
      unfold quicMsecToUsec U32_MAX
      split <;> omega
    have hok : v * 1000 < QUIC_MAX_ACK_DELAY := by
      unfold QUIC_MAX_ACK_DELAY
      omega
    simp only [hus, hok, decide_true, ↓reduceIte, hlt]
  · have hok : ¬ quicMsecToUsec v < QUIC_MAX_ACK_DELAY := by
      unfold quicMsecToUsec U32_MAX QUIC_MAX_ACK_DELAY
      split <;> omega
    simp only [hok, decide_false, Bool.false_eq_true, ↓reduceIte, hlt]

-- initial_max_streams_bidi: every value is accepted, those above QUIC_MAX_STREAMS (also above
-- the 2^60 RFC 9000 allows) clamped.
theorem quicTransportParamParseOne_maxStreamsBidi :
    quicTransportParamParseOne ctx st QUIC_TRANSPORT_PARAM_INITIAL_MAX_STREAMS_BIDI
        (quicPutVars [quicVarLen v, v] ++ rest) =
      .ok ({ st with params := { st.params with maxStreamsBidi := min v QUIC_MAX_STREAMS } }, rest) := by
  show quicParamValue _ _ _ st = _
  rw [quicParamValue_quicPutVars hv]
  rfl

-- active_connection_id_limit: refused above QUIC_CONN_ID_LIMIT rather than capped.
theorem quicTransportParamParseOne_activeConnectionIdLimit :
    quicTransportParamParseOne ctx st QUIC_TRANSPORT_PARAM_ACTIVE_CONNECTION_ID_LIMIT
        (quicPutVars [quicVarLen v, v] ++ rest) =
      if QUIC_CONN_ID_LEAST ≤ v ∧ v ≤ QUIC_CONN_ID_LIMIT then
        .ok ({ st with params := { st.params with activeConnectionIdLimit := v } }, rest)
      else .error (-EINVAL) := by
  show quicParamValue _ _ _ st = _
  rw [quicParamValue_quicPutVars hv]
  simp

end OneParam

-- A server reads client parameters that allow DATAGRAM frames of up to 65536 bytes: they are
-- accepted, with max_datagram_frame_size stored as 0, which means no DATAGRAM frames at all.
-- Parameters that turn the idle timeout off with max_idle_timeout 0 are refused.
theorem quicTransportParam_datagram_size_truncated :
    let server : QuicParamCtx := ⟨true, [9, 9, 9, 9, 9, 9, 9, 9], false, [],
      [5, 5, 5, 5, 5, 5, 5, 5], [1, 2, 3, 4, 5, 6, 7, 8], List.replicate 16 7, QUIC_VERSION_V1⟩
    let scid : List UInt8 :=
      quicFramePutConnId QUIC_TRANSPORT_PARAM_INITIAL_SOURCE_CONNECTION_ID [1, 2, 3, 4, 5, 6, 7, 8]
    let params : QuicTransportParam := { QuicTransportParam.zero with remote := true }
    (quicFrameParseTransportParamsExt server params
        (scid ++ quicPutParam QUIC_TRANSPORT_PARAM_MAX_DATAGRAM_FRAME_SIZE 65536)).map
        (fun st => (st.params.maxDatagramFrameSize, st.versions)) = .ok (0, [QUIC_VERSION_V1]) ∧
      quicFrameParseTransportParamsExt server params
        (scid ++ quicPutParam QUIC_TRANSPORT_PARAM_MAX_IDLE_TIMEOUT 0) = .error (-EINVAL) :=
  ⟨rfl, rfl⟩

end Quic
