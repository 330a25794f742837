import Mathlib

namespace Quic

-- Error numbers returned (negated) by the kernel functions.
def EINVAL : Int := 22
def ENOMEM : Int := 12
def ENOBUFS : Int := 105
def EMSGSIZE : Int := 90
def EAGAIN : Int := 11
def ENOSTR : Int := 60
def ENOENT : Int := 2
def EBADMSG : Int := 74
def EINPROGRESS : Int := 115
def EKEYREVOKED : Int := 128

def U32_MAX : Nat := 2 ^ 32 - 1

-- Encryption levels (uapi quic.h); 0-RTT and 1-RTT share the application number space.
def QUIC_CRYPTO_APP : Nat := 0
def QUIC_CRYPTO_INITIAL : Nat := 1
def QUIC_CRYPTO_HANDSHAKE : Nat := 2
def QUIC_CRYPTO_EARLY : Nat := 3

-- Datagram size limits of path.h.
def QUIC_PATH_MIN_PMTU : Nat := 1200
def QUIC_PATH_MAX_PMTU : Nat := 65536
def QUIC_MIN_UDP_PAYLOAD : Nat := 1200
def QUIC_MAX_UDP_PAYLOAD : Nat := 65527

-- Transport error codes (rfc9000#section-20.1) put in `frame->errcode`.
def QUIC_TRANSPORT_ERROR_FLOW_CONTROL : Nat := 0x03
def QUIC_TRANSPORT_ERROR_FINAL_SIZE : Nat := 0x06
def QUIC_TRANSPORT_ERROR_FRAME_ENCODING : Nat := 0x07
def QUIC_TRANSPORT_ERROR_CONNECTION_ID_LIMIT : Nat := 0x09
def QUIC_TRANSPORT_ERROR_PROTOCOL_VIOLATION : Nat := 0x0a
def QUIC_TRANSPORT_ERROR_KEY_UPDATE : Nat := 0x0e

def BITS_PER_LONG : Nat := 64

def QUIC_PN_BITS : Nat := 62
def QUIC_PN_MAX : Nat := 2 ^ QUIC_PN_BITS - 1

-- The C conversion of a signed value to an unsigned type of `w` bits.
def toUnsigned (w : Nat) (x : Int) : Nat :=
  (x % (2 ^ w : Nat)).toNat

def toU8 (x : Int) : Nat := toUnsigned 8 x

def toU16 (x : Int) : Nat := toUnsigned 16 x

def toU32 (x : Int) : Nat := toUnsigned 32 x

def toU64 (x : Int) : Nat := toUnsigned 64 x

-- The kernel's `ALIGN(x, a)` for a power of two `a`: round up to a multiple of `a`.
def align (x : Int) (a : Nat) : Int :=
  (x + (a - 1 : Nat)) - (x + (a - 1 : Nat)) % (a : Int)

theorem toUnsigned_of_lt {w : Nat} {x : Int} (h0 : 0 ≤ x) (hw : x < (2 ^ w : Nat)) :
    (toUnsigned w x : Int) = x := by
  unfold toUnsigned
  rw [Int.emod_eq_of_lt h0 hw, Int.toNat_of_nonneg h0]

theorem toU16_of_lt {x : Int} (h0 : 0 ≤ x) (hw : x < 65536) : (toU16 x : Int) = x :=
  toUnsigned_of_lt h0 (by simpa using hw)

theorem toU64_of_nonneg {x : Int} (h0 : 0 ≤ x) (hw : x < 2 ^ 64) : toU64 x = x.toNat := by
  have h := toUnsigned_of_lt (w := 64) h0 (by simpa using hw)
  show toUnsigned 64 x = x.toNat
  omega

theorem toU64_sub_of_le {a b : Nat} (h : b ≤ a) (ha : a < 2 ^ 64) :
    toU64 ((a : Int) - b) = a - b := by
  rw [toU64_of_nonneg (by omega) (by omega)]
  omega

theorem toU16_natCast {n : Nat} (hw : n < 65536) : toU16 n = n := by
  have h := toU16_of_lt (x := n) (by omega) (by omega)
  omega

theorem toU32_natCast {n : Nat} (hw : n < 2 ^ 32) : toU32 n = n := by
  have h := toUnsigned_of_lt (w := 32) (x := n) (by omega) (by omega)
  show toUnsigned 32 n = n
  omega

theorem toU16_lt (x : Int) : toU16 x < 2 ^ 16 := by
  unfold toU16 toUnsigned
  omega

theorem toU32_lt (x : Int) : toU32 x < 2 ^ 32 := by
  unfold toU32 toUnsigned
  omega

-- Two u32 subtractions in a row are one subtraction of the sum.
theorem toU32_sub_sub (a b c : Int) : toU32 ((toU32 (a - b) : Int) - c) = toU32 (a - (b + c)) := by
  unfold toU32 toUnsigned
  omega

theorem toU16_natCast_eq_mod (n : Nat) : toU16 n = n % 65536 := by
  unfold toU16 toUnsigned
  omega

-- The C conversion of a u64 value to s64.
def toS64 (x : Nat) : Int := if x < 2 ^ 63 then x else (x : Int) - 2 ^ 64

theorem toS64_toU64 {x : Int} (h0 : -2 ^ 63 ≤ x) (h1 : x < 2 ^ 63) : toS64 (toU64 x) = x := by
  unfold toS64 toU64 toUnsigned
  split <;> omega

end Quic
