import Mathlib.Data.List.Basic

namespace PandaProxy.Python

namespace Utf8

def encode (s : String) : List UInt8 := s.toByteArray.data.toList

-- `bytes.decode("utf-8")`; `none` is the `UnicodeDecodeError`.
def decodeStrict (bytes : List UInt8) : Option String := String.fromUTF8? ⟨bytes.toArray⟩

theorem decodeStrict_iff {bytes : List UInt8} {s : String} : decodeStrict bytes = some s ↔ bytes = encode s := by
  simp only [decodeStrict, String.fromUTF8?, encode]
  constructor
  · intro h
    split at h
    · cases h
      rfl
    · cases h
  · rintro rfl
    have hvalid : (⟨s.toByteArray.data.toList.toArray⟩ : ByteArray).IsValidUTF8 := s.isValidUTF8
    rw [dif_pos hvalid]
    rfl

theorem decodeStrict_encode (s : String) : decodeStrict (encode s) = some s := decodeStrict_iff.mpr rfl

end Utf8

namespace Struct

-- `struct.pack(">H", n)`; `none` is the `struct.error`.
def packH (n : Nat) : Option (List UInt8) :=
  if n < 65536 then some [UInt8.ofNat (n / 256), UInt8.ofNat (n % 256)] else none

-- `struct.unpack_from(">H", data, offset)[0]`
def unpackH (data : List UInt8) (offset : Nat) : Option Nat :=
  match data.drop offset with
  | high :: low :: _ => some (high.toNat * 256 + low.toNat)
  | _ => none

-- `struct.unpack("<I", data)[0]`
def unpackI (data : List UInt8) : Option Nat :=
  match data with
  | [a, b, c, d] => some (a.toNat + b.toNat * 256 + c.toNat * 65536 + d.toNat * 16777216)
  | _ => none

theorem packH_unpackH {n : Nat} {bytes : List UInt8} (h : packH n = some bytes) (pre rest : List UInt8) :
    bytes.length = 2 ∧ unpackH (pre ++ (bytes ++ rest)) pre.length = some n := by
  simp only [packH] at h
  split at h
  · cases h
    refine ⟨rfl, ?_⟩
    simp only [unpackH, List.drop_left, List.cons_append, UInt8.toNat_ofNat', Option.some.injEq]
    omega
  · cases h

theorem packH_isSome {n : Nat} (h : n < 65536) : ∃ bytes, packH n = some bytes :=
  ⟨_, if_pos h⟩

end Struct

end PandaProxy.Python
