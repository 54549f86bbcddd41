import Mathlib.Algebra.Order.Group.Nat
import Mathlib.Data.List.DropRight
import PandaProxy.Python.Bytes

namespace PandaProxy.Python

namespace Bytes

def ljust (width : Nat) (fill : UInt8) (data : List UInt8) : List UInt8 := data ++ List.replicate (width - data.length) fill

def rstrip (byte : UInt8) (data : List UInt8) : List UInt8 := data.rdropWhile fun b => b == byte

variable {width n : Nat} {fill : UInt8} {data : List UInt8}

theorem ljust_length (h : data.length ≤ width) : (ljust width fill data).length = width := by
  rw [ljust, List.length_append, List.length_replicate, Nat.add_sub_cancel' h]

theorem rstrip_replicate : rstrip fill (data ++ List.replicate n fill) = rstrip fill data := by
  induction n with
  | zero => rw [List.replicate_zero, List.append_nil]
  | succ n ih =>
      rw [List.replicate_succ', ← List.append_assoc, rstrip, List.rdropWhile_concat_pos _ _ _ (by simp)]
      exact ih

theorem rstrip_ljust : rstrip fill (ljust width fill data) = rstrip fill data := rstrip_replicate

theorem rstrip_eq_self_iff : rstrip fill data = data ↔ data.getLast? ≠ some fill := by
  rw [rstrip, List.rdropWhile_eq_self_iff]
  constructor
  · intro h hlast
    have hne : data ≠ [] := by
      rintro rfl
      cases hlast
    rw [List.getLast?_eq_some_getLast hne, Option.some.injEq] at hlast
    exact h hne (by simp [hlast])
  · intro h hne heq
    rw [beq_iff_eq] at heq
    exact h (by rw [List.getLast?_eq_some_getLast hne, heq])

theorem ljust_rstrip (data : List UInt8) (fill : UInt8) : ljust data.length fill (rstrip fill data) = data := by
  induction data using List.reverseRecOn with
  | nil => rfl
  | append_singleton data b ih =>
      by_cases hb : b = fill
      · subst hb
        have hstrip : rstrip b (data ++ [b]) = rstrip b data := rstrip_replicate (n := 1)
        have hle : (rstrip b data).length ≤ data.length := (List.rdropWhile_prefix _ _).length_le
        rw [hstrip, ljust, List.length_append, List.length_singleton, Nat.succ_sub hle, List.replicate_succ', ← List.append_assoc]
        rw [ljust] at ih
        rw [ih]
      · have hself : rstrip fill (data ++ [b]) = data ++ [b] :=
          rstrip_eq_self_iff.mpr (by simpa using hb)
        rw [hself, ljust, Nat.sub_self, List.replicate_zero, List.append_nil]

end Bytes

namespace Struct

-- `struct.pack("<I", n)`; `none` is the `struct.error`.
def packI (n : Nat) : Option (List UInt8) :=
  if n < 2 ^ 32 then
    some [UInt8.ofNat n, UInt8.ofNat (n / 256), UInt8.ofNat (n / 65536), UInt8.ofNat (n / 16777216)]
  else none

-- `struct.pack(f"{size}s", data)`
def packS (size : Nat) (data : List UInt8) : List UInt8 := (Bytes.ljust size 0 data).take size

def fields : List Nat → List UInt8 → List (List UInt8)
  | [], _ => []
  | size :: sizes, data => data.take size :: fields sizes (data.drop size)

variable {n size : Nat} {data : List UInt8} {sizes : List Nat}

theorem unpackI_iff : unpackI data = some n ↔ packI n = some data := by
  constructor
  · intro h
    match data, h with
    | [a, b, c, d], h =>
        have ha := a.toNat_lt
        have hb := b.toNat_lt
        have hc := c.toNat_lt
        have hd := d.toNat_lt
        cases h
        rw [packI, if_pos (by omega)]
        simp only [Option.some.injEq, List.cons.injEq, and_true, ← UInt8.toNat_inj, UInt8.toNat_ofNat']
        omega
  · intro h
    rw [packI] at h
    split at h
    · cases h
      simp only [unpackI, UInt8.toNat_ofNat', Option.some.injEq]
      omega
    · cases h

theorem packI_length (h : packI n = some data) : data.length = 4 := by
  rw [packI] at h
  split at h
  · cases h
    rfl
  · cases h

theorem packS_length (size : Nat) (data : List UInt8) : (packS size data).length = size := by
  rw [packS, List.length_take, Bytes.ljust, List.length_append, List.length_replicate]
  omega

theorem packS_fits (h : data.length ≤ size) : packS size data = Bytes.ljust size 0 data :=
  List.take_of_length_le (Bytes.ljust_length h).le

theorem packS_full (h : data.length = size) : packS size data = data := by
  rw [packS_fits h.le, Bytes.ljust, h, Nat.sub_self, List.replicate_zero, List.append_nil]

end Struct

end PandaProxy.Python
