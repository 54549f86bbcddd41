import Mathlib.Algebra.BigOperators.Group.List.Basic
import PandaProxy.Mqtt.ClientPackets

namespace PandaProxy.Mqtt

open Python Reading

def connackAccepted : Nat := 0

def connackNotAuthorized : Nat := 5

-- `bytes(codes)`; `none` is the `ValueError`.
def packBytes (codes : List Nat) : Option (List UInt8) :=
  if ∀ code ∈ codes, code < 256 then some (codes.map UInt8.ofNat) else none

def buildConnack (returnCode : Nat) (sessionPresent : Bool) : Option (List UInt8) := do
  let flags := if sessionPresent then 0x01 else 0x00
  let payload ← packBytes [flags, returnCode]
  pure (buildPacket PacketType.connack 0 payload)

def buildSuback (packetId : Nat) (returnCodes : List Nat) : Option (List UInt8) := do
  let id ← Struct.packH packetId
  let codes ← packBytes returnCodes
  pure (buildPacket PacketType.suback 0 (id ++ codes))

def buildUnsuback (packetId : Nat) : Option (List UInt8) := do
  let id ← Struct.packH packetId
  pure (buildPacket PacketType.unsuback 0 id)

def buildPuback (packetId : Nat) : Option (List UInt8) := do
  let id ← Struct.packH packetId
  pure (buildPacket PacketType.puback 0 id)

def buildPingresp : List UInt8 := buildPacket PacketType.pingresp 0 []

namespace Answer

def connack (returnCode : Nat) : MQTTPacket := ⟨PacketType.connack, 0, [0, UInt8.ofNat returnCode]⟩

def puback (packetId : Nat) : MQTTPacket := ⟨PacketType.puback, 0, bigEndian packetId⟩

def suback (packetId granted : Nat) : MQTTPacket := ⟨PacketType.suback, 0, bigEndian packetId ++ List.replicate granted 0⟩

def unsuback (packetId : Nat) : MQTTPacket := ⟨PacketType.unsuback, 0, bigEndian packetId⟩

def pingresp : MQTTPacket := ⟨PacketType.pingresp, 0, []⟩

theorem fits {packetType : Nat} (htype : packetType < 16) {payload : List UInt8} (hpayload : payload.length < 2 ^ 28) :
    (⟨packetType, 0, payload⟩ : MQTTPacket).Fits := ⟨htype, Nat.succ_pos 15, hpayload⟩

theorem small {n : Nat} (h : n ≤ 2) : n < 2 ^ 28 := by
  omega

theorem connack_fits (returnCode : Nat) : (connack returnCode).Fits := fits (by decide) (small (le_refl 2))

theorem puback_fits (packetId : Nat) : (puback packetId).Fits := fits (by decide) (small (le_refl 2))

theorem unsuback_fits (packetId : Nat) : (unsuback packetId).Fits := fits (by decide) (small (le_refl 2))

theorem pingresp_fits : pingresp.Fits := fits (by decide) (small (Nat.zero_le 2))

theorem suback_fits (packetId : Nat) {granted : Nat} (h : 2 + granted < 2 ^ 28) : (suback packetId granted).Fits := by
  refine fits (by decide) ?_
  rwa [List.length_append, length_bigEndian, List.length_replicate]

end Answer

theorem packH_bigEndian {n : Nat} (h : n < 65536) : Struct.packH n = some (bigEndian n) := if_pos h

theorem buildConnack_encode {returnCode : Nat} (h : returnCode < 256) :
    buildConnack returnCode false = some (Answer.connack returnCode).encode := by
  have hbytes : packBytes [0, returnCode] = some [0, UInt8.ofNat returnCode] :=
    if_pos (by simpa using h)
  simp only [buildConnack, Bool.false_eq_true, if_false, hbytes]
  rfl

theorem buildPuback_encode {packetId : Nat} (h : packetId < 65536) :
    buildPuback packetId = some (Answer.puback packetId).encode := by
  rw [buildPuback, packH_bigEndian h]
  rfl

theorem buildUnsuback_encode {packetId : Nat} (h : packetId < 65536) :
    buildUnsuback packetId = some (Answer.unsuback packetId).encode := by
  rw [buildUnsuback, packH_bigEndian h]
  rfl

theorem buildSuback_encode {packetId : Nat} (h : packetId < 65536) (granted : Nat) :
    buildSuback packetId (List.replicate granted 0) = some (Answer.suback packetId granted).encode := by
  have hbytes : packBytes (List.replicate granted 0) = some (List.replicate granted 0) := by
    rw [packBytes, if_pos (by simp), List.map_replicate]
    rfl
  rw [buildSuback, packH_bigEndian h, hbytes]
  rfl

section

variable {acc multiplier length k : Nat} {p : MQTTPacket} {bytes rest : List UInt8}

theorem decodeRemainingLength_append {r : Except ReadError Nat} (hr : ∀ got expected, r ≠ .error (.incompleteRead got expected))
    (h : decodeRemainingLength acc multiplier bytes = (r, rest)) (more : List UInt8) :
    decodeRemainingLength acc multiplier (bytes ++ more) = (r, rest ++ more) := by
  induction bytes generalizing acc multiplier with
  | nil =>
      cases h
      exact absurd rfl (hr [] 1)
  | cons byte bytes ih =>
      rw [List.cons_append]
      simp only [decodeRemainingLength] at h ⊢
      split at h
      · next hlast =>
          cases h
          rw [if_pos hlast]
      · next hlast =>
          rw [if_neg hlast]
          split at h
          · next hover =>
              cases h
              rw [if_pos hover]
          · next hover =>
              rw [if_neg hover]
              exact ih h

theorem decodeRemainingLength_bound (hk : k ≤ 3) (h : decodeRemainingLength acc (128 ^ (3 - k)) bytes = (.ok length, rest)) :
    length + 128 ^ (3 - k) ≤ acc + 128 ^ 4 := by
  induction k generalizing acc bytes with
  | zero =>
      cases bytes with
      | nil => cases h
      | cons byte bytes =>
          have hlow := (low_bits byte.toNat_lt).1
          rw [UInt8.ofNat_toNat] at hlow
          simp only [decodeRemainingLength] at h
          split at h
          · cases h
            rw [hlow]
            have hmod := Nat.mod_lt byte.toNat (show 0 < 128 by omega)
            omega
          · rw [if_pos (by omega)] at h
            cases h
  | succ k ih =>
      cases bytes with
      | nil => cases h
      | cons byte bytes =>
          have hlow := (low_bits byte.toNat_lt).1
          rw [UInt8.ofNat_toNat] at hlow
          obtain ⟨hle, hp⟩ := multiplier_le hk
          have hmod := Nat.mod_lt byte.toNat (show 0 < 128 by omega)
          have hpow : 128 ^ (3 - (k + 1)) * 128 ≤ 128 ^ 3 := hle
          have hterm : byte.toNat % 128 * 128 ^ (3 - (k + 1)) + 128 ^ (3 - (k + 1)) ≤ 128 ^ (3 - (k + 1)) * 128 := by
            rw [← Nat.succ_mul, Nat.mul_comm]
            exact Nat.mul_le_mul_left _ hmod
          simp only [decodeRemainingLength, hlow] at h
          split at h
          · cases h
            omega
          · rw [if_neg (Nat.not_lt.mpr hle), hp] at h
            have hrest := ih (by omega) h
            omega

theorem nibble_lt (byte : UInt8) : (byte &&& 0x0F).toNat < 16 := by
  rw [UInt8.toNat_and]
  exact Nat.lt_succ_of_le Nat.and_le_right

theorem readPayload_ok {payload : List UInt8} (h : readPayload length bytes = (.ok payload, rest)) :
    payload.length = length ∧ bytes = payload ++ rest := by
  unfold readPayload at h
  split at h
  · unfold readexactly at h
    split at h
    · cases h
    · next hlong =>
        cases h
        exact ⟨List.length_take_of_le (Nat.not_lt.mp hlong), (List.take_append_drop length bytes).symm⟩
  · next hzero =>
      cases h
      exact ⟨by simp only [List.length_nil]; omega, rfl⟩

theorem readPacket_ok (h : readPacket bytes = (.ok p, rest)) :
    p.Fits ∧ ∀ more, readPacket (bytes ++ more) = (.ok p, rest ++ more) := by
  cases bytes with
  | nil => cases h
  | cons first bytes =>
      rw [readPacket_header] at h
      cases hlength : decodeRemainingLength 0 1 bytes with
      | mk r middle =>
          cases r with
          | error x =>
              rw [readBody, bind_error hlength] at h
              cases h
          | ok length =>
              rw [readBody, bind_ok hlength] at h
              cases hpayload : readPayload length middle with
              | mk r last =>
                  cases r with
                  | error x =>
                      rw [bind_error hpayload] at h
                      cases h
                  | ok payload =>
                      rw [bind_ok hpayload] at h
                      cases h
                      obtain ⟨hsize, rfl⟩ := readPayload_ok hpayload
                      have hbound := @decodeRemainingLength_bound 0 length 3 bytes _ (le_refl 3) hlength
                      refine ⟨⟨nibble_lt _, nibble_lt _, by simp only [hsize]; omega⟩, fun more => ?_⟩
                      have hmore := decodeRemainingLength_append (fun _ _ h => by cases h) hlength more
                      subst hsize
                      rw [List.cons_append, readPacket_header, readBody, bind_ok hmore, List.append_assoc,
                        bind_ok (readPayload_append payload _)]
                      rfl

end

theorem parseSubscribe_bounds {data : List UInt8} {packetId : Nat} {topics : List (String × Nat)}
    (h : parseSubscribe data = .ok (packetId, topics)) : packetId < 65536 ∧ 2 + topics.length ≤ data.length := by
  obtain ⟨hid, _, rfl⟩ :=
    (entries_packet subscribeEntry_reads subscribeEntry_advances "Malformed SUBSCRIBE packet").mp h
  have hentries : topics.length ≤ (topics.flatMap subscribeEntryBytes).length := by
    have hsum := List.length_le_sum_of_one_le (topics.map fun entry => (subscribeEntryBytes entry).length) (by
      intro n hn
      obtain ⟨entry, _, rfl⟩ := List.mem_map.mp hn
      simp [subscribeEntryBytes])
    rwa [List.length_map, ← List.length_flatMap] at hsum
  rw [List.length_append, length_bigEndian]
  exact ⟨hid, Nat.add_le_add_left hentries 2⟩

theorem parseUnsubscribe_bound {data : List UInt8} {packetId : Nat} {topics : List String}
    (h : parseUnsubscribe data = .ok (packetId, topics)) : packetId < 65536 :=
  ((entries_packet (stringField_reads _) unsubscribeEntry_advances "Malformed UNSUBSCRIBE packet").mp h).1

theorem parsePublish_bound {flags : Nat} {data : List UInt8} {info : PublishInfo} {packetId : Nat}
    (h : parsePublish flags data = .ok info) (hid : info.packetId = some packetId) : packetId < 65536 :=
  (parsePublish_iff.mp h).1.packetId packetId hid

end PandaProxy.Mqtt
