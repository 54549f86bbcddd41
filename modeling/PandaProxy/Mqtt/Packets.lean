import Mathlib.Data.List.Infix
import Mathlib.Tactic.Ring
import PandaProxy.Python.Bytes
import PandaProxy.Python.StreamReader

namespace PandaProxy.Mqtt

open Python Reading

namespace PacketType

def connect : Nat := 1
def connack : Nat := 2
def publish : Nat := 3
def puback : Nat := 4
def subscribe : Nat := 8
def suback : Nat := 9
def unsubscribe : Nat := 10
def unsuback : Nat := 11
def pingreq : Nat := 12
def pingresp : Nat := 13
def disconnect : Nat := 14

end PacketType

structure MQTTPacket where
  packetType : Nat
  flags : Nat
  payload : List UInt8
  deriving DecidableEq, Repr

structure PublishInfo where
  topic : String
  payload : List UInt8
  qos : Nat
  packetId : Option Nat
  deriving DecidableEq, Repr

def encodeRemainingLength (length : Nat) : List UInt8 :=
  let byte := length % 128
  let length' := length / 128
  if length' > 0 then UInt8.ofNat (byte ||| 0x80) :: encodeRemainingLength length'
  else [UInt8.ofNat byte]
termination_by length

-- The loop of `read_packet`, one `readexactly(1)` for each byte of the buffer.
def decodeRemainingLength (remainingLength multiplier : Nat) : Reading Nat
  | [] => (.error (.incompleteRead [] 1), [])
  | byte :: buffer =>
      let remainingLength := remainingLength + (byte &&& 0x7F).toNat * multiplier
      if byte &&& 0x80 = 0 then (.ok remainingLength, buffer)
      else
        let multiplier := multiplier * 128
        if multiplier > 128 ^ 3 then (.error (.valueError "Malformed remaining length in MQTT packet"), buffer)
        else decodeRemainingLength remainingLength multiplier buffer

def readPayload (remainingLength : Nat) : Reading (List UInt8) :=
  if remainingLength > 0 then readexactly remainingLength else pure []

def readBody (firstByte : UInt8) : Reading MQTTPacket := do
  let packetType := (firstByte >>> 4 &&& 0x0F).toNat
  let flags := (firstByte &&& 0x0F).toNat
  let remainingLength ← decodeRemainingLength 0 1
  let payload ← readPayload remainingLength
  pure ⟨packetType, flags, payload⟩

def readPacket : Reading MQTTPacket := do
  let firstByte ← readexactly 1
  readBody (firstByte.headD 0)

def buildPacket (packetType flags : Nat) (payload : List UInt8) : List UInt8 :=
  let firstByte := (packetType &&& 0x0F) <<< 4 ||| (flags &&& 0x0F)
  [UInt8.ofNat firstByte] ++ encodeRemainingLength payload.length ++ payload

-- `none` is the `struct.error` of a length or a packet id that does not fit.
def buildPublish (topic : String) (payload : List UInt8) (qos packetId : Nat) : Option (List UInt8) := do
  let flags := (qos &&& 0x03) <<< 1
  let topicBytes := Utf8.encode topic
  let length ← Struct.packH topicBytes.length
  let id ← if qos > 0 then Struct.packH packetId else some []
  pure (buildPacket PacketType.publish flags (length ++ topicBytes ++ id ++ payload))

inductive ParseError where
  | structError
  | indexError
  | unicodeDecodeError
  | valueError (message : String)
  | malformed (message : String) (cause : ParseError)
  deriving DecidableEq, Repr

def readString (data : List UInt8) (offset : Nat) (errorPrefix : String) : Except ParseError (String × Nat) :=
  match Struct.unpackH data offset with
  | none => .error .structError
  | some length =>
      let offset := offset + 2
      if offset + length > data.length then
        .error (.valueError (errorPrefix ++ ": string length " ++ toString length ++ " exceeds remaining payload"))
      else
        match Utf8.decodeStrict ((data.take (offset + length)).drop offset) with
        | none => .error .unicodeDecodeError
        | some value => .ok (value, offset + length)

-- `except (struct.error, IndexError, UnicodeDecodeError)`
def guarded (message : String) {α : Type} : Except ParseError α → Except ParseError α
  | .error (.valueError text) => .error (.valueError text)
  | .error cause => .error (.malformed message cause)
  | .ok a => .ok a

def parsePublish (flags : Nat) (data : List UInt8) : Except ParseError PublishInfo :=
  guarded "Malformed PUBLISH packet" do
    let qos := flags >>> 1 &&& 0x03
    let (topic, offset) ← readString data 0 "Malformed PUBLISH packet"
    if qos > 0 then
      match Struct.unpackH data offset with
      | none => .error .structError
      | some packetId => .ok ⟨topic, data.drop (offset + 2), qos, some packetId⟩
    else .ok ⟨topic, data.drop offset, qos, none⟩

theorem encodeRemainingLength_eq (n : Nat) : encodeRemainingLength n =
    if n < 128 then [UInt8.ofNat n]
    else UInt8.ofNat (n % 128 + 128) :: encodeRemainingLength (n / 128) := by
  rw [encodeRemainingLength]
  have hor : n % 128 ||| 0x80 = n % 128 + 128 := by
    have hlt : n % 128 < 2 ^ 7 := Nat.mod_lt n (by omega)
    calc n % 128 ||| 0x80 = 2 ^ 7 * 1 ||| n % 128 := Nat.or_comm _ _
      _ = 2 ^ 7 * 1 + n % 128 := (Nat.two_pow_add_eq_or_of_lt hlt 1).symm
      _ = n % 128 + 128 := by omega
  split
  · rw [if_neg (by omega), hor]
  · rw [if_pos (by omega), Nat.mod_eq_of_lt (by omega)]

theorem low_bits {n : Nat} (h : n < 256) : (UInt8.ofNat n &&& 0x7F).toNat = n % 128 ∧
    (UInt8.ofNat n &&& 0x80 = 0 ↔ n < 128) := by
  refine (?_ : ∀ m < 256, (UInt8.ofNat m &&& 0x7F).toNat = m % 128 ∧
    (UInt8.ofNat m &&& 0x80 = 0 ↔ m < 128)) n h
  decide +kernel

theorem firstByte_fields {t f : Nat} (ht : t < 16) (hf : f < 16) :
    (UInt8.ofNat ((t &&& 0x0F) <<< 4 ||| (f &&& 0x0F)) >>> 4 &&& 0x0F).toNat = t ∧
      (UInt8.ofNat ((t &&& 0x0F) <<< 4 ||| (f &&& 0x0F)) &&& 0x0F).toNat = f := by
  refine (?_ : ∀ t < 16, ∀ f < 16,
    (UInt8.ofNat ((t &&& 0x0F) <<< 4 ||| (f &&& 0x0F)) >>> 4 &&& 0x0F).toNat = t ∧
      (UInt8.ofNat ((t &&& 0x0F) <<< 4 ||| (f &&& 0x0F)) &&& 0x0F).toNat = f) t ht f hf
  decide +kernel

section

variable {n k acc : Nat} {pre rest : List UInt8}

theorem decodeRemainingLength_last (h : n < 128) (acc multiplier : Nat) (rest : List UInt8) :
    decodeRemainingLength acc multiplier (UInt8.ofNat n :: rest) = (.ok (acc + n * multiplier), rest) := by
  obtain ⟨hlow, hhigh⟩ := low_bits (show n < 256 by omega)
  simp only [decodeRemainingLength, hlow, if_pos (hhigh.mpr h), Nat.mod_eq_of_lt h]

theorem decodeRemainingLength_more (h : n < 128) {multiplier : Nat} (hm : multiplier * 128 ≤ 128 ^ 3)
    (acc : Nat) (rest : List UInt8) :
    decodeRemainingLength acc multiplier (UInt8.ofNat (n + 128) :: rest) =
      decodeRemainingLength (acc + n * multiplier) (multiplier * 128) rest := by
  obtain ⟨hlow, hhigh⟩ := low_bits (show n + 128 < 256 by omega)
  have hcontinues : ¬ UInt8.ofNat (n + 128) &&& 0x80 = 0 := fun he => absurd (hhigh.mp he) (by omega)
  have hmod : (n + 128) % 128 = n := by omega
  simp only [decodeRemainingLength, hlow, if_neg hcontinues, hmod, if_neg (Nat.not_lt.mpr hm)]

theorem multiplier_le (hk : k + 1 ≤ 3) : 128 ^ (3 - (k + 1)) * 128 ≤ 128 ^ 3 ∧
    128 ^ (3 - (k + 1)) * 128 = 128 ^ (3 - k) := by
  have he : 3 - k = 3 - (k + 1) + 1 := by omega
  have hp : 128 ^ (3 - (k + 1)) * 128 = 128 ^ (3 - k) := by rw [he, Nat.pow_succ]
  exact ⟨hp ▸ Nat.pow_le_pow_right (by omega) (by omega), hp⟩

theorem decodeRemainingLength_encode (hk : k ≤ 3) (hn : n < 128 ^ (k + 1)) (rest : List UInt8) :
    decodeRemainingLength acc (128 ^ (3 - k)) (encodeRemainingLength n ++ rest) =
      (.ok (acc + n * 128 ^ (3 - k)), rest) := by
  induction k generalizing n acc with
  | zero =>
      rw [encodeRemainingLength_eq, if_pos (by omega)]
      exact decodeRemainingLength_last (by omega) acc _ rest
  | succ k ih =>
      rw [encodeRemainingLength_eq]
      split
      · next h => exact decodeRemainingLength_last h acc _ rest
      · obtain ⟨hle, hp⟩ := multiplier_le hk
        have hdiv : n / 128 < 128 ^ (k + 1) := by
          rw [Nat.div_lt_iff_lt_mul (by omega)]
          exact hn.trans_eq (Nat.pow_succ ..)
        rw [List.cons_append, decodeRemainingLength_more (Nat.mod_lt n (by omega)) hle, hp,
          ih (by omega) hdiv, ← hp]
        have hsum : n % 128 * 128 ^ (3 - (k + 1)) + n / 128 * (128 ^ (3 - (k + 1)) * 128) =
            n * 128 ^ (3 - (k + 1)) := by
          have hn' : n * 128 ^ (3 - (k + 1)) = (n % 128 + 128 * (n / 128)) * 128 ^ (3 - (k + 1)) := by
            rw [Nat.mod_add_div]
          rw [hn']
          ring
        rw [Nat.add_assoc, hsum]

theorem decodeRemainingLength_truncated (hk : k ≤ 3) (hn : n < 128 ^ (k + 1))
    (hpre : pre <+: encodeRemainingLength n) (hne : pre ≠ encodeRemainingLength n) :
    decodeRemainingLength acc (128 ^ (3 - k)) pre = (.error (.incompleteRead [] 1), []) := by
  induction k generalizing n acc pre with
  | zero =>
      rw [encodeRemainingLength_eq, if_pos (by omega)] at hpre hne
      cases pre with
      | nil => rfl
      | cons byte pre =>
          obtain ⟨rfl, hnil⟩ := List.cons_prefix_cons.mp hpre
          rw [List.prefix_nil.mp hnil] at hne
          exact absurd rfl hne
  | succ k ih =>
      cases pre with
      | nil => rfl
      | cons byte pre =>
          rw [encodeRemainingLength_eq] at hpre hne
          split at hpre
          · next h =>
              obtain ⟨rfl, hnil⟩ := List.cons_prefix_cons.mp hpre
              rw [if_pos h, List.prefix_nil.mp hnil] at hne
              exact absurd rfl hne
          · next h =>
              obtain ⟨rfl, hrest⟩ := List.cons_prefix_cons.mp hpre
              obtain ⟨hle, hp⟩ := multiplier_le hk
              have hdiv : n / 128 < 128 ^ (k + 1) := by
                rw [Nat.div_lt_iff_lt_mul (by omega)]
                exact hn.trans_eq (Nat.pow_succ ..)
              rw [if_neg h] at hne
              rw [decodeRemainingLength_more (Nat.mod_lt n (by omega)) hle, hp]
              exact ih (by omega) hdiv hrest (fun he => hne (by rw [he]))

theorem decodeRemainingLength_unending {a b c d : UInt8} (ha : a &&& 0x80 ≠ 0) (hb : b &&& 0x80 ≠ 0)
    (hc : c &&& 0x80 ≠ 0) (hd : d &&& 0x80 ≠ 0) (rest : List UInt8) :
    decodeRemainingLength 0 1 (a :: b :: c :: d :: rest) =
      (.error (.valueError "Malformed remaining length in MQTT packet"), rest) := by
  simp [decodeRemainingLength, ha, hb, hc, hd]

end

structure MQTTPacket.Fits (p : MQTTPacket) : Prop where
  packetType : p.packetType < 16
  flags : p.flags < 16
  payload : p.payload.length < 2 ^ 28

def MQTTPacket.encode (p : MQTTPacket) : List UInt8 := buildPacket p.packetType p.flags p.payload

section

variable {p : MQTTPacket} {pre rest : List UInt8}

theorem readPacket_header (first : UInt8) (rest : List UInt8) : readPacket (first :: rest) = readBody first rest := by
  have hfirst : readexactly 1 (first :: rest) = (.ok [first], rest) := by simp [readexactly]
  rw [readPacket, bind_ok hfirst, List.headD_cons]

theorem readPayload_append (payload rest : List UInt8) :
    readPayload payload.length (payload ++ rest) = (.ok payload, rest) := by
  rw [readPayload]
  split
  · exact readexactly_append rfl rest
  · next hz =>
      rw [List.eq_nil_of_length_eq_zero (by omega : payload.length = 0)]
      rfl

theorem readPayload_short {n : Nat} (h : rest.length < n) :
    readPayload n rest = (.error (.incompleteRead rest n), []) := by
  rw [readPayload, if_pos (by omega)]
  exact readexactly_short h

theorem readPacket_unending {a b c d : UInt8} (ha : a &&& 0x80 ≠ 0) (hb : b &&& 0x80 ≠ 0)
    (hc : c &&& 0x80 ≠ 0) (hd : d &&& 0x80 ≠ 0) (first : UInt8) (rest : List UInt8) :
    readPacket (first :: a :: b :: c :: d :: rest) =
      (.error (.valueError "Malformed remaining length in MQTT packet"), rest) := by
  rw [readPacket_header]
  exact bind_error (decodeRemainingLength_unending ha hb hc hd rest)

theorem readPacket_encode (h : p.Fits) (rest : List UInt8) : readPacket (p.encode ++ rest) = (.ok p, rest) := by
  obtain ⟨htype, hflags⟩ := firstByte_fields h.packetType h.flags
  have hlength : decodeRemainingLength 0 1 (encodeRemainingLength p.payload.length ++ (p.payload ++ rest)) =
      (.ok p.payload.length, p.payload ++ rest) := by
    have hd := @decodeRemainingLength_encode p.payload.length 3 0 (le_refl 3) h.payload (p.payload ++ rest)
    simpa using hd
  have happend : p.encode ++ rest = UInt8.ofNat ((p.packetType &&& 0x0F) <<< 4 ||| (p.flags &&& 0x0F)) ::
      (encodeRemainingLength p.payload.length ++ (p.payload ++ rest)) := by
    simp only [MQTTPacket.encode, buildPacket, List.append_assoc, List.cons_append, List.nil_append]
  rw [happend, readPacket_header, readBody, bind_ok hlength, bind_ok (readPayload_append _ _), htype, hflags]
  rfl

theorem readPacket_truncated (h : p.Fits) (hpre : pre <+: p.encode) (hne : pre ≠ p.encode) :
    ∃ got expected, readPacket pre = (.error (.incompleteRead got expected), []) := by
  cases pre with
  | nil => exact ⟨[], 1, rfl⟩
  | cons first pre =>
      have hencode : p.encode = UInt8.ofNat ((p.packetType &&& 0x0F) <<< 4 ||| (p.flags &&& 0x0F)) ::
          (encodeRemainingLength p.payload.length ++ p.payload) := by
        simp only [MQTTPacket.encode, buildPacket, List.cons_append, List.nil_append]
      rw [hencode] at hpre hne
      obtain ⟨rfl, hrest⟩ := List.cons_prefix_cons.mp hpre
      have hne' : pre ≠ encodeRemainingLength p.payload.length ++ p.payload := fun he => hne (by rw [he])
      rw [readPacket_header]
      have hlong : encodeRemainingLength p.payload.length <+: pre ∨
          (pre <+: encodeRemainingLength p.payload.length ∧ pre ≠ encodeRemainingLength p.payload.length) := by
        rcases List.prefix_or_prefix_of_prefix hrest (List.prefix_append _ p.payload) with hs | hl
        · by_cases he : pre = encodeRemainingLength p.payload.length
          · exact .inl (he ▸ List.prefix_refl _)
          · exact .inr ⟨hs, he⟩
        · exact .inl hl
      rcases hlong with ⟨got, rfl⟩ | ⟨hshort, hproper⟩
      · have hgot : got <+: p.payload := (List.prefix_append_right_inj _).mp hrest
        have hlt : got.length < p.payload.length := by
          refine lt_of_le_of_ne hgot.length_le (fun he => hne' ?_)
          rw [hgot.eq_of_length he]
        have hlength := @decodeRemainingLength_encode p.payload.length 3 0 (le_refl 3) h.payload got
        refine ⟨got, p.payload.length, ?_⟩
        rw [readBody, bind_ok (by simpa using hlength)]
        exact bind_error (readPayload_short hlt)
      · have hlength := @decodeRemainingLength_truncated p.payload.length 3 0 pre (le_refl 3) h.payload hshort hproper
        exact ⟨[], 1, bind_error (by simpa using hlength)⟩

theorem readPackets_encode {packets : List MQTTPacket} (h : ∀ p ∈ packets, p.Fits) (rest : List UInt8) :
    times readPacket packets.length (packets.flatMap MQTTPacket.encode ++ rest) = (.ok packets, rest) := by
  induction packets with
  | nil => rfl
  | cons p packets ih =>
      have hfirst := readPacket_encode (h p List.mem_cons_self) (packets.flatMap MQTTPacket.encode ++ rest)
      rw [List.flatMap_cons, List.append_assoc]
      exact times_ok hfirst (ih fun q hq => h q (List.mem_cons_of_mem p hq))

end

theorem flags_qos {qos : Nat} (h : qos ≤ 2) :
    (qos &&& 0x03) <<< 1 < 16 ∧ ((qos &&& 0x03) <<< 1) >>> 1 &&& 0x03 = qos := by
  refine (?_ : ∀ q ≤ 2, (q &&& 0x03) <<< 1 < 16 ∧ ((q &&& 0x03) <<< 1) >>> 1 &&& 0x03 = q) qos h
  decide

theorem readString_encode {length : List UInt8} {s : String} (h : Struct.packH (Utf8.encode s).length = some length)
    (rest : List UInt8) (errorPrefix : String) :
    readString (length ++ Utf8.encode s ++ rest) 0 errorPrefix = .ok (s, 2 + (Utf8.encode s).length) := by
  obtain ⟨htwo, hread⟩ := Struct.packH_unpackH h [] (Utf8.encode s ++ rest)
  have hlength : Struct.unpackH (length ++ Utf8.encode s ++ rest) 0 = some (Utf8.encode s).length := by
    rw [List.append_assoc]
    exact hread
  have hbytes : ((length ++ Utf8.encode s ++ rest).take (2 + (Utf8.encode s).length)).drop 2 = Utf8.encode s := by
    have hlen : 2 + (Utf8.encode s).length = (length ++ Utf8.encode s).length := by
      rw [List.length_append, htwo]
    rw [hlen, List.take_left, ← htwo, List.drop_left]
  have hfits : ¬ 0 + 2 + (Utf8.encode s).length > (length ++ Utf8.encode s ++ rest).length := by
    simp only [List.length_append]
    omega
  simp only [readString, hlength, if_neg hfits]
  rw [Nat.zero_add, hbytes, Utf8.decodeStrict_encode]

structure Publication where
  topic : String
  payload : List UInt8
  qos : Nat
  packetId : Nat

namespace Publication

structure Fits (m : Publication) : Prop where
  qos : m.qos ≤ 2
  topic : (Utf8.encode m.topic).length ≤ 65535
  packetId : m.qos > 0 → m.packetId < 65536
  packet : 2 + (Utf8.encode m.topic).length + (if m.qos > 0 then 2 else 0) + m.payload.length < 2 ^ 28

def build (m : Publication) : Option (List UInt8) := buildPublish m.topic m.payload m.qos m.packetId

def info (m : Publication) : PublishInfo :=
  ⟨m.topic, m.payload, m.qos, if m.qos > 0 then some m.packetId else none⟩

theorem build_parse {m : Publication} (h : m.Fits) : ∃ p : MQTTPacket, p.Fits ∧ m.build = some p.encode ∧
    p.packetType = PacketType.publish ∧ parsePublish p.flags p.payload = .ok m.info := by
  obtain ⟨hflags, hqos⟩ := flags_qos h.qos
  obtain ⟨length, hlength⟩ := Struct.packH_isSome (n := (Utf8.encode m.topic).length) (by have := h.topic; omega)
  have htwo := (Struct.packH_unpackH hlength [] []).1
  have hpacket := h.packet
  by_cases hpos : m.qos > 0
  · obtain ⟨id, hid⟩ := Struct.packH_isSome (h.packetId hpos)
    obtain ⟨hidtwo, hread⟩ := Struct.packH_unpackH hid (length ++ Utf8.encode m.topic) m.payload
    refine ⟨⟨PacketType.publish, (m.qos &&& 0x03) <<< 1, length ++ Utf8.encode m.topic ++ id ++ m.payload⟩,
      ⟨(by decide : PacketType.publish < 16), hflags, ?_⟩, ?_, rfl, ?_⟩
    · rw [if_pos hpos] at hpacket
      simp only [List.length_append, htwo, hidtwo]
      omega
    · simp only [build, buildPublish, hlength, if_pos hpos, hid]
      rfl
    · have hstring := readString_encode hlength (id ++ m.payload) "Malformed PUBLISH packet"
      have hoffset : (length ++ Utf8.encode m.topic).length = 2 + (Utf8.encode m.topic).length := by
        rw [List.length_append, htwo]
      have hpayload : (length ++ Utf8.encode m.topic ++ (id ++ m.payload)).drop
          (2 + (Utf8.encode m.topic).length + 2) = m.payload := by
        rw [← List.append_assoc, ← hoffset, ← hidtwo, ← List.length_append, List.drop_left]
      rw [hoffset] at hread
      simp only [parsePublish, hqos, List.append_assoc] at hstring hread hpayload ⊢
      simp only [hstring, bind, Except.bind, if_pos hpos, hread, hpayload]
      simp only [guarded, info, if_pos hpos]
  · refine ⟨⟨PacketType.publish, (m.qos &&& 0x03) <<< 1, length ++ Utf8.encode m.topic ++ [] ++ m.payload⟩,
      ⟨(by decide : PacketType.publish < 16), hflags, ?_⟩, ?_, rfl, ?_⟩
    · rw [if_neg hpos] at hpacket
      simp only [List.length_append, htwo, List.length_nil]
      omega
    · simp only [build, buildPublish, hlength, if_neg hpos]
      rfl
    · have hstring := readString_encode hlength m.payload "Malformed PUBLISH packet"
      have hpayload : (length ++ Utf8.encode m.topic ++ m.payload).drop (2 + (Utf8.encode m.topic).length) =
          m.payload := by
        rw [← htwo, ← List.length_append, List.drop_left]
      simp only [parsePublish, hqos, List.append_assoc, List.nil_append] at hstring hpayload ⊢
      simp only [hstring, bind, Except.bind, if_neg hpos, hpayload]
      simp only [guarded, info, if_neg hpos]

end Publication

theorem mapM_build {messages : List Publication} (h : ∀ m ∈ messages, m.Fits) :
    ∃ packets : List MQTTPacket, (∀ p ∈ packets, p.Fits) ∧
      messages.mapM Publication.build = some (packets.map MQTTPacket.encode) ∧
      packets.map (fun p => (p.packetType, parsePublish p.flags p.payload)) =
        messages.map (fun m => (PacketType.publish, .ok m.info)) := by
  induction messages with
  | nil => exact ⟨[], nofun, rfl, rfl⟩
  | cons m messages ih =>
      obtain ⟨p, hp, hbuild, htype, hparse⟩ := Publication.build_parse (h m List.mem_cons_self)
      obtain ⟨packets, hpackets, hall, hinfos⟩ := ih (fun n hn => h n (List.mem_cons_of_mem m hn))
      refine ⟨p :: packets, ?_, ?_, ?_⟩
      · intro q hq
        rcases List.mem_cons.mp hq with rfl | hq
        · exact hp
        · exact hpackets q hq
      · simp only [List.mapM_cons, hbuild, hall, List.map_cons]
        rfl
      · simp only [List.map_cons, htype, hparse, hinfos]

-- Reading a stream of packets, of a packet cut short, of an overlong length, and of publications.
structure LosslessFraming : Prop where
  stream : ∀ (packets : List MQTTPacket) (rest : List UInt8), (∀ p ∈ packets, p.Fits) →
    times readPacket packets.length (packets.flatMap MQTTPacket.encode ++ rest) = (.ok packets, rest)
  truncated : ∀ (p : MQTTPacket) (pre : List UInt8), p.Fits → pre <+: p.encode → pre ≠ p.encode →
    ∃ got expected, readPacket pre = (.error (.incompleteRead got expected), [])
  overlong : ∀ (first a b c d : UInt8) (rest : List UInt8), (∀ x ∈ [a, b, c, d], x &&& 0x80 ≠ 0) →
    ∃ message, readPacket (first :: a :: b :: c :: d :: rest) = (.error (.valueError message), rest)
  publications : ∀ messages : List Publication, (∀ m ∈ messages, m.Fits) →
    ∃ raws, messages.mapM Publication.build = some raws ∧ ∀ rest, ∃ packets,
      times readPacket messages.length (raws.flatten ++ rest) = (.ok packets, rest) ∧
      packets.map (fun p => (p.packetType, parsePublish p.flags p.payload)) =
        messages.map (fun m => (PacketType.publish, .ok m.info))

theorem lossless_framing : LosslessFraming where
  stream packets rest h := readPackets_encode h rest
  truncated p pre h hpre hne := readPacket_truncated h hpre hne
  overlong first a b c d rest h := by
    exact ⟨_, readPacket_unending (h a (by simp)) (h b (by simp)) (h c (by simp)) (h d (by simp)) first rest⟩
  publications messages h := by
    obtain ⟨packets, hpackets, hbuild, hinfos⟩ := mapM_build h
    refine ⟨_, hbuild, fun rest => ⟨packets, ?_, hinfos⟩⟩
    have hcount : messages.length = packets.length := by
      have := congrArg List.length hinfos
      simpa using this.symm
    rw [hcount]
    exact readPackets_encode hpackets rest

def pingThenAck : List MQTTPacket := [⟨PacketType.pingreq, 0, []⟩, ⟨PacketType.puback, 2, List.replicate 130 7⟩]

theorem lossless_framing_pair : times readPacket 2 (pingThenAck.flatMap MQTTPacket.encode ++ [0xE0, 0]) =
    (.ok pingThenAck, [0xE0, 0]) := by
  refine lossless_framing.stream pingThenAck [0xE0, 0] (fun p hp => ?_)
  simp only [pingThenAck, List.mem_cons, List.not_mem_nil, or_false] at hp
  rcases hp with rfl | rfl
  · exact ⟨by decide, by decide, by decide⟩
  · exact ⟨by decide, by decide, by simp⟩

end PandaProxy.Mqtt
