import PandaProxy.Python.Packing

namespace PandaProxy.Camera

open Python

def authMagic : Nat := 0x40

def authCommand : Nat := 0x3000

-- `none` is the `struct.error`.
def createAuthPayload (accessCode : String) : Option (List UInt8) := do
  let username := Utf8.encode "bblp"
  let accessCodeBytes := Utf8.encode accessCode
  let magic ← Struct.packI authMagic
  let command ← Struct.packI authCommand
  some (magic ++ command ++ Struct.packS 8 (List.replicate 8 0) ++ Struct.packS 32 (Bytes.ljust 32 0 username) ++
    Struct.packS 32 (Bytes.ljust 32 0 accessCodeBytes))

-- `struct.unpack("<II8s32s32s", data)`
def unpackAuth (data : List UInt8) : Option (Nat × Nat × List UInt8 × List UInt8 × List UInt8) :=
  if data.length ≠ 80 then none
  else
    match Struct.fields [4, 4, 8, 32, 32] data with
    | [magic, command, padding, username, accessCode] => do
        some (← Struct.unpackI magic, ← Struct.unpackI command, padding, username, accessCode)
    | _ => none

def parseAuthPayload (data : List UInt8) : Option String :=
  if data.length ≠ 80 then none
  else
    match unpackAuth data with
    | none => none
    | some (magic, command, _, _, accessCode) =>
        if magic ≠ authMagic ∨ command ≠ authCommand then none
        else Utf8.decodeStrict (Bytes.rstrip 0 accessCode)

-- The check of `_handle_client`.
def authenticated (accessCode : String) (authData : List UInt8) : Bool := parseAuthPayload authData == some accessCode

structure Carried (accessCode : String) : Prop where
  fits : (Utf8.encode accessCode).length ≤ 32
  unpadded : (Utf8.encode accessCode).getLast? ≠ some 0

structure AuthPayload (data : List UInt8) (accessCode : String) : Prop where
  length : data.length = 80
  magic : Struct.packI authMagic = some (data.take 4)
  command : Struct.packI authCommand = some ((data.drop 4).take 4)
  carried : Carried accessCode
  accessCode : data.drop 48 = Bytes.ljust 32 0 (Utf8.encode accessCode)

variable {data : List UInt8} {accessCode accessCode' : String}

theorem layout_of_unpackAuth {m c : Nat} {padding username code : List UInt8}
    (h : unpackAuth data = some (m, c, padding, username, code)) :
    data.length = 80 ∧ Struct.packI m = some (data.take 4) ∧ Struct.packI c = some ((data.drop 4).take 4) ∧
      code = data.drop 48 := by
  rw [unpackAuth] at h
  split at h
  · cases h
  · next hlength =>
      rw [not_not] at hlength
      simp only [Struct.fields, bind, Option.bind_eq_some_iff, Option.some.injEq, Prod.mk.injEq, List.drop_drop] at h
      obtain ⟨m', hm, c', hc, rfl, rfl, _, _, rfl⟩ := h
      refine ⟨hlength, Struct.unpackI_iff.mp hm, Struct.unpackI_iff.mp hc, ?_⟩
      exact List.take_of_length_le (by rw [List.length_drop]; omega)

theorem stripped_code_iff {code bytes : List UInt8} (hcode : code.length = 32) :
    Bytes.rstrip 0 code = bytes ↔ bytes.length ≤ 32 ∧ bytes.getLast? ≠ some 0 ∧ code = Bytes.ljust 32 0 bytes := by
  constructor
  · rintro rfl
    refine ⟨hcode ▸ (List.rdropWhile_prefix _ _).length_le, ?_, ?_⟩
    · exact Bytes.rstrip_eq_self_iff.mp (List.rdropWhile_idempotent _ _)
    · rw [← hcode, Bytes.ljust_rstrip]
  · rintro ⟨_, hlast, rfl⟩
    rw [Bytes.rstrip_ljust]
    exact Bytes.rstrip_eq_self_iff.mpr hlast

theorem parseAuthPayload_iff : parseAuthPayload data = some accessCode ↔ AuthPayload data accessCode := by
  constructor
  · intro h
    rw [parseAuthPayload] at h
    split at h
    · cases h
    · split at h
      · cases h
      · next magic command padding username code hunpack =>
          obtain ⟨hlength, hmagic, hcommand, hcode⟩ := layout_of_unpackAuth hunpack
          split at h
          · cases h
          · next hheader =>
              rw [not_or, not_not, not_not] at hheader
              obtain ⟨rfl, rfl⟩ := hheader
              have hstripped := Utf8.decodeStrict_iff.mp h
              have hcodeLength : code.length = 32 := by rw [hcode, List.length_drop, hlength]
              obtain ⟨hfits, hunpadded, hpadded⟩ := (stripped_code_iff hcodeLength).mp hstripped
              exact ⟨hlength, hmagic, hcommand, ⟨hfits, hunpadded⟩, hcode ▸ hpadded⟩
  · intro h
    have hfields : unpackAuth data = some (authMagic, authCommand, (data.drop 8).take 8, (data.drop 16).take 32, data.drop 48) := by
      have hlast : (data.drop 48).length = 32 := by rw [List.length_drop, h.length]
      simp only [unpackAuth, h.length, ne_eq, not_true_eq_false, if_false, Struct.fields, List.drop_drop, bind, Option.bind,
        Struct.unpackI_iff.mpr h.magic, Struct.unpackI_iff.mpr h.command, Nat.reduceAdd,
        List.take_of_length_le hlast.le]
    have hstripped := (stripped_code_iff (by rw [List.length_drop, h.length])).mpr
      ⟨h.carried.fits, h.carried.unpadded, h.accessCode⟩
    simp only [parseAuthPayload, h.length, ne_eq, not_true_eq_false, if_false, hfields, or_self]
    exact Utf8.decodeStrict_iff.mpr hstripped

theorem createAuthPayload_layout (accessCode : String) : ∃ payload, createAuthPayload accessCode = some payload ∧
    payload.length = 80 ∧ (Carried accessCode → AuthPayload payload accessCode) := by
  obtain ⟨magic, hmagic⟩ : ∃ bytes, Struct.packI authMagic = some bytes := ⟨_, rfl⟩
  obtain ⟨command, hcommand⟩ : ∃ bytes, Struct.packI authCommand = some bytes := ⟨_, rfl⟩
  have hm := Struct.packI_length hmagic
  have hc := Struct.packI_length hcommand
  have hcreated : createAuthPayload accessCode = some (magic ++ command ++ Struct.packS 8 (List.replicate 8 0) ++
      Struct.packS 32 (Bytes.ljust 32 0 (Utf8.encode "bblp")) ++ Struct.packS 32 (Bytes.ljust 32 0 (Utf8.encode accessCode))) := by
    simp only [createAuthPayload, hmagic, hcommand, bind, Option.bind]
  refine ⟨_, hcreated, ?_, fun hcarried => ?_⟩
  · simp [hm, hc, Struct.packS_length]
  · have hcode : Struct.packS 32 (Bytes.ljust 32 0 (Utf8.encode accessCode)) = Bytes.ljust 32 0 (Utf8.encode accessCode) :=
      Struct.packS_full (Bytes.ljust_length hcarried.fits)
    refine ⟨by simp [hm, hc, Struct.packS_length], ?_, ?_, hcarried, ?_⟩
    · rw [List.append_assoc, List.append_assoc, List.append_assoc, List.take_left' hm, hmagic]
    · rw [List.append_assoc, List.append_assoc, List.append_assoc, List.drop_left' hm, List.take_left' hc, hcommand]
    · rw [List.drop_left' (by simp [hm, hc, Struct.packS_length]), hcode]

structure AuthPayloads : Prop where
  returned : ∀ accessCode, ((createAuthPayload accessCode).bind parseAuthPayload = some accessCode ↔ Carried accessCode)
  layout : ∀ data accessCode, parseAuthPayload data = some accessCode → AuthPayload data accessCode
  distinct : ∀ accessCode accessCode' payload, Carried accessCode → Carried accessCode' → accessCode ≠ accessCode' →
    createAuthPayload accessCode = some payload → authenticated accessCode' payload = false

theorem auth_payloads : AuthPayloads where
  returned accessCode := by
    obtain ⟨payload, hcreated, _, hlayout⟩ := createAuthPayload_layout accessCode
    rw [hcreated, Option.bind_some, parseAuthPayload_iff]
    exact ⟨AuthPayload.carried, hlayout⟩
  layout _ _ := parseAuthPayload_iff.mp
  distinct accessCode accessCode' payload hcarried _ hne hcreated := by
    obtain ⟨payload', hcreated', _, hlayout⟩ := createAuthPayload_layout accessCode
    cases hcreated.symm.trans hcreated'
    have hparsed := parseAuthPayload_iff.mpr (hlayout hcarried)
    rw [authenticated, hparsed, beq_eq_false_iff_ne]
    exact fun heq => hne (Option.some.inj heq)

end PandaProxy.Camera
