import PandaProxy.Mqtt.Packets
import PandaProxy.Python.Cursor

namespace PandaProxy.Mqtt

open Python

structure ConnectInfo where
  clientId : String
  username : Option String
  password : Option String
  keepalive : Nat
  cleanSession : Bool
  deriving DecidableEq, Repr

def unpackFrom (data : List UInt8) (offset : Nat) : Except ParseError Nat :=
  match Struct.unpackH data offset with
  | none => .error .structError
  | some n => .ok n

def byteAt (data : List UInt8) (offset : Nat) : Except ParseError Nat :=
  match data[offset]? with
  | none => .error .indexError
  | some byte => .ok byte.toNat

def skipString (data : List UInt8) (offset : Nat) (errorPrefix : String) : Except ParseError Nat := do
  let length ← unpackFrom data offset
  let offset := offset + 2
  if offset + length > data.length then
    .error (.valueError (errorPrefix ++ ": field length " ++ toString length ++ " exceeds remaining payload"))
  else .ok (offset + length)

def skipField (message : String) : Cursor ParseError Unit := fun data offset => do
  let next ← skipString data offset message
  pure ((), next)

def stringField (message : String) : Cursor ParseError String := fun data offset => readString data offset message

def parseConnect (data : List UInt8) : Except ParseError ConnectInfo :=
  let field := stringField "Malformed CONNECT packet"
  let skip := skipField "Malformed CONNECT packet"
  let will := skip.bind fun _ => skip
  guarded "Malformed CONNECT packet" do
    let offset := 0
    let protoLen ← unpackFrom data offset
    let offset := offset + (2 + protoLen)
    let offset := offset + 1
    let connectFlags ← byteAt data offset
    let offset := offset + 1
    let hasUsername := connectFlags &&& 0x80 != 0
    let hasPassword := connectFlags &&& 0x40 != 0
    let hasWill := connectFlags &&& 0x04 != 0
    let cleanSession := connectFlags &&& 0x02 != 0
    let keepalive ← unpackFrom data offset
    let offset := offset + 2
    let (clientId, offset) ← readString data offset "Malformed CONNECT packet"
    let (_, offset) ← (will.when hasWill) data offset
    let (username, offset) ← (field.when hasUsername) data offset
    let (password, _) ← (field.when hasPassword) data offset
    pure ⟨clientId, username, password, keepalive, cleanSession⟩

def subscribeEntry : Cursor ParseError (String × Nat) := fun data offset => do
  let (topic, offset) ← readString data offset "Malformed SUBSCRIBE packet"
  let qos ← byteAt data offset
  pure ((topic, qos), offset + 1)

def unsubscribeEntry : Cursor ParseError String := stringField "Malformed UNSUBSCRIBE packet"

theorem readString_advances {data : List UInt8} {offset next : Nat} {message s : String}
    (h : readString data offset message = .ok (s, next)) : offset < next := by
  unfold readString at h
  split at h
  · cases h
  · dsimp only at h
    split at h
    · cases h
    · split at h
      · cases h
      · cases h
        omega

theorem unsubscribeEntry_advances : unsubscribeEntry.Advances := readString_advances

theorem subscribeEntry_advances : subscribeEntry.Advances := by
  intro data offset a next h
  unfold subscribeEntry at h
  cases hread : readString data offset "Malformed SUBSCRIBE packet" with
  | error x =>
      rw [hread] at h
      cases h
  | ok p =>
      obtain ⟨topic, middle⟩ := p
      have hmiddle := readString_advances hread
      rw [hread] at h
      dsimp only [bind, Except.bind] at h
      split at h
      · cases h
      · cases h
        omega

def parseSubscribe (data : List UInt8) : Except ParseError (Nat × List (String × Nat)) :=
  guarded "Malformed SUBSCRIBE packet" do
    let offset := 0
    let packetId ← unpackFrom data offset
    let offset := offset + 2
    let topics ← Cursor.entries subscribeEntry subscribeEntry_advances data offset []
    pure (packetId, topics)

def parseUnsubscribe (data : List UInt8) : Except ParseError (Nat × List String) :=
  guarded "Malformed UNSUBSCRIBE packet" do
    let offset := 0
    let packetId ← unpackFrom data offset
    let offset := offset + 2
    let topics ← Cursor.entries unsubscribeEntry unsubscribeEntry_advances data offset []
    pure (packetId, topics)

-- `UnicodeDecodeError` is a `ValueError`.
def ParseError.isValueError : ParseError → Bool
  | .valueError _ => true
  | .malformed _ _ => true
  | .unicodeDecodeError => true
  | _ => false

theorem guarded_ok {α : Type} {message : String} {x : Except ParseError α} {a : α} :
    guarded message x = .ok a ↔ x = .ok a := by
  cases x with
  | ok b => rfl
  | error cause => cases cause <;> exact ⟨nofun, nofun⟩

theorem guarded_error {α : Type} {message : String} {x : Except ParseError α} {cause : ParseError}
    (h : guarded message x = .error cause) : cause.isValueError = true := by
  cases x with
  | ok b => cases h
  | error inner => cases inner <;> cases h <;> rfl

theorem guarded_cases {α : Type} (message : String) (x : Except ParseError α) :
    (∃ a, guarded message x = .ok a) ∨ ∃ cause, guarded message x = .error cause ∧ cause.isValueError = true := by
  cases h : guarded message x with
  | ok a => exact .inl ⟨a, rfl⟩
  | error cause => exact .inr ⟨cause, rfl, guarded_error h⟩

def bigEndian (n : Nat) : List UInt8 := [UInt8.ofNat (n / 256), UInt8.ofNat (n % 256)]

def prefixed (bytes : List UInt8) : List UInt8 := bigEndian bytes.length ++ bytes

section

variable {data before bytes rest : List UInt8} {offset n : Nat} {message s : String}

theorem unpackFrom_iff : unpackFrom data offset = .ok n ↔ Struct.unpackH data offset = some n := by
  unfold unpackFrom
  split
  · next h => simp [h]
  · next m h => simp [h]

theorem unpackH_some (h : Struct.unpackH data offset = some n) :
    ∃ rest, data.drop offset = bigEndian n ++ rest ∧ n < 65536 := by
  unfold Struct.unpackH at h
  split at h
  · next high low rest hdata =>
      cases h
      have hhigh := high.toNat_lt
      have hlow := low.toNat_lt
      have hdiv : (high.toNat * 256 + low.toNat) / 256 = high.toNat := by
        omega
      have hmod : (high.toNat * 256 + low.toNat) % 256 = low.toNat := by
        omega
      exact ⟨rest, by simp [hdata, bigEndian, hdiv, hmod], by omega⟩
  · cases h

theorem unpackH_bigEndian (h : n < 65536) (before rest : List UInt8) :
    Struct.unpackH (before ++ (bigEndian n ++ rest)) before.length = some n := by
  have hpack : Struct.packH n = some (bigEndian n) := if_pos h
  exact (Struct.packH_unpackH hpack before rest).2

theorem length_bigEndian : (bigEndian n).length = 2 := rfl

theorem byteAt_ok (h : byteAt data offset = .ok n) :
    ∃ rest, data.drop offset = UInt8.ofNat n :: rest ∧ n < 256 := by
  unfold byteAt at h
  split at h
  · cases h
  · next byte hbyte =>
      cases h
      obtain ⟨hlt, hget⟩ := List.getElem?_eq_some_iff.mp hbyte
      exact ⟨data.drop (offset + 1), by rw [List.drop_eq_getElem_cons hlt, hget]; simp, byte.toNat_lt⟩

theorem byteAt_byte (h : n < 256) (before rest : List UInt8) :
    byteAt (before ++ (UInt8.ofNat n :: rest)) before.length = .ok n := by
  simp [byteAt, Nat.mod_eq_of_lt h]

theorem length_prefixed : (prefixed bytes).length = 2 + bytes.length := by
  rw [prefixed, List.length_append, length_bigEndian]

theorem prefixed_field (h : Struct.unpackH data offset = some n) (hfits : offset + 2 + n ≤ data.length) :
    ∃ bytes rest, data.drop offset = prefixed bytes ++ rest ∧ bytes.length = n ∧ n < 65536 ∧
      bytes = (data.take (offset + 2 + n)).drop (offset + 2) := by
  obtain ⟨rest, hdata, hlt⟩ := unpackH_some h
  have hrest : data.drop (offset + 2) = rest := by
    rw [← List.drop_drop, hdata, ← length_bigEndian (n := n), List.drop_left]
  have hlength := congrArg List.length hrest
  rw [List.length_drop] at hlength
  have hbytes : (rest.take n).length = n := by
    rw [List.length_take]
    omega
  refine ⟨rest.take n, rest.drop n, ?_, hbytes, hlt, ?_⟩
  · rw [prefixed, hbytes, List.append_assoc, List.take_append_drop, hdata]
  · rw [List.drop_take, hrest]
    congr 1
    omega

theorem slice_prefixed (before bytes rest : List UInt8) :
    ((before ++ (prefixed bytes ++ rest)).take (before.length + 2 + bytes.length)).drop (before.length + 2) = bytes := by
  have hlength : before.length + 2 + bytes.length = (before ++ prefixed bytes).length := by
    rw [List.length_append, length_prefixed, Nat.add_assoc]
  rw [← List.append_assoc, hlength, List.take_left, prefixed, ← List.append_assoc]
  exact List.drop_left' (by rw [List.length_append, length_bigEndian])

theorem readString_reads (message : String) : Cursor.Reads (fun data offset => readString data offset message)
    fun s bytes => (Utf8.encode s).length < 65536 ∧ bytes = prefixed (Utf8.encode s) where
  sound {data offset s next} h := by
    unfold readString at h
    split at h
    · cases h
    · next n hn =>
        dsimp only at h
        split at h
        · cases h
        · next hfits =>
            obtain ⟨bytes, rest, hdata, hlength, hlt, hbytes⟩ := prefixed_field hn (Nat.not_lt.mp hfits)
            split at h
            · cases h
            · next value hvalue =>
                cases h
                rw [← hbytes, Utf8.decodeStrict_iff] at hvalue
                subst hvalue
                exact ⟨_, rest, hdata, by rw [length_prefixed, hlength]; omega, by omega, rfl⟩
  complete := by
    rintro s _ ⟨hlt, rfl⟩ before rest
    have hunpack := unpackH_bigEndian hlt before (Utf8.encode s ++ rest)
    have hbytes := slice_prefixed before (Utf8.encode s) rest
    have hfits : ¬ before.length + 2 + (Utf8.encode s).length > (before ++ (prefixed (Utf8.encode s) ++ rest)).length := by
      simp only [List.length_append, length_prefixed]
      omega
    rw [prefixed, List.append_assoc] at hbytes hfits ⊢
    simp only [readString, hunpack, if_neg hfits, hbytes, Utf8.decodeStrict_encode]
    rw [List.length_append, length_bigEndian, Nat.add_assoc]

theorem skipField_reads (message : String) : (skipField message).Reads
    fun _ spelling => ∃ bytes, bytes.length < 65536 ∧ spelling = prefixed bytes where
  sound {data offset _ next} h := by
    unfold skipField skipString at h
    cases hn : unpackFrom data offset with
    | error x =>
        rw [hn] at h
        cases h
    | ok n =>
        rw [hn] at h
        dsimp only [bind, Except.bind] at h
        by_cases hfits : offset + 2 + n > data.length
        · rw [if_pos hfits] at h
          cases h
        · rw [if_neg hfits] at h
          cases h
          obtain ⟨bytes, rest, hdata, hlength, hlt, _⟩ := prefixed_field (unpackFrom_iff.mp hn) (Nat.not_lt.mp hfits)
          exact ⟨_, rest, hdata, by rw [length_prefixed, hlength]; omega, bytes, by omega, rfl⟩
  complete := by
    rintro _ _ ⟨bytes, hlt, rfl⟩ before rest
    have hunpack := unpackFrom_iff.mpr (unpackH_bigEndian hlt before (bytes ++ rest))
    have hfits : ¬ before.length + 2 + bytes.length > (before ++ (prefixed bytes ++ rest)).length := by
      simp only [List.length_append, length_prefixed]
      omega
    rw [prefixed, List.append_assoc] at hfits ⊢
    simp only [skipField, skipString, hunpack, bind, Except.bind, if_neg hfits]
    rw [List.length_append, length_bigEndian, Nat.add_assoc]
    rfl

def numberField : Cursor ParseError Nat := fun data offset => do
  let n ← unpackFrom data offset
  pure (n, offset + 2)

theorem numberField_reads : numberField.Reads fun n bytes => n < 65536 ∧ bytes = bigEndian n where
  sound {data offset n next} h := by
    unfold numberField at h
    cases hn : unpackFrom data offset with
    | error x =>
        rw [hn] at h
        cases h
    | ok m =>
        rw [hn] at h
        cases h
        obtain ⟨rest, hdata, hlt⟩ := unpackH_some (unpackFrom_iff.mp hn)
        exact ⟨_, rest, hdata, rfl, hlt, rfl⟩
  complete := by
    rintro n _ ⟨hlt, rfl⟩ before rest
    have hunpack := unpackFrom_iff.mpr (unpackH_bigEndian hlt before rest)
    simp only [numberField, hunpack, bind, Except.bind]
    rfl

def byteField : Cursor ParseError Nat := fun data offset => do
  let byte ← byteAt data offset
  pure (byte, offset + 1)

theorem byteField_reads : byteField.Reads fun n bytes => n < 256 ∧ bytes = [UInt8.ofNat n] where
  sound {data offset n next} h := by
    unfold byteField at h
    cases hn : byteAt data offset with
    | error x =>
        rw [hn] at h
        cases h
    | ok m =>
        rw [hn] at h
        cases h
        obtain ⟨rest, hdata, hlt⟩ := byteAt_ok hn
        exact ⟨_, rest, hdata, rfl, hlt, rfl⟩
  complete := by
    rintro n _ ⟨hlt, rfl⟩ before rest
    have hbyte := byteAt_byte hlt before rest
    simp only [byteField, List.singleton_append, hbyte, bind, Except.bind]
    rfl

-- The protocol name and the protocol level are skipped, and not even looked at.
def skipProtocol : Cursor ParseError Unit := fun data offset => do
  let protoLen ← unpackFrom data offset
  pure ((), offset + (2 + protoLen) + 1)

def connectFields : Cursor ParseError ConnectInfo :=
  let field := stringField "Malformed CONNECT packet"
  let skip := skipField "Malformed CONNECT packet"
  (skipProtocol.bind fun _ => byteField).bind fun connectFlags => numberField.bind fun keepalive =>
    field.bind fun clientId => ((skip.bind fun _ => skip).when (connectFlags &&& 0x04 != 0)).bind fun _ =>
      (field.when (connectFlags &&& 0x80 != 0)).bind fun username =>
        (field.when (connectFlags &&& 0x40 != 0)).map fun password =>
          ⟨clientId, username, password, keepalive, connectFlags &&& 0x02 != 0⟩

theorem parseConnect_eq (data : List UInt8) :
    parseConnect data = guarded "Malformed CONNECT packet" ((connectFields data 0).map Prod.fst) := by
  unfold parseConnect
  simp only [connectFields, skipProtocol, byteField, numberField, stringField, Cursor.bind, Cursor.map, Cursor.pure, bind,
    Except.bind, pure, Except.pure]
  cases unpackFrom data 0 with
  | error x => rfl
  | ok protoLen =>
      dsimp only
      cases byteAt data (0 + (2 + protoLen) + 1) with
      | error x => rfl
      | ok connectFlags =>
          dsimp only
          cases unpackFrom data (0 + (2 + protoLen) + 1 + 1) with
          | error x => rfl
          | ok keepalive =>
              dsimp only
              cases readString data (0 + (2 + protoLen) + 1 + 1 + 2) "Malformed CONNECT packet" with
              | error x => rfl
              | ok p =>
                  dsimp only
                  generalize (Cursor.bind _ _).when _ data p.2 = will
                  cases will with
                  | error x => rfl
                  | ok p =>
                      dsimp only
                      generalize Cursor.when _ _ data p.2 = username
                      cases username with
                      | error x => rfl
                      | ok p =>
                          dsimp only
                          generalize Cursor.when _ _ data p.2 = password
                          cases password with
                          | error x => rfl
                          | ok p => rfl

theorem connectFlags_reads : (skipProtocol.bind fun _ => byteField).Reads fun flags bytes =>
    ∃ name level, name.length < 65536 ∧ flags < 256 ∧ bytes = prefixed name ++ [level, UInt8.ofNat flags] where
  sound {data offset flags next} h := by
    unfold Cursor.bind skipProtocol at h
    cases hn : unpackFrom data offset with
    | error x =>
        rw [hn] at h
        cases h
    | ok n =>
        rw [hn] at h
        obtain ⟨rest, hdata, hlt⟩ := unpackH_some (unpackFrom_iff.mp hn)
        obtain ⟨_, rest', hflags, rfl, hflag, rfl⟩ := byteField_reads.sound h
        have hrest : rest.drop (n + 1) = UInt8.ofNat flags :: rest' := by
          have hsplit : offset + (2 + n) + 1 = offset + ((bigEndian n).length + (n + 1)) := by
            rw [length_bigEndian]
            omega
          rw [hsplit, ← List.drop_drop, hdata, ← List.drop_drop, List.drop_left] at hflags
          exact hflags
        have hlong := congrArg List.length hrest
        rw [List.length_drop, List.length_cons] at hlong
        have hlevel : rest.drop n = rest[n] :: UInt8.ofNat flags :: rest' := by
          rw [List.drop_eq_getElem_cons (by omega), hrest]
        have hname : (rest.take n).length = n := by
          rw [List.length_take]
          omega
        refine ⟨_, rest', ?_, ?_, rest.take n, rest[n], by omega, hflag, rfl⟩
        · rw [prefixed, hname, hdata, List.append_assoc, List.append_assoc]
          congr 1
          calc rest = rest.take n ++ rest.drop n := (List.take_append_drop n rest).symm
            _ = rest.take n ++ ([rest[n], UInt8.ofNat flags] ++ rest') := by rw [hlevel]; rfl
        · rw [List.length_append, length_prefixed, hname]
          simp only [List.length_cons, List.length_nil]
          omega
  complete := by
    rintro flags _ ⟨name, level, hlt, hflag, rfl⟩ before rest
    have hunpack := unpackFrom_iff.mpr (unpackH_bigEndian hlt before (name ++ ([level, UInt8.ofNat flags] ++ rest)))
    have hbyte := byteAt_byte hflag (before ++ (prefixed name ++ [level])) rest
    have hshape : before ++ (bigEndian name.length ++ (name ++ ([level, UInt8.ofNat flags] ++ rest))) =
        before ++ (prefixed name ++ [level, UInt8.ofNat flags] ++ rest) := by
      simp only [prefixed, List.append_assoc]
    have hshape' : before ++ (prefixed name ++ [level]) ++ UInt8.ofNat flags :: rest =
        before ++ (prefixed name ++ [level, UInt8.ofNat flags] ++ rest) := by
      simp only [List.append_assoc, List.cons_append, List.nil_append]
    have hend : (before ++ (prefixed name ++ [level])).length = before.length + (2 + name.length) + 1 := by
      simp only [List.length_append, length_prefixed, List.length_cons, List.length_nil]
      omega
    rw [hshape] at hunpack
    rw [hshape', hend] at hbyte
    simp only [Cursor.bind, skipProtocol, byteField, hunpack, hbyte, bind, Except.bind, pure, Except.pure]
    simp only [List.length_append, length_prefixed, List.length_cons, List.length_nil]
    congr 2

theorem stringField_reads (message : String) : (stringField message).Reads
    fun s bytes => (Utf8.encode s).length < 65536 ∧ bytes = prefixed (Utf8.encode s) := readString_reads message

theorem subscribeEntry_eq : subscribeEntry = (stringField "Malformed SUBSCRIBE packet").bind fun topic =>
    byteField.map fun qos => (topic, qos) := by
  funext data offset
  simp only [subscribeEntry, stringField, byteField, Cursor.map, Cursor.bind, Cursor.pure, bind, Except.bind, pure, Except.pure]
  cases readString data offset "Malformed SUBSCRIBE packet" with
  | error x => rfl
  | ok p =>
      dsimp only
      cases byteAt data p.2 with
      | error x => rfl
      | ok qos => rfl

def subscribeEntryBytes (entry : String × Nat) : List UInt8 := prefixed (Utf8.encode entry.1) ++ [UInt8.ofNat entry.2]

theorem subscribeEntry_reads : subscribeEntry.Reads fun entry bytes =>
    ((Utf8.encode entry.1).length < 65536 ∧ entry.2 < 256) ∧ bytes = subscribeEntryBytes entry := by
  rw [subscribeEntry_eq]
  refine ((stringField_reads _).bind fun topic => byteField_reads.map fun qos => (topic, qos)).spells fun entry bytes => ?_
  constructor
  · rintro ⟨topic, _, second, rfl, ⟨htopic, rfl⟩, qos, rfl, hqos, rfl⟩
    exact ⟨⟨htopic, hqos⟩, rfl⟩
  · rintro ⟨⟨htopic, hqos⟩, rfl⟩
    exact ⟨entry.1, _, _, rfl, ⟨htopic, rfl⟩, entry.2, rfl, hqos, rfl⟩

theorem entries_packet {α : Type} {entry : Cursor ParseError α} {Fits : α → Prop} {encode : α → List UInt8}
    (h : entry.Reads fun a bytes => Fits a ∧ bytes = encode a) (hentry : entry.Advances) (message : String)
    {data : List UInt8} {id : Nat} {found : List α} :
    (guarded message do
      let packetId ← unpackFrom data 0
      let topics ← Cursor.entries entry hentry data 2 []
      pure (packetId, topics)) = .ok (id, found) ↔
      id < 65536 ∧ (∀ a ∈ found, Fits a) ∧ data = bigEndian id ++ found.flatMap encode := by
  have hpieces : ∀ (more : List α) (pieces : List (List UInt8)),
      more.Forall₂ (fun a bytes => Fits a ∧ bytes = encode a) pieces ↔ (∀ a ∈ more, Fits a) ∧ pieces = more.map encode := by
    intro more pieces
    rw [List.forall₂_and_left]
    refine and_congr_right fun _ => ?_
    simp only [eq_comm (b := encode _)]
    rw [← List.forall₂_map_left_iff, List.forall₂_eq_eq_eq, eq_comm]
  rw [guarded_ok]
  constructor
  · intro hparse
    cases hid : unpackFrom data 0 with
    | error x =>
        rw [hid] at hparse
        cases hparse
    | ok n =>
        rw [hid] at hparse
        cases htopics : Cursor.entries entry hentry data 2 [] with
        | error x =>
            rw [htopics] at hparse
            cases hparse
        | ok topics =>
            rw [htopics] at hparse
            cases hparse
            obtain ⟨rest, hdata, hlt⟩ := unpackH_some (unpackFrom_iff.mp hid)
            rw [List.drop_zero] at hdata
            subst hdata
            obtain ⟨_, pieces, rfl, hflat, hall⟩ := (Cursor.entries_iff h hentry (by simp [length_bigEndian])).mp htopics
            obtain ⟨hfits, rfl⟩ := (hpieces _ pieces).mp hall
            rw [← length_bigEndian (n := id), List.drop_left] at hflat
            exact ⟨hlt, hfits, by rw [hflat, List.flatMap_def]⟩
  · rintro ⟨hlt, hfits, rfl⟩
    have hid := unpackFrom_iff.mpr (unpackH_bigEndian hlt [] (found.flatMap encode))
    have htopics : Cursor.entries entry hentry (bigEndian id ++ found.flatMap encode) 2 [] = .ok found :=
      (Cursor.entries_iff h hentry (by simp [length_bigEndian])).mpr
      ⟨found, found.map encode, rfl, by rw [← List.flatMap_def]; rfl, (hpieces _ _).mpr ⟨hfits, rfl⟩⟩
    rw [List.nil_append, List.length_nil] at hid
    rw [hid, htopics]
    rfl

end

def PublishInfo.encode (info : PublishInfo) : List UInt8 :=
  prefixed (Utf8.encode info.topic) ++ (info.packetId.elim [] bigEndian ++ info.payload)

structure PublishInfo.Fits (info : PublishInfo) (flags : Nat) : Prop where
  qos : info.qos = flags >>> 1 &&& 0x03
  topic : (Utf8.encode info.topic).length < 65536
  identified : info.packetId.isSome = true ↔ 0 < info.qos
  packetId : ∀ id, info.packetId = some id → id < 65536

theorem parsePublish_iff {flags : Nat} {data : List UInt8} {info : PublishInfo} :
    parsePublish flags data = .ok info ↔ info.Fits flags ∧ data = info.encode := by
  unfold parsePublish
  rw [guarded_ok]
  constructor
  · intro h
    cases hread : readString data 0 "Malformed PUBLISH packet" with
    | error x =>
        rw [hread] at h
        cases h
    | ok p =>
        obtain ⟨topic, next⟩ := p
        rw [hread] at h
        obtain ⟨_, rest, hdata, rfl, htopic, rfl⟩ := (readString_reads _).sound hread
        rw [List.drop_zero] at hdata
        subst hdata
        simp only [bind, Except.bind, Nat.zero_add] at h
        split at h
        · next hqos =>
            split at h
            · cases h
            · next id hid =>
                cases h
                obtain ⟨rest', hrest, hlt⟩ := unpackH_some hid
                rw [List.drop_left] at hrest
                subst hrest
                refine ⟨⟨rfl, htopic, by simpa using hqos, ?_⟩, ?_⟩
                · rintro _ ⟨⟩
                  exact hlt
                · rw [← length_bigEndian (n := id), ← List.drop_drop, List.drop_left, List.drop_left]
                  rfl
        · next hqos =>
            cases h
            refine ⟨⟨rfl, htopic, by simpa using hqos, nofun⟩, ?_⟩
            rw [List.drop_left]
            rfl
  · rintro ⟨h, rfl⟩
    have hread := (readString_reads "Malformed PUBLISH packet").at_start ⟨h.topic, rfl⟩
      (info.packetId.elim [] bigEndian ++ info.payload)
    obtain ⟨topic, payload, qos, packetId⟩ := info
    obtain ⟨hqos, _, hidentified, hpacketId⟩ := h
    dsimp only at hqos hidentified hpacketId hread
    simp only [PublishInfo.encode, hread, bind, Except.bind, ← hqos]
    cases packetId with
    | some id =>
        have hid := unpackH_bigEndian (hpacketId id rfl) (prefixed (Utf8.encode topic)) payload
        have hpayload : (prefixed (Utf8.encode topic) ++ (bigEndian id ++ payload)).drop
            ((prefixed (Utf8.encode topic)).length + 2) = payload := by
          rw [← List.drop_drop, List.drop_left, ← length_bigEndian (n := id), List.drop_left]
        rw [if_pos (hidentified.mp rfl)]
        simp only [Option.elim_some, hid, hpayload]
    | none =>
        have hnone : ¬ qos > 0 := fun hpos => by cases hidentified.mpr hpos
        rw [if_neg hnone]
        simp only [Option.elim_none, List.nil_append, List.drop_left]

-- SUBSCRIBE, UNSUBSCRIBE and PUBLISH are accepted as the grammar has them, and refused otherwise.
structure ClientGrammar : Prop where
  subscribe : ∀ (data : List UInt8) (id : Nat) (topics : List (String × Nat)),
    parseSubscribe data = .ok (id, topics) ↔
      id < 65536 ∧ (∀ entry ∈ topics, (Utf8.encode entry.1).length < 65536 ∧ entry.2 < 256) ∧
        data = bigEndian id ++ topics.flatMap fun entry => prefixed (Utf8.encode entry.1) ++ [UInt8.ofNat entry.2]
  unsubscribe : ∀ (data : List UInt8) (id : Nat) (topics : List String),
    parseUnsubscribe data = .ok (id, topics) ↔
      id < 65536 ∧ (∀ topic ∈ topics, (Utf8.encode topic).length < 65536) ∧
        data = bigEndian id ++ topics.flatMap fun topic => prefixed (Utf8.encode topic)
  publish : ∀ (flags : Nat) (data : List UInt8) (info : PublishInfo),
    parsePublish flags data = .ok info ↔ info.Fits flags ∧ data = info.encode
  refused : ∀ (flags : Nat) (data : List UInt8) (x : ParseError),
    parseSubscribe data = .error x ∨ parseUnsubscribe data = .error x ∨ parsePublish flags data = .error x →
      x.isValueError = true

theorem client_grammar : ClientGrammar where
  subscribe _ _ _ := entries_packet subscribeEntry_reads subscribeEntry_advances "Malformed SUBSCRIBE packet"
  unsubscribe _ _ _ := entries_packet (stringField_reads _) unsubscribeEntry_advances "Malformed UNSUBSCRIBE packet"
  publish _ _ _ := parsePublish_iff
  refused _ _ _ := by
    rintro (h | h | h)
    · exact guarded_error h
    · exact guarded_error h
    · exact guarded_error h

structure Will where
  topic : String
  message : List UInt8
  qos : Fin 3
  retain : Bool
  topicFits : (Utf8.encode topic).length < 65536
  messageFits : message.length < 65536

structure Connect where
  protocolName : List UInt8
  protocolLevel : UInt8
  clientId : String
  will : Option Will
  username : Option String
  password : Option String
  keepalive : Nat
  cleanSession : Bool
  nameFits : protocolName.length < 65536
  clientIdFits : (Utf8.encode clientId).length < 65536
  usernameFits : ∀ s, username = some s → (Utf8.encode s).length < 65536
  passwordFits : ∀ s, password = some s → (Utf8.encode s).length < 65536
  keepaliveFits : keepalive < 65536

namespace Connect

def willFlags (qos : Fin 3) (retain : Bool) : Nat := 0x04 ||| qos.val <<< 3 ||| if retain then 0x20 else 0

def flagBits (username password : Bool) (will : Nat) (cleanSession : Bool) : Nat :=
  (if username then 0x80 else 0) ||| (if password then 0x40 else 0) ||| will ||| if cleanSession then 0x02 else 0

def flags (c : Connect) : Nat :=
  flagBits c.username.isSome c.password.isSome (c.will.elim 0 fun w => willFlags w.qos w.retain) c.cleanSession

def willBytes (will : Option Will) : List UInt8 := will.elim [] fun w => prefixed (Utf8.encode w.topic) ++ prefixed w.message

def optionBytes (option : Option String) : List UInt8 := option.elim [] fun s => prefixed (Utf8.encode s)

def encode (c : Connect) : List UInt8 :=
  prefixed c.protocolName ++ [c.protocolLevel, UInt8.ofNat c.flags] ++ bigEndian c.keepalive ++
    prefixed (Utf8.encode c.clientId) ++ willBytes c.will ++ optionBytes c.username ++ optionBytes c.password

def info (c : Connect) : ConnectInfo := ⟨c.clientId, c.username, c.password, c.keepalive, c.cleanSession⟩

structure ReadsBack (flags : Nat) (username password will cleanSession : Bool) : Prop where
  fits : flags < 256
  username : (flags &&& 0x80 != 0) = username
  password : (flags &&& 0x40 != 0) = password
  will : (flags &&& 0x04 != 0) = will
  cleanSession : (flags &&& 0x02 != 0) = cleanSession

theorem readsBack_iff {flags : Nat} {u p w c : Bool} : ReadsBack flags u p w c ↔
    flags < 256 ∧ (flags &&& 0x80 != 0) = u ∧ (flags &&& 0x40 != 0) = p ∧ (flags &&& 0x04 != 0) = w ∧ (flags &&& 0x02 != 0) = c :=
  ⟨fun h => ⟨h.fits, h.username, h.password, h.will, h.cleanSession⟩, fun ⟨hf, hu, hp, hw, hc⟩ => ⟨hf, hu, hp, hw, hc⟩⟩

instance (flags : Nat) (u p w c : Bool) : Decidable (ReadsBack flags u p w c) := decidable_of_iff' _ readsBack_iff

theorem flagBits_readBack : ∀ username password cleanSession : Bool,
    ReadsBack (flagBits username password 0 cleanSession) username password false cleanSession ∧
      ∀ (qos : Fin 3) (retain : Bool),
        ReadsBack (flagBits username password (willFlags qos retain) cleanSession) username password true cleanSession := by
  decide

theorem flags_readBack (c : Connect) :
    ReadsBack c.flags c.username.isSome c.password.isSome c.will.isSome c.cleanSession := by
  obtain ⟨hnone, hsome⟩ := flagBits_readBack c.username.isSome c.password.isSome c.cleanSession
  unfold flags
  cases c.will with
  | none => exact hnone
  | some w => exact hsome w.qos w.retain

theorem optionBytes_spelled {option : Option String} (h : ∀ s, option = some s → (Utf8.encode s).length < 65536) :
    (∃ s, option = some s ∧ (Utf8.encode s).length < 65536 ∧ optionBytes option = prefixed (Utf8.encode s)) ∨
      option = none ∧ optionBytes option = [] := by
  cases option with
  | some s => exact .inl ⟨s, rfl, h s rfl, rfl⟩
  | none => exact .inr ⟨rfl, rfl⟩

theorem willBytes_spelled (will : Option Will) :
    (∃ found, will.map (fun _ => ()) = some found ∧ ∃ (_ : Unit) (topic message : List UInt8),
      willBytes will = topic ++ message ∧ (∃ bytes, bytes.length < 65536 ∧ topic = prefixed bytes) ∧
        ∃ bytes, bytes.length < 65536 ∧ message = prefixed bytes) ∨
      will.map (fun _ => ()) = none ∧ willBytes will = [] := by
  cases will with
  | some w => exact .inl ⟨(), rfl, (), _, _, rfl, ⟨_, w.topicFits, rfl⟩, _, w.messageFits, rfl⟩
  | none => exact .inr ⟨rfl, rfl⟩

theorem connectFields_reads : ∃ Spells : ConnectInfo → List UInt8 → Prop, connectFields.Reads Spells ∧
    ∀ c : Connect, Spells c.info c.encode := by
  have hfield := stringField_reads "Malformed CONNECT packet"
  have hskip := skipField_reads "Malformed CONNECT packet"
  have hreads := connectFlags_reads.bind fun flags => numberField_reads.bind fun keepalive => hfield.bind fun clientId =>
    ((hskip.bind fun _ => hskip).when (flags &&& 0x04 != 0)).bind fun _ => (hfield.when (flags &&& 0x80 != 0)).bind
      fun username => (hfield.when (flags &&& 0x40 != 0)).map fun password =>
        (⟨clientId, username, password, keepalive, flags &&& 0x02 != 0⟩ : ConnectInfo)
  refine ⟨_, hreads, fun c => ?_⟩
  have hflags := flags_readBack c
  refine ⟨c.flags, _, _, ?_, ⟨c.protocolName, c.protocolLevel, c.nameFits, hflags.fits, rfl⟩, c.keepalive, _, _, rfl,
    ⟨c.keepaliveFits, rfl⟩, c.clientId, _, _, rfl, ⟨c.clientIdFits, rfl⟩, c.will.map fun _ => (), willBytes c.will, _, rfl,
    ⟨?_, willBytes_spelled c.will⟩, c.username, optionBytes c.username, _, rfl,
    ⟨hflags.username.symm, optionBytes_spelled c.usernameFits⟩, c.password, ?_, hflags.password.symm,
    optionBytes_spelled c.passwordFits⟩
  · simp only [encode, List.append_assoc]
  · rw [hflags.will, Option.isSome_map]
  · rw [hflags.cleanSession]
    rfl

end Connect

open Connect

-- Every CONNECT is decoded to what it says, every truncation is refused, and nothing else goes wrong.
structure ConnectDecoding : Prop where
  decoded : ∀ c : Connect, parseConnect c.encode = .ok c.info
  truncated : ∀ (c : Connect) (data : List UInt8), data <+: c.encode → data ≠ c.encode →
    ∃ x, parseConnect data = .error x ∧ x.isValueError = true
  refused : ∀ (data : List UInt8) (x : ParseError), parseConnect data = .error x → x.isValueError = true

theorem connect_decoding : ConnectDecoding := by
  obtain ⟨Spells, hreads, hspells⟩ := connectFields_reads
  refine ⟨fun c => ?_, fun c data hpre hne => ?_, fun data x h => guarded_error h⟩
  · have hread := hreads.at_start (hspells c) []
    rw [List.append_nil] at hread
    rw [parseConnect_eq, hread]
    rfl
  · obtain ⟨x, hx⟩ := hreads.truncated (hspells c) hpre hne
    rcases guarded_cases "Malformed CONNECT packet" ((connectFields data 0).map Prod.fst) with ⟨info, hinfo⟩ | hrefused
    · rw [guarded_ok, hx] at hinfo
      cases hinfo
    · rwa [parseConnect_eq]

end PandaProxy.Mqtt
