import PandaProxy.FtpProxy.ControlSession
import PandaProxy.FtpProxy.ReplyFraming

namespace PandaProxy.FtpProxy

open Python Wire

-- What `_send_upstream` writes.
def Request.bytes (request : Request) : List UInt8 := Utf8.encode (request.wire ++ "\r\n")

def withoutLast (b : UInt8) (bytes : List UInt8) : List UInt8 :=
  if bytes.getLast? = some b then bytes.dropLast else bytes

def lineBody (raw : List UInt8) : List UInt8 := withoutLast 13 (withoutLast 10 raw)

-- The line is text that neither begins nor ends with a carriage return of its own.
def PlainLine (body : List UInt8) : Prop :=
  ∃ text, body = Utf8.encode text ∧ text.toList.head? ≠ some '\r' ∧ text.toList.getLast? ≠ some '\r'

section

variable {raw body bytes : List UInt8} {command argument : String}

theorem withoutLast_append (b : UInt8) (bytes : List UInt8) :
    ∃ term, bytes = withoutLast b bytes ++ term ∧ ∀ a ∈ term, a = b := by
  unfold withoutLast
  split
  · next h =>
      obtain ⟨front, rfl⟩ := List.getLast?_eq_some_iff.mp h
      exact ⟨[b], by rw [List.dropLast_concat], fun a ha => List.mem_singleton.mp ha⟩
  · exact ⟨[], (List.append_nil bytes).symm, nofun⟩

theorem lineBody_append (raw : List UInt8) : ∃ term, raw = lineBody raw ++ term ∧ ∀ b ∈ term, b = 13 ∨ b = 10 := by
  obtain ⟨lf, hlf, hlfs⟩ := withoutLast_append 10 raw
  obtain ⟨cr, hcr, hcrs⟩ := withoutLast_append 13 (withoutLast 10 raw)
  refine ⟨cr ++ lf, ?_, fun b hb => ?_⟩
  · rw [lineBody, ← List.append_assoc, ← hcr, ← hlf]
  · exact (List.mem_append.mp hb).imp (hcrs b) (hlfs b)

theorem lineBody_unbroken (h : 10 ∉ raw.dropLast) : 10 ∉ lineBody raw := by
  obtain ⟨cr, hcr, _⟩ := withoutLast_append 13 (withoutLast 10 raw)
  have hfront : 10 ∉ withoutLast 10 raw := by
    unfold withoutLast
    split
    · exact h
    · next hlast =>
        intro hmem
        cases raw using List.reverseRecOn with
        | nil => cases hmem
        | append_singleton front b =>
            rw [List.dropLast_concat] at h
            rw [List.getLast?_concat, Option.some.injEq] at hlast
            rcases List.mem_append.mp hmem with hin | hin
            · exact h hin
            · exact hlast (List.mem_singleton.mp hin).symm
  intro hmem
  refine hfront ?_
  rw [hcr]
  exact List.mem_append_left _ hmem

def terminators : String := "\r\n"

theorem decodeLine_body {text : String} (h : lineBody raw = Utf8.encode text) :
    decodeLine raw = .ofList (Chars.strip (fun c => terminators.toList.contains c) text.toList) := by
  obtain ⟨term, hraw, hterm⟩ := lineBody_append raw
  have hascii : Utf8.Ascii term := fun b hb => by rcases hterm b hb with rfl | rfl <;> decide
  have hdecode : (Utf8.decode raw).toList = text.toList ++ Utf8.asciiChars term := by
    rw [hraw, h, Utf8.decode, String.toList_ofList, Utf8.decodeFrom_encode, ← List.append_nil term,
      Utf8.decodeFrom_asciiChars hascii]
    simp [Utf8.decodeFrom]
  have hends : ∀ c ∈ Utf8.asciiChars term, terminators.toList.contains c = true := by
    intro c hc
    obtain ⟨b, hb, rfl⟩ := List.mem_map.mp hc
    rcases hterm b hb with rfl | rfl <;> decide
  show String.ofList (Chars.strip (fun c => terminators.toList.contains c) (Utf8.decode raw).toList) = _
  rw [hdecode, Chars.strip_append hends]

theorem newline_encoded {text : String} (h : '\n' ∈ text.toList) : 10 ∈ Utf8.encode text := by
  rw [Utf8.encode_eq]
  exact List.mem_flatMap.mpr ⟨'\n', h, by decide⟩

theorem contains_terminators (c : Char) : terminators.toList.contains c = false ↔ c ≠ '\r' ∧ c ≠ '\n' := by
  simp [terminators]

theorem decodeLine_encode_iff (h : 10 ∉ raw.dropLast) :
    Utf8.encode (decodeLine raw) = lineBody raw ↔ PlainLine (lineBody raw) := by
  constructor
  · intro hsame
    have hself := congrArg String.toList (decodeLine_body hsame.symm)
    rw [String.toList_ofList] at hself
    obtain ⟨hhead, hlast⟩ := Chars.strip_eq_self_iff.mp hself.symm
    refine ⟨decodeLine raw, hsame.symm, fun hc => ?_, fun hc => ?_⟩
    · exact ((contains_terminators _).mp (hhead _ hc)).1 rfl
    · exact ((contains_terminators _).mp (hlast _ hc)).1 rfl
  · rintro ⟨text, hbody, hhead, hlast⟩
    have hno : '\n' ∉ text.toList := fun hmem => lineBody_unbroken h (hbody ▸ newline_encoded hmem)
    have hself : Chars.strip (fun c => terminators.toList.contains c) text.toList = text.toList := by
      refine Chars.strip_eq_self_iff.mpr ⟨fun c hc => ?_, fun c hc => ?_⟩
      · refine (contains_terminators c).mpr ⟨fun he => hhead (he ▸ hc), fun he => hno ?_⟩
        exact he ▸ List.mem_of_mem_head? hc
      · refine (contains_terminators c).mpr ⟨fun he => hlast (he ▸ hc), fun he => hno ?_⟩
        exact he ▸ List.mem_of_getLast? hc
    rw [decodeLine_body hbody, hself, String.ofList_toList, hbody]

theorem forward_bytes (command argument line : String) :
    (Request.forward command argument line).bytes = Utf8.encode line ++ crlf := by
  rw [Request.bytes, Utf8.encode_append]
  rfl

def Faithful (request : Request) (raw : List UInt8) : Prop := request.bytes = lineBody raw ++ crlf

theorem faithful_iff (h : 10 ∉ raw.dropLast) :
    Faithful (.forward command argument (decodeLine raw)) raw ↔ PlainLine (lineBody raw) := by
  rw [Faithful, forward_bytes, List.append_left_inj, decodeLine_encode_iff h]

theorem plain_distinct {raw' : List UInt8} {command' argument' : String} (h : 10 ∉ raw.dropLast) (h' : 10 ∉ raw'.dropLast)
    (hplain : PlainLine (lineBody raw)) (hplain' : PlainLine (lineBody raw')) (hne : lineBody raw ≠ lineBody raw') :
    (Request.forward command argument (decodeLine raw)).bytes ≠ (Request.forward command' argument' (decodeLine raw')).bytes := by
  have hfaithful : Faithful (.forward command argument (decodeLine raw)) raw := (faithful_iff h).mpr hplain
  have hfaithful' : Faithful (.forward command' argument' (decodeLine raw')) raw' := (faithful_iff h').mpr hplain'
  rw [hfaithful, hfaithful', Ne, List.append_left_inj]
  exact hne

end

-- A control line as it stands on the wire: what follows the command's blank is all the argument's.
@[irreducible] def wireLine (line : String) : String × String :=
  let (command, argument) := Str.partition ' ' line
  (Str.upper command, argument)

theorem parseLine_wire (line : String) : parseLine line = ((wireLine line).1, Str.strip (wireLine line).2) := by
  unfold parseLine wireLine
  rfl

def Verb (command : String) : Prop := ' ' ∉ command.toList ∧ Str.upper command = command

instance (command : String) : Decidable (Verb command) :=
  inferInstanceAs (Decidable (_ ∧ _))

theorem wireLine_bare {command : String} (h : Verb command) : wireLine command = (command, "") := by
  have hhead : command.toList.takeWhile (fun c => c != ' ') = command.toList := by
    refine List.takeWhile_eq_self_iff.mpr fun c hc => ?_
    simpa using fun he : c = ' ' => h.1 (he ▸ hc)
  unfold wireLine
  simp only [Str.partition, Chars.partition, hhead, String.ofList_toList, h.2, Prod.mk.injEq, true_and]
  rw [List.drop_eq_nil_of_le (Nat.le_succ _)]

theorem wireLine_append {command : String} (h : Verb command) (argument : String) :
    wireLine (command ++ " " ++ argument) = (command, argument) := by
  have htext : (command ++ " " ++ argument).toList = command.toList ++ ' ' :: argument.toList := by
    simp [String.toList_append]
  have hhead : (command.toList ++ ' ' :: argument.toList).takeWhile (fun c => c != ' ') = command.toList := by
    rw [List.takeWhile_append_of_pos]
    · simp
    · intro c hc
      simpa using fun he : c = ' ' => h.1 (he ▸ hc)
  unfold wireLine
  simp only [Str.partition, Chars.partition, htext, hhead, String.ofList_toList, h.2, Prod.mk.injEq, true_and]
  rw [List.drop_append, List.drop_eq_nil_of_le (Nat.le_succ _)]
  simp

namespace Request

def said (request : Request) : String × String := wireLine request.wire

theorem said_issue {command : String} (h : Verb command) (argument : String) :
    (issue command argument).said.1 = command := by
  show (wireLine (if _ then _ else _)).1 = command
  split
  · rw [wireLine_bare h]
  · rw [wireLine_append h]

theorem said_setting {command : String} (h : Verb command) (hpassive : command ∉ ["PASV", "EPSV"]) (argument : String) :
    (issue command argument).said = (command, argument) := by
  show wireLine (if _ then _ else _) = _
  rw [if_neg hpassive, wireLine_append h]

end Request

-- A line whose bytes the printer is not given as they are, or whose verb is not in ASCII letters.
def odd (raw : List UInt8) : Bool :=
  !(Utf8.encode (decodeLine raw) == lineBody raw && (Str.partition ' ' (decodeLine raw)).1.toList.all (fun c => c.toNat < 0x80))

end PandaProxy.FtpProxy
