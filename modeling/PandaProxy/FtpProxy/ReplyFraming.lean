import PandaProxy.FtpProxy.Replies
import PandaProxy.Python.StreamReader
import PandaProxy.Python.Utf8

namespace PandaProxy.FtpProxy

open Python StreamReader

namespace Wire

-- The lines after the first one, up to the line that ends the reply.
def readMore (code reply : String) (buffer : List UInt8) : String × List UInt8 :=
  let more := (readline buffer).1
  if _h : more = [] then (reply, buffer)
  else
    let decoded := Utf8.decode more
    let reply := reply ++ decoded
    if Str.startswith decoded (code ++ " ") then (reply, (readline buffer).2) else readMore code reply (readline buffer).2
termination_by buffer.length
decreasing_by exact readline_shortens fun h => _h (readline_nil_iff.mpr h)

-- `_read_upstream_reply` when everything the printer ever sends arrives in time; what is still to be
-- read is left behind.
def readUpstreamReply (buffer : List UInt8) : Option String × List UInt8 :=
  let (first, rest) := readline buffer
  if first = [] then (none, rest)
  else
    let reply := Utf8.decode first
    let code := Str.slice reply 0 3
    if reply.toList[3]? = some '-' then
      let (reply, rest) := readMore code reply rest
      (some reply, rest)
    else (some reply, rest)

def readReplies : Nat → List UInt8 → List (Option String) × List UInt8
  | 0, buffer => ([], buffer)
  | n + 1, buffer =>
      let (reply, rest) := readUpstreamReply buffer
      let (replies, rest) := readReplies n rest
      (reply :: replies, rest)

def crlf : List UInt8 := [13, 10]

structure ReplyCode (code : List UInt8) : Prop where
  length : code.length = 3
  digits : ∀ b ∈ code, 0x30 ≤ b.toNat ∧ b.toNat ≤ 0x39

inductive Line : List UInt8 → Prop where
  | mk {content : List UInt8} (h : 10 ∉ content) : Line (content ++ crlf)

-- `xyz text`, or `xyz-text` and the lines up to one that starts with `xyz `.
inductive CompleteReply : List UInt8 → Prop where
  | single {code text : List UInt8} (hcode : ReplyCode code) (htext : 10 ∉ text) :
      CompleteReply (code ++ 32 :: (text ++ crlf))
  | multi {code text last : List UInt8} {middle : List (List UInt8)} (hcode : ReplyCode code) (htext : 10 ∉ text)
      (hmiddle : ∀ line ∈ middle, Line line ∧ ¬ (code ++ [32]) <+: line) (hlast : Line last)
      (hstarts : (code ++ [32]) <+: last) : CompleteReply (code ++ 45 :: (text ++ crlf) ++ (middle.flatten ++ last))

def Incomplete (stream : List UInt8) : Prop := ∃ reply, CompleteReply reply ∧ stream <+: reply ∧ stream ≠ reply

structure Framed (stream : List UInt8) : Prop where
  complete : ∀ reply rest, CompleteReply reply → stream = reply ++ rest →
    readUpstreamReply stream = (some (Utf8.decode reply), rest)
  incomplete : Incomplete stream → (readUpstreamReply stream).1 = none

section

variable {code text line rest buffer : List UInt8}

theorem readline_line (h : Line line) (rest : List UInt8) : readline (line ++ rest) = (line, rest) := by
  obtain ⟨hcontent⟩ := h
  next content =>
    have hcr : 10 ∉ content ++ [13] := by simpa using hcontent
    have hread := readline_append hcr rest
    simpa [crlf] using hread

theorem decode_line (h : Line line) (rest : List UInt8) : Utf8.decode (line ++ rest) = Utf8.decode line ++ Utf8.decode rest := by
  obtain ⟨hcontent⟩ := h
  next content =>
    have happend := Utf8.decodeFrom_append (b := 10) (by decide) (content ++ [13]) rest (q := none) nofun
    simp only [List.append_assoc, List.cons_append, List.nil_append] at happend
    rw [Utf8.decode, crlf, List.append_assoc, List.cons_append, List.cons_append, List.nil_append, happend, String.ofList_append]
    rfl

theorem Line.ne_nil (h : Line line) : line ≠ [] := by
  obtain ⟨hcontent⟩ := h
  simp [crlf]

def codeText (code : List UInt8) : String := .ofList (Utf8.asciiChars code)

theorem ReplyCode.ascii (h : ReplyCode code) : Utf8.Ascii code := fun b hb => by
  have := (h.digits b hb).2
  omega

theorem startswith_code (h : ReplyCode code) (line : List UInt8) :
    Str.startswith (Utf8.decode line) (codeText code ++ " ") = true ↔ (code ++ [32]) <+: line := by
  have hascii : Utf8.Ascii (code ++ [32]) := by
    intro b hb
    rcases List.mem_append.mp hb with hb | hb
    · exact h.ascii b hb
    · rw [List.mem_singleton.mp hb]
      decide
  have htext : (codeText code ++ " ").toList = Utf8.asciiChars (code ++ [32]) := by
    simp [codeText, Utf8.asciiChars]
  rw [Str.startswith, List.isPrefixOf_iff_prefix, htext, Utf8.decode, String.toList_ofList]
  exact Utf8.asciiChars_prefix_iff hascii

theorem readMore_reply (h : ReplyCode code) {last : List UInt8} {middle : List (List UInt8)}
    (hmiddle : ∀ line ∈ middle, Line line ∧ ¬ (code ++ [32]) <+: line) (hlast : Line last)
    (hstarts : (code ++ [32]) <+: last) (reply : String) (rest : List UInt8) :
    readMore (codeText code) reply (middle.flatten ++ (last ++ rest)) =
      (reply ++ Utf8.decode (middle.flatten ++ last), rest) := by
  induction middle generalizing reply with
  | nil =>
      rw [readMore]
      simp only [List.flatten_nil, List.nil_append, readline_line hlast, hlast.ne_nil, dite_false,
        (startswith_code h last).mpr hstarts, if_true]
  | cons line middle ih =>
      obtain ⟨hline, hother⟩ := hmiddle line List.mem_cons_self
      have hno : Str.startswith (Utf8.decode line) (codeText code ++ " ") = false := by
        cases hs : Str.startswith (Utf8.decode line) (codeText code ++ " ") with
        | false => rfl
        | true => exact absurd ((startswith_code h line).mp hs) hother
      rw [readMore]
      simp only [List.flatten_cons, List.append_assoc, readline_line hline, hline.ne_nil, dite_false, hno, Bool.false_eq_true,
        if_false, ih fun line hl => hmiddle line (List.mem_cons_of_mem _ hl), decode_line hline, String.append_assoc]

theorem decode_opening (h : ReplyCode code) (mark : UInt8) (hmark : mark.toNat < 0x80) (rest : List UInt8) :
    Str.slice (Utf8.decode (code ++ mark :: rest)) 0 3 = codeText code ∧
      (Utf8.decode (code ++ mark :: rest)).toList[3]? = some (Char.ofNat mark.toNat) := by
  have hlength : (Utf8.asciiChars code).length = 3 := by
    rw [Utf8.asciiChars, List.length_map, h.length]
  have hdecode : (Utf8.decode (code ++ mark :: rest)).toList =
      Utf8.asciiChars code ++ Char.ofNat mark.toNat :: Utf8.decodeFrom none rest := by
    rw [Utf8.decode, String.toList_ofList, Utf8.decodeFrom_asciiChars h.ascii, Utf8.decodeFrom_ascii hmark]
  constructor
  · rw [Str.slice, hdecode, List.take_left' hlength]
    rfl
  · rw [hdecode, List.getElem?_append_right (by omega), hlength]
    rfl

theorem opening_line (htext : 10 ∉ text) (h : ReplyCode code) (mark : UInt8) (hmark : mark ≠ 10) :
    Line (code ++ mark :: (text ++ crlf)) := by
  have hcontent : 10 ∉ code ++ mark :: text := by
    simp only [List.mem_append, List.mem_cons, not_or]
    refine ⟨fun hcode => ?_, Ne.symm hmark, htext⟩
    have := (h.digits 10 hcode).1
    exact absurd this (by decide)
  have hline := Line.mk hcontent
  rwa [List.append_assoc, List.cons_append] at hline

theorem readUpstreamReply_complete {reply : List UInt8} (h : CompleteReply reply) (rest : List UInt8) :
    readUpstreamReply (reply ++ rest) = (some (Utf8.decode reply), rest) := by
  cases h with
  | @single code text hcode htext =>
      have hline := opening_line htext hcode 32 (by decide)
      obtain ⟨_, hmark⟩ := decode_opening hcode 32 (by decide) (text ++ crlf)
      simp only [readUpstreamReply, readline_line hline, hline.ne_nil, hmark, if_false]
      rfl
  | @multi code text last middle hcode htext hmiddle hlast hstarts =>
      have hline := opening_line htext hcode 45 (by decide)
      obtain ⟨hslice, hmark⟩ := decode_opening hcode 45 (by decide) (text ++ crlf)
      have hmore := readMore_reply hcode hmiddle hlast hstarts (Utf8.decode (code ++ 45 :: (text ++ crlf))) rest
      simp only [readUpstreamReply, List.append_assoc _ _ rest, readline_line hline, hline.ne_nil, hslice, hmark, if_false,
        hmore, decode_line hline]
      rfl

theorem readUpstreamReply_none : (readUpstreamReply buffer).1 = none ↔ buffer = [] := by
  rw [readUpstreamReply, ← readline_nil_iff]
  dsimp only
  split
  · next h => exact iff_of_true rfl h
  · next h => split <;> exact iff_of_false nofun h

theorem framed_iff (stream : List UInt8) : Framed stream ↔ (Incomplete stream → stream = []) := by
  constructor
  · intro h hincomplete
    exact readUpstreamReply_none.mp (h.incomplete hincomplete)
  · intro h
    refine ⟨?_, fun hincomplete => readUpstreamReply_none.mpr (h hincomplete)⟩
    rintro reply rest hreply rfl
    exact readUpstreamReply_complete hreply rest

theorem readReplies_complete (replies : List (List UInt8)) (h : ∀ reply ∈ replies, CompleteReply reply) (rest : List UInt8) :
    readReplies replies.length (replies.flatten ++ rest) = (replies.map fun reply => some (Utf8.decode reply), rest) := by
  induction replies with
  | nil => rfl
  | cons reply replies ih =>
      have hfirst := readUpstreamReply_complete (h reply List.mem_cons_self) (replies.flatten ++ rest)
      have hothers := ih fun reply hr => h reply (List.mem_cons_of_mem _ hr)
      simp only [List.length_cons, List.flatten_cons, List.append_assoc, readReplies, hfirst, hothers, List.map_cons]

-- Complete replies are read one by one; a truncated one is read as a reply, unless it is empty.
theorem reply_framing (stream : List UInt8) : (Framed stream ↔ (Incomplete stream → stream = [])) ∧
    ∀ (replies : List (List UInt8)) (rest : List UInt8), (∀ reply ∈ replies, CompleteReply reply) → stream = replies.flatten ++ rest →
      readReplies replies.length stream = (replies.map fun reply => some (Utf8.decode reply), rest) := by
  refine ⟨framed_iff stream, ?_⟩
  rintro replies rest h rfl
  exact readReplies_complete replies h rest

end

def welcome : List UInt8 := Utf8.encode "220-Welcome\r\n to the printer\r\n220 Ready\r\n"

def noted : List UInt8 := Utf8.encode "200 Noted\r\n"

theorem noted_complete : CompleteReply noted := by
  have hreply : CompleteReply (Utf8.encode "200" ++ 32 :: (Utf8.encode "Noted" ++ crlf)) :=
    .single ⟨by decide +kernel, by decide +kernel⟩ (by decide +kernel)
  have heq : Utf8.encode "200" ++ 32 :: (Utf8.encode "Noted" ++ crlf) = noted := by decide +kernel
  rwa [heq] at hreply

theorem welcome_complete : CompleteReply welcome := by
  have hmiddle : Line (Utf8.encode " to the printer" ++ crlf) := .mk (by decide +kernel)
  have hlast : Line (Utf8.encode "220 Ready" ++ crlf) := .mk (by decide +kernel)
  have hreply : CompleteReply (Utf8.encode "220" ++ 45 :: (Utf8.encode "Welcome" ++ crlf) ++
      ([Utf8.encode " to the printer" ++ crlf].flatten ++ (Utf8.encode "220 Ready" ++ crlf))) :=
    .multi ⟨by decide +kernel, by decide +kernel⟩ (by decide +kernel) (by simpa using ⟨hmiddle, by decide +kernel⟩)
      hlast (by decide +kernel)
  have heq : Utf8.encode "220" ++ 45 :: (Utf8.encode "Welcome" ++ crlf) ++
      ([Utf8.encode " to the printer" ++ crlf].flatten ++ (Utf8.encode "220 Ready" ++ crlf)) = welcome := by
    decide +kernel
  rwa [heq] at hreply

theorem reply_framing_pair : readReplies 2 ([welcome, noted].flatten ++ []) =
    ([some (Utf8.decode welcome), some (Utf8.decode noted)], []) := by
  refine (reply_framing ([welcome, noted].flatten ++ [])).2 [welcome, noted] [] ?_ rfl
  intro reply hreply
  rcases List.mem_pair.mp hreply with rfl | rfl
  · exact welcome_complete
  · exact noted_complete

def cutReply : List UInt8 := Utf8.encode "250-Directory changed\r\n"

theorem cutReply_incomplete : Incomplete cutReply := by
  have hcode : ReplyCode (Utf8.encode "250") := ⟨by decide +kernel, by decide +kernel⟩
  have hlast : Line (Utf8.encode "250 End\r\n") := by
    have hline : Line (Utf8.encode "250 End" ++ crlf) := .mk (by decide +kernel)
    rwa [show Utf8.encode "250 End" ++ crlf = Utf8.encode "250 End\r\n" by decide +kernel] at hline
  have hreply : CompleteReply (Utf8.encode "250" ++ 45 :: (Utf8.encode "Directory changed" ++ crlf) ++
      ([].flatten ++ Utf8.encode "250 End\r\n")) :=
    .multi hcode (by decide +kernel) nofun hlast (by decide +kernel)
  exact ⟨_, hreply, by decide +kernel, by decide +kernel⟩

-- What there is of the reply is taken for an acceptance.
theorem cut_reply_accepted : ¬ ∀ stream, Framed stream := by
  intro h
  have hread : (readUpstreamReply cutReply).1 = none := (h cutReply).incomplete cutReply_incomplete
  have haccepted : ((readUpstreamReply cutReply).1.any fun reply => Str.startswith reply "2") = true := by decide +kernel
  rw [hread] at haccepted
  cases haccepted

end Wire

end PandaProxy.FtpProxy
