import Mathlib.Tactic.Ring
import PandaProxy.FtpProxy.Replies
import PandaProxy.Python.Delimited
import PandaProxy.Python.Numerals

namespace PandaProxy.FtpProxy

open Python

inductive Raised where
  | valueError
  | indexError
  deriving DecidableEq, Repr

-- The parsers with what their operations raise.
namespace Raising

def int (s : String) : Except Raised Int :=
  match Int.parse s with
  | some n => .ok n
  | none => .error .valueError

def index {α : Type} (items : List α) (i : Nat) : Except Raised α :=
  match items[i]? with
  | some item => .ok item
  | none => .error .indexError

-- `except ValueError: return None`
def orNone {α : Type} : Except Raised α → Except Raised (Option α)
  | .ok a => .ok (some a)
  | .error .valueError => .ok none
  | .error x => .error x

-- `reply[start + 1 : end]`, where `find` has found both.
def bracketed (reply : String) : Option String :=
  match Str.find reply '(' 0 with
  | none => none
  | some start => (Str.find reply ')' (start + 1)).map fun stop => Str.slice reply (start + 1) stop

def parsePasvReply (reply : String) : Except Raised (Option (String × Int)) := do
  match bracketed reply with
  | none => pure none
  | some body =>
      let parts := Str.split ',' body
      if parts.length ≠ 6 then pure none
      else
        match ← orNone (parts.mapM fun p => int (Str.strip p)) with
        | none => pure none
        | some numbers =>
            if numbers.any (fun n => n < 0 || n > 255) then pure none
            else
              let host := Str.join "." ((numbers.take 4).map toString)
              let port := (← index numbers 4) * 256 + (← index numbers 5)
              if port = 0 then pure none else pure (some (host, port))

def parseEpsvReply (reply : String) : Except Raised (Option Int) := do
  match bracketed reply with
  | none => pure none
  | some body =>
      if body.toList.length < 4 then pure none
      else
        let delimiter ← index body.toList 0
        let fields := Str.split delimiter body
        if fields.length < 4 then pure none
        else
          let field ← index fields 3
          match ← orNone (int field) with
          | none => pure none
          | some port => if 1 ≤ port ∧ port ≤ 65535 then pure (some port) else pure none

theorem mapM_int (parts : List String) : orNone (parts.mapM fun p => int (Str.strip p)) =
    .ok (parts.mapM fun p => Int.parse (Str.strip p)) := by
  have hmap : parts.mapM (fun p => int (Str.strip p)) =
      match parts.mapM fun p => Int.parse (Str.strip p) with
      | some numbers => .ok numbers
      | none => .error .valueError := by
    induction parts with
    | nil => rfl
    | cons p parts ih =>
        rw [List.mapM_cons, List.mapM_cons, ih, int]
        cases Int.parse (Str.strip p) with
        | none => rfl
        | some n => cases parts.mapM fun p => Int.parse (Str.strip p) <;> rfl
  rw [hmap]
  cases parts.mapM fun p => Int.parse (Str.strip p) <;> rfl

theorem index_of_lt {α : Type} {items : List α} {i : Nat} (h : i < items.length) (d : α) :
    index items i = .ok (items.getD i d) := by
  simp [index, List.getElem?_eq_getElem h, List.getD_eq_getElem?_getD]

theorem mapM_length {α β : Type} {f : α → Option β} {xs : List α} {ys : List β} (h : xs.mapM f = some ys) :
    ys.length = xs.length := by
  induction xs generalizing ys with
  | nil =>
      cases h
      rfl
  | cons x xs ih =>
      rw [List.mapM_cons] at h
      obtain ⟨y, _, h⟩ := Option.bind_eq_some_iff.mp h
      obtain ⟨rest, hrest, h⟩ := Option.bind_eq_some_iff.mp h
      cases h
      rw [List.length_cons, List.length_cons, ih hrest]

theorem parsePasvReply_returns (reply : String) : parsePasvReply reply = .ok (FtpProxy.parsePasvReply reply) := by
  unfold parsePasvReply FtpProxy.parsePasvReply bracketed
  cases Str.find reply '(' 0 with
  | none => rfl
  | some start =>
      dsimp only
      cases Str.find reply ')' (start + 1) with
      | none => rfl
      | some stop =>
          dsimp only [Option.map_some]
          split
          · rfl
          · next hsix =>
              rw [mapM_int]
              cases hnumbers : (Str.split ',' (Str.slice reply (start + 1) stop)).mapM fun p => Int.parse (Str.strip p) with
              | none => rfl
              | some numbers =>
                  have hlength := mapM_length hnumbers
                  rw [not_not] at hsix
                  rw [hsix] at hlength
                  simp only [bind, Except.bind, index_of_lt (show 4 < numbers.length by omega) 0,
                    index_of_lt (show 5 < numbers.length by omega) 0, pure, Except.pure]
                  split
                  · rfl
                  · split <;> rfl

theorem parseEpsvReply_returns (reply : String) : parseEpsvReply reply = .ok (FtpProxy.parseEpsvReply reply) := by
  unfold parseEpsvReply FtpProxy.parseEpsvReply bracketed
  cases Str.find reply '(' 0 with
  | none => rfl
  | some start =>
      dsimp only
      cases Str.find reply ')' (start + 1) with
      | none => rfl
      | some stop =>
          dsimp only [Option.map_some]
          cases hbody : (Str.slice reply (start + 1) stop).toList with
          | nil => rfl
          | cons delimiter rest =>
              dsimp only
              split
              · rfl
              · simp only [index, List.getElem?_cons_zero, bind, Except.bind, Str.split, hbody, List.length_map]
                split
                · rfl
                · next hfour =>
                    have hfield : ((delimiter :: rest).splitOn delimiter)[3]? =
                        some (((delimiter :: rest).splitOn delimiter).getD 3 []) := by
                      rw [List.getD_eq_getElem?_getD, List.getElem?_eq_getElem (by omega), Option.getD_some]
                    simp only [List.getElem?_map, hfield, Option.map_some, int]
                    cases Int.parse (.ofList (((delimiter :: rest).splitOn delimiter).getD 3 [])) with
                    | none => rfl
                    | some port =>
                        simp only [orNone, pure, Except.pure]
                        split <;> rfl

end Raising

structure DottedQuad (octets : List Nat) (host : String) : Prop where
  four : octets.length = 4
  bytes : ∀ n ∈ octets, n ≤ 255
  text : host = Str.join "." (octets.map Nat.repr)

variable {reply host : String} {port : Int} {octets numbers : List Nat}

theorem not_mem_repr {c : Char} (n : Nat) (hc : c.isDigit = false) : c ∉ n.repr.toList := by
  intro h
  rw [Int.isDigit_of_mem_repr h] at hc
  cases hc

theorem mapM_repr (h : ∀ n ∈ numbers, n ≤ 255) :
    (numbers.map Nat.repr).mapM (fun p => Int.parse (Str.strip p)) = some (numbers.map Int.ofNat) := by
  induction numbers with
  | nil => rfl
  | cons n numbers ih =>
      have hn : n < 10 ^ Int.maxDigits := Int.lt_maxDigits (Nat.lt_of_le_of_lt (h n List.mem_cons_self) (by decide))
      rw [List.map_cons, List.mapM_cons, Str.strip_repr, Int.parse_repr hn, ih fun k hk => h k (List.mem_cons_of_mem _ hk)]
      rfl

theorem not_mem_numerals {sep c : Char} (hsep : c ≠ sep) (hc : c.isDigit = false) (numbers : List Nat) :
    c ∉ [sep].intercalate (numbers.map fun n => n.repr.toList) := by
  induction numbers with
  | nil => exact List.not_mem_nil
  | cons n numbers ih =>
      cases numbers with
      | nil => simpa using not_mem_repr n hc
      | cons k numbers =>
          rw [List.map_cons, List.map_cons, List.intercalate_cons_cons, List.mem_append, List.mem_append, List.mem_singleton]
          rintro ((hn | heq) | hrest)
          · exact not_mem_repr n hc hn
          · exact hsep heq
          · exact ih hrest

theorem split_numerals {sep : Char} (hsep : sep.isDigit = false) (hne : numbers ≠ []) :
    Str.split sep (.ofList ([sep].intercalate (numbers.map fun n => n.repr.toList))) = numbers.map Nat.repr := by
  have hparts : ∀ part ∈ numbers.map Nat.repr, sep ∉ part.toList := by
    intro part hpart
    obtain ⟨n, _, rfl⟩ := List.mem_map.mp hpart
    exact not_mem_repr n hsep
  have hsplit := Str.split_joined hparts (by simpa using hne)
  rwa [List.map_map] at hsplit

-- `227 Entering Passive Mode (h1,h2,h3,h4,p1,p2)`
theorem parsePasvReply_numbers (hsix : numbers.length = 6) (hbytes : ∀ n ∈ numbers, n ≤ 255)
    (hreply : reply = "227 Entering Passive Mode (" ++ Str.join "," (numbers.map Nat.repr) ++ ")\r\n") :
    parsePasvReply reply =
      let port : Int := numbers.getD 4 0 * 256 + numbers.getD 5 0
      if port = 0 then none else some (Str.join "." ((numbers.take 4).map Nat.repr), port) := by
  have hbody : reply.toList = "227 Entering Passive Mode ".toList ++
      '(' :: (([','].intercalate (numbers.map fun n => n.repr.toList)) ++ ')' :: "\r\n".toList) := by
    have hopening : "227 Entering Passive Mode (".toList = "227 Entering Passive Mode ".toList ++ ['('] := by decide
    have hclosing : ")\r\n".toList = ')' :: "\r\n".toList := by decide
    rw [hreply, String.toList_append, String.toList_append, Str.toList_join, List.map_map, hopening, hclosing,
      List.append_assoc, List.append_assoc]
    rfl
  obtain ⟨hstart, hstop, hslice⟩ := Str.bracketed hbody (by decide) (not_mem_numerals (by decide) (by decide) numbers)
  have hsplit : Str.split ',' (.ofList ([','].intercalate (numbers.map fun n => n.repr.toList))) = numbers.map Nat.repr :=
    split_numerals (by decide) (List.ne_nil_of_length_pos (by rw [hsix]; decide))
  have hrange : (numbers.map Int.ofNat).any (fun n => n < 0 || n > 255) = false := by
    rw [List.any_eq_false]
    intro n hn
    obtain ⟨k, hk, rfl⟩ := List.mem_map.mp hn
    have hk := hbytes k hk
    simp only [Bool.or_eq_true, decide_eq_true_eq, not_or]
    exact ⟨by simp, by simp; omega⟩
  have hhost : ((numbers.map Int.ofNat).take 4).map toString = (numbers.take 4).map Nat.repr := by
    rw [← List.map_take, List.map_map]
    rfl
  have hnumber : ∀ i, (numbers.map Int.ofNat).getD i 0 = (numbers.getD i 0 : Nat) := by
    intro i
    rw [List.getD_eq_getElem?_getD, List.getElem?_map, List.getD_eq_getElem?_getD]
    cases numbers[i]? <;> rfl
  simp only [parsePasvReply, hstart, hstop, hslice, hsplit, List.length_map, hsix, mapM_repr hbytes, hrange, hhost, hnumber,
    ne_eq, not_true_eq_false, if_false, Bool.false_eq_true]

theorem DottedQuad.ne_nil (h : DottedQuad octets host) : octets ≠ [] :=
  List.ne_nil_of_length_pos (by rw [h.four]; decide)

theorem DottedQuad.split (h : DottedQuad octets host) : Str.split '.' host = octets.map Nat.repr := by
  have hhost : host = .ofList (['.'].intercalate (octets.map fun n => n.repr.toList)) := by
    rw [h.text, ← String.toList_inj, Str.toList_join, List.map_map]
    exact String.toList_ofList.symm
  rw [hhost, split_numerals (by decide) h.ne_nil]

theorem formatPasvReply_numbers (h : DottedQuad octets host) (port : Nat) :
    formatPasvReply host port = "227 Entering Passive Mode (" ++
      Str.join "," ((octets ++ [port / 256, port % 256]).map Nat.repr) ++ ")\r\n" := by
  have hne : octets.map Nat.repr ≠ [] := by simpa using h.ne_nil
  have hjoin : Str.join "," ((octets ++ [port / 256, port % 256]).map Nat.repr) =
      Str.join "," (octets.map Nat.repr) ++ "," ++ (port / 256).repr ++ "," ++ (port % 256).repr := by
    rw [List.map_append, Str.join, String.intercalate_append_of_ne_nil hne (by simp)]
    simp only [Str.join, String.append_assoc, List.map_cons, List.map_nil, String.intercalate_cons_cons,
      String.intercalate_singleton]
  have hhigh : toString ((port : Int) / 256) = (port / 256).repr := by
    rw [show (port : Int) / 256 = (port / 256 : Nat) by omega]
    rfl
  have hlow : toString ((port : Int) % 256) = (port % 256).repr := by
    rw [show (port : Int) % 256 = (port % 256 : Nat) by omega]
    rfl
  unfold formatPasvReply
  rw [hjoin, h.split, hhigh, hlow]
  simp only [String.append_assoc]

theorem parse_formatPasvReply (h : DottedQuad octets host) (hlow : 1 ≤ port) (hhigh : port ≤ 65535) :
    parsePasvReply (formatPasvReply host port) = some (host, port) := by
  obtain ⟨port, rfl⟩ := Int.eq_ofNat_of_zero_le (show 0 ≤ port by omega)
  have hsix : (octets ++ [port / 256, port % 256]).length = 6 := by
    rw [List.length_append, h.four]
    rfl
  have hbytes : ∀ n ∈ octets ++ [port / 256, port % 256], n ≤ 255 := by
    intro n hn
    rcases List.mem_append.mp hn with hn | hn
    · exact h.bytes n hn
    · simp only [List.mem_cons, List.not_mem_nil, or_false] at hn
      omega
  have hhost : (octets ++ [port / 256, port % 256]).take 4 = octets := List.take_left' h.four
  have hlast : ∀ i, (octets ++ [port / 256, port % 256]).getD (4 + i) 0 = [port / 256, port % 256].getD i 0 := by
    intro i
    rw [List.getD_eq_getElem?_getD, List.getElem?_append_right (by rw [h.four]; omega), h.four, Nat.add_sub_cancel_left,
      List.getD_eq_getElem?_getD]
  rw [parsePasvReply_numbers hsix hbytes (formatPasvReply_numbers h port), hhost, ← h.text]
  dsimp only
  rw [hlast 0, hlast 1]
  simp only [List.getD_cons_zero, List.getD_cons_succ]
  rw [if_neg (by omega)]
  congr 2
  omega

theorem parsePasvReply_sound (h : parsePasvReply reply = some (host, port)) :
    (∃ octets, DottedQuad octets host) ∧ 1 ≤ port ∧ port ≤ 65535 := by
  unfold parsePasvReply at h
  split at h
  · cases h
  · split at h
    · cases h
    · dsimp only at h
      split at h
      · cases h
      · next hsix =>
          split at h
          · cases h
          · next numbers hnumbers =>
              split at h
              · cases h
              · next hrange =>
                  split at h
                  · cases h
                  · next hport =>
                      cases h
                      have hlength := Raising.mapM_length hnumbers
                      rw [not_not] at hsix
                      have hbounds : ∀ n ∈ numbers, 0 ≤ n ∧ n ≤ 255 := by
                        intro n hn
                        rw [List.any_eq_true, not_exists] at hrange
                        have hout : ¬ (n < 0 ∨ n > 255) := fun hout => hrange n ⟨hn, by simpa using hout⟩
                        omega
                      refine ⟨⟨(numbers.take 4).map Int.toNat, ?_, ?_, ?_⟩, ?_⟩
                      · rw [List.length_map, List.length_take]
                        omega
                      · intro k hk
                        obtain ⟨n, hn, rfl⟩ := List.mem_map.mp hk
                        have hn := hbounds n (List.mem_of_mem_take hn)
                        omega
                      · rw [List.map_map]
                        refine congrArg _ (List.map_congr_left fun n hn => ?_)
                        rw [Function.comp_apply, Int.toString_eq_repr, Int.repr_eq_if, if_pos (hbounds n (List.mem_of_mem_take hn)).1]
                      · have hget : ∀ i < 6, numbers.getD i 0 ∈ numbers := by
                          intro i hi
                          rw [List.getD_eq_getElem?_getD, List.getElem?_eq_getElem (by omega), Option.getD_some]
                          exact List.getElem_mem _
                        have hhigh := hbounds _ (hget 4 (by decide))
                        have hlow := hbounds _ (hget 5 (by decide))
                        omega

theorem parseEpsvReply_sound (h : parseEpsvReply reply = some port) : 1 ≤ port ∧ port ≤ 65535 := by
  unfold parseEpsvReply at h
  dsimp only at h
  repeat' split at h
  all_goals simp only [Option.some.injEq, reduceCtorEq] at h
  next hport =>
    rwa [h] at hport

theorem parse_formatEpsvReply (hlow : 1 ≤ port) (hhigh : port ≤ 65535) : parseEpsvReply (formatEpsvReply port) = some port := by
  obtain ⟨port, rfl⟩ := Int.eq_ofNat_of_zero_le (show 0 ≤ port by omega)
  have hbody : (formatEpsvReply port).toList = "229 Entering Extended Passive Mode ".toList ++
      '(' :: (('|' :: '|' :: '|' :: (port.repr.toList ++ ['|'])) ++ ')' :: "\r\n".toList) := by
    have hopening : "229 Entering Extended Passive Mode (|||".toList =
        "229 Entering Extended Passive Mode ".toList ++ ['(', '|', '|', '|'] := by decide
    have hclosing : "|)\r\n".toList = ['|', ')'] ++ "\r\n".toList := by decide
    unfold formatEpsvReply
    rw [String.toList_append, String.toList_append, hopening, hclosing, List.append_assoc, List.append_assoc]
    show _ ++ '(' :: '|' :: '|' :: '|' :: (port.repr.toList ++ '|' :: ')' :: "\r\n".toList) = _
    simp only [List.cons_append, List.append_assoc, List.nil_append]
  have hdelimited : ')' ∉ '|' :: '|' :: '|' :: (port.repr.toList ++ ['|']) := by
    simpa using not_mem_repr port (c := ')') (by decide)
  obtain ⟨hstart, hstop, hslice⟩ := Str.bracketed hbody (by decide) hdelimited
  have hfields : ('|' :: '|' :: '|' :: (port.repr.toList ++ ['|'])).splitOn '|' = [[], [], [], port.repr.toList, []] := by
    have hparts : ∀ part ∈ [[], [], [], port.repr.toList, []], '|' ∉ part := by
      simpa using not_mem_repr port (c := '|') (by decide)
    have hsplit := List.splitOn_intercalate '|' hparts (by simp)
    rwa [show ['|'].intercalate [[], [], [], port.repr.toList, []] = '|' :: '|' :: '|' :: (port.repr.toList ++ ['|']) by
      simp [List.intercalate]] at hsplit
  have hparsed : Int.parse port.repr = some (port : Int) := Int.parse_repr (Int.lt_maxDigits (by omega))
  have hlength : ¬ ('|' :: '|' :: '|' :: (port.repr.toList ++ ['|'])).length < 4 := by
    simp
  have hfield : String.ofList ([[], [], [], port.repr.toList, []].getD 3 []) = port.repr := String.ofList_toList
  have hcount : ¬ [[], [], [], port.repr.toList, []].length < 4 := by
    simp
  simp only [parseEpsvReply, hstart, hstop, hslice, String.toList_ofList, hfields, if_neg hlength, if_neg hcount, hfield,
    hparsed]
  exact if_pos ⟨hlow, hhigh⟩

def ValidPort (port : Int) : Prop := 1 ≤ port ∧ port ≤ 65535

structure ReplyCodecs : Prop where
  pasv : ∀ octets host port, DottedQuad octets host → ValidPort port →
    Raising.parsePasvReply (formatPasvReply host port) = .ok (some (host, port))
  epsv : ∀ port, ValidPort port → Raising.parseEpsvReply (formatEpsvReply port) = .ok (some port)
  pasvAny : ∀ reply, ∃ endpoint, Raising.parsePasvReply reply = .ok endpoint ∧ ∀ host port, endpoint = some (host, port) →
    (∃ octets, DottedQuad octets host) ∧ ValidPort port ∧
      Raising.parsePasvReply (formatPasvReply host port) = .ok (some (host, port))
  epsvAny : ∀ reply, ∃ endpoint, Raising.parseEpsvReply reply = .ok endpoint ∧ ∀ port, endpoint = some port →
    ValidPort port ∧ Raising.parseEpsvReply (formatEpsvReply port) = .ok (some port)

theorem reply_codecs : ReplyCodecs where
  pasv octets host port hhost hport := by
    rw [Raising.parsePasvReply_returns, parse_formatPasvReply hhost hport.1 hport.2]
  epsv port hport := by
    rw [Raising.parseEpsvReply_returns, parse_formatEpsvReply hport.1 hport.2]
  pasvAny reply := by
    refine ⟨_, Raising.parsePasvReply_returns reply, fun host port h => ?_⟩
    obtain ⟨⟨octets, hhost⟩, hport⟩ := parsePasvReply_sound h
    refine ⟨⟨octets, hhost⟩, hport, ?_⟩
    rw [Raising.parsePasvReply_returns, parse_formatPasvReply hhost hport.1 hport.2]
  epsvAny reply := by
    refine ⟨_, Raising.parseEpsvReply_returns reply, fun port h => ?_⟩
    have hport := parseEpsvReply_sound h
    refine ⟨hport, ?_⟩
    rw [Raising.parseEpsvReply_returns, parse_formatEpsvReply hport.1 hport.2]

end PandaProxy.FtpProxy
