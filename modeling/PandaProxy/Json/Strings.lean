import PandaProxy.Json.Value

namespace PandaProxy.Json

-- How `json` reads and writes, on code points.
namespace Plain

abbrev Reader (α : Type) := List Nat → Except PayloadError (α × List Nat)

def malformed {α : Type} : Except PayloadError α := .error .jsonDecodeError

def codes (s : String) : List Nat := s.toList.map Char.toNat

def trail (b : UInt8) : Option Nat := if 0x80 ≤ b ∧ b < 0xC0 then some (b.toNat - 0x80) else none

-- `payload.decode("utf-8", "surrogatepass")`
def decode : List UInt8 → Option (List Nat)
  | [] => some []
  | a :: rest =>
      if a < 0x80 then do return a.toNat :: (← decode rest)
      else if a < 0xE0 then
        match rest with
        | b :: rest => do
            let code := (a.toNat - 0xC0) * 64 + (← trail b)
            if 0xC2 ≤ a then return code :: (← decode rest) else none
        | _ => none
      else if a < 0xF0 then
        match rest with
        | b :: c :: rest => do
            let code := ((a.toNat - 0xE0) * 64 + (← trail b)) * 64 + (← trail c)
            if 0x800 ≤ code then return code :: (← decode rest) else none
        | _ => none
      else
        match rest with
        | b :: c :: d :: rest => do
            let code := (((a.toNat - 0xF0) * 64 + (← trail b)) * 64 + (← trail c)) * 64 + (← trail d)
            if 0x10000 ≤ code ∧ code < 0x110000 then return code :: (← decode rest) else none
        | _ => none

def hexDigit (n : Nat) : Nat := (Nat.digitChar n).toNat

def hexValue (c : Nat) : Option Nat :=
  if '0'.toNat ≤ c ∧ c ≤ '9'.toNat then some (c - '0'.toNat)
  else if 'a'.toNat ≤ c ∧ c ≤ 'f'.toNat then some (c - 'a'.toNat + 10)
  else if 'A'.toNat ≤ c ∧ c ≤ 'F'.toNat then some (c - 'A'.toNat + 10)
  else none

def hex (n : Nat) : List Nat :=
  [hexDigit (n / 4096 % 16), hexDigit (n / 256 % 16), hexDigit (n / 16 % 16), hexDigit (n % 16)]

def readHex : Reader Nat
  | a :: b :: c :: d :: rest =>
      match hexValue a, hexValue b, hexValue c, hexValue d with
      | some a, some b, some c, some d => .ok (((a * 16 + b) * 16 + c) * 16 + d, rest)
      | _, _, _, _ => malformed
  | _ => malformed

def high (c : Nat) : Nat := 0xD800 + (c - 0x10000) / 1024

def low (c : Nat) : Nat := 0xDC00 + (c - 0x10000) % 1024

def join (n m : Nat) : Nat := 0x10000 + (n - 0xD800) * 1024 + (m - 0xDC00)

-- What follows `\u`: two escapes that spell the halves of one code point are that code point.
def readUnicode : Reader Nat := fun s => do
  let (n, s) ← readHex s
  match s with
  | 92 :: 117 :: second =>
      if highSurrogate n then do
        let (m, rest) ← readHex second
        if lowSurrogate m then .ok (join n m, rest) else .ok (n, s)
      else .ok (n, s)
  | _ => .ok (n, s)

-- What is escaped by one letter, and the letter.
def escapes : List (Nat × Nat) :=
  [(34, '"'.toNat), (92, '\\'.toNat), (10, 'n'.toNat), (13, 'r'.toNat), (9, 't'.toNat), (12, 'f'.toNat), (8, 'b'.toNat)]

def unescape (letter : Nat) : Option Nat :=
  if letter = '/'.toNat then some letter else (escapes.find? fun p => p.2 = letter).map Prod.fst

def letterOf (c : Nat) : Option Nat := (escapes.find? fun p => p.1 = c).map Prod.snd

def readEscape : Reader Nat
  | [] => malformed
  | letter :: rest =>
      if letter = 'u'.toNat then readUnicode rest
      else
        match unescape letter with
        | some c => .ok (c, rest)
        | none => malformed

def readText : Nat → Reader (List Nat)
  | fuel + 1, c :: rest =>
      if c = '"'.toNat then .ok ([], rest)
      else if c = '\\'.toNat then do
        let (c, rest) ← readEscape rest
        let (s, rest) ← readText fuel rest
        .ok (c :: s, rest)
      else if c < 32 then malformed
      else do
        let (s, rest) ← readText fuel rest
        .ok (c :: s, rest)
  | _, _ => malformed

def asText (codes : List Nat) : Except PayloadError Text :=
  if h : ∀ c ∈ codes, c < 0x110000 then .ok ⟨codes, h⟩ else malformed

def readString : Reader Text := fun s => do
  let (codes, rest) ← readText s.length s
  let s ← asText codes
  .ok (s, rest)

def escape (n : Nat) : List Nat := '\\'.toNat :: 'u'.toNat :: hex n

def printCode (c : Nat) : List Nat :=
  if 32 ≤ c ∧ c < 127 ∧ c ≠ 34 ∧ c ≠ 92 then [c]
  else
    match letterOf c with
    | some letter => ['\\'.toNat, letter]
    | none => if c < 0x10000 then escape c else escape (high c) ++ escape (low c)

def printText (codes : List Nat) : List Nat := codes.flatMap printCode ++ ['"'.toNat]

-- From `\ud83d\ude00` on, and from the same halves as they are.
example : (readText 20 (codes "\\ud83d\\ude00\"")).toOption = some ([0x1F600], []) ∧
    ((decode [0xED, 0xA0, 0xBD, 0xED, 0xB8, 0x80, 0x22]).bind fun s => (readText 20 s).toOption) =
      some ([0xD83D, 0xDE00], []) := by decide +kernel

section

variable {n c fuel : Nat} {rest : List Nat}

theorem hexValue_hexDigit : ∀ d < 16, hexValue (hexDigit d) = some d := by decide

theorem readHex_hex (h : n < 0x10000) (rest : List Nat) : readHex (hex n ++ rest) = .ok (n, rest) := by
  have hdigit : ∀ k, hexValue (hexDigit (k % 16)) = some (k % 16) := fun k => hexValue_hexDigit _ (Nat.mod_lt _ (by decide))
  have hvalue : ((n / 4096 % 16 * 16 + n / 256 % 16) * 16 + n / 16 % 16) * 16 + n % 16 = n := by omega
  simp only [hex, List.cons_append, List.nil_append, readHex, hdigit, hvalue]

def Apart (n : Nat) (rest : List Nat) : Prop :=
  highSurrogate n = true → ∀ second, rest = 92 :: 117 :: second → ∃ m s, readHex second = .ok (m, s) ∧ lowSurrogate m = false

theorem readUnicode_alone (h : n < 0x10000) (hapart : Apart n rest) : readUnicode (hex n ++ rest) = .ok (n, rest) := by
  simp only [readUnicode, readHex_hex h, bind, Except.bind]
  split
  · next second =>
      split
      · next hhigh =>
          obtain ⟨m, s, hread, hlow⟩ := hapart hhigh second rfl
          simp only [hread, hlow, Bool.false_eq_true, if_false]
      · rfl
  · rfl

theorem halves (h : 0x10000 ≤ c) (hc : c < 0x110000) :
    highSurrogate (high c) = true ∧ lowSurrogate (low c) = true ∧ lowSurrogate (high c) = false ∧ join (high c) (low c) = c := by
  have hhigh : high c = 0xD800 + (c - 0x10000) / 1024 := rfl
  have hlow : low c = 0xDC00 + (c - 0x10000) % 1024 := rfl
  refine ⟨decide_eq_true ?_, decide_eq_true ?_, decide_eq_false ?_, ?_⟩
  · omega
  · omega
  · omega
  · unfold join
    omega

theorem readUnicode_pair {n m : Nat} (hn : n < 0x10000) (hm : m < 0x10000) (hhigh : highSurrogate n = true)
    (hlow : lowSurrogate m = true) (rest : List Nat) :
    readUnicode (hex n ++ (escape m ++ rest)) = .ok (join n m, rest) := by
  have hescape : escape m ++ rest = 92 :: 117 :: (hex m ++ rest) := rfl
  rw [hescape]
  simp only [readUnicode, readHex_hex hn, bind, Except.bind, hhigh, if_true, readHex_hex hm, hlow]

theorem readUnicode_halves (h : 0x10000 ≤ c) (hc : c < 0x110000) (rest : List Nat) :
    readUnicode (hex (high c) ++ (escape (low c) ++ rest)) = .ok (c, rest) := by
  obtain ⟨hhigh, hlow, _, hjoin⟩ := halves h hc
  have hfirst : high c < 0x10000 := by
    unfold high
    omega
  have hsecond : low c < 0x10000 := by
    unfold low
    omega
  rw [readUnicode_pair hfirst hsecond hhigh hlow, hjoin]

theorem letterOf_mem {letter : Nat} (h : letterOf c = some letter) : (c, letter) ∈ escapes := by
  obtain ⟨⟨d, letter'⟩, hfind, rfl⟩ := Option.map_eq_some_iff.mp h
  have hd : d = c := by simpa using List.find?_some hfind
  exact hd ▸ List.mem_of_find?_eq_some hfind

theorem unescape_escapes : ∀ p ∈ escapes, unescape p.2 = some p.1 ∧ p.2 ≠ 'u'.toNat ∧ p.2 < 128 := by decide

theorem readEscape_letter {letter : Nat} (h : (c, letter) ∈ escapes) (rest : List Nat) :
    readEscape (letter :: rest) = .ok (c, rest) := by
  obtain ⟨hback, hne, _⟩ := unescape_escapes _ h
  simp only [readEscape, if_neg hne, hback]

theorem readText_printCode (hc : c < 0x110000) (hapart : Apart c rest) :
    readText (fuel + 1) (printCode c ++ rest) = (readText fuel rest).map fun p => (c :: p.1, p.2) := by
  have hescaped : ∀ s, readEscape s = .ok (c, rest) →
      readText (fuel + 1) ('\\'.toNat :: s) = (readText fuel rest).map fun p => (c :: p.1, p.2) := by
    intro s hs
    have hne : '\\'.toNat ≠ '"'.toNat := by decide
    simp only [readText, if_neg hne, if_true, hs, bind, Except.bind]
    cases readText fuel rest <;> rfl
  unfold printCode
  split
  · next hplain =>
      have hquote : c ≠ '"'.toNat := hplain.2.2.1
      have hbackslash : c ≠ '\\'.toNat := hplain.2.2.2
      rw [List.singleton_append, readText, if_neg hquote, if_neg hbackslash, if_neg (Nat.not_lt.mpr hplain.1)]
      cases readText fuel rest <;> rfl
  · split
    · next letter hletter => exact hescaped _ (readEscape_letter (letterOf_mem hletter) rest)
    · split
      · next hshort => exact hescaped _ (readUnicode_alone hshort hapart)
      · next hlong =>
          rw [List.append_assoc]
          exact hescaped _ (readUnicode_halves (Nat.not_lt.mp hlong) hc rest)

theorem apart_printText {d : Nat} {s : List Nat} (hd : d < 0x110000)
    (hunpaired : (highSurrogate c && lowSurrogate d) = false) : Apart c (printCode d ++ s) := by
  intro hhigh second hsecond
  rw [hhigh, Bool.true_and] at hunpaired
  unfold printCode at hsecond
  split at hsecond
  · next hplain => exact absurd (List.cons.inj hsecond).1 hplain.2.2.2
  · split at hsecond
    · next letter hletter =>
        exact absurd (List.cons.inj (List.cons.inj hsecond).2).1 (unescape_escapes _ (letterOf_mem hletter)).2.1
    · split at hsecond
      · next hshort =>
          cases hsecond
          exact ⟨d, s, readHex_hex hshort s, hunpaired⟩
      · next hlong =>
          have hfirst : high d < 0x10000 := by
            unfold high
            omega
          cases hsecond
          exact ⟨high d, _, readHex_hex hfirst _, (halves (Nat.not_lt.mp hlong) hd).2.2.1⟩

theorem readText_printText {s : List Nat} (hbounded : ∀ c ∈ s, c < 0x110000)
    (hunpaired : s.IsChain fun c d => (highSurrogate c && lowSurrogate d) = false) (hfuel : s.length < fuel) :
    readText fuel (printText s ++ rest) = .ok (s, rest) := by
  induction s generalizing fuel with
  | nil =>
      cases fuel with
      | zero => cases hfuel
      | succ fuel => rfl
  | cons c s ih =>
      cases fuel with
      | zero => cases hfuel
      | succ fuel =>
          have htail : s.IsChain fun c d => (highSurrogate c && lowSurrogate d) = false := by
            cases s with
            | nil => exact .nil
            | cons d s => exact (List.isChain_cons_cons.mp hunpaired).2
          have hrest := ih (fun d hd => hbounded d (List.mem_cons_of_mem _ hd)) htail (Nat.lt_of_succ_lt_succ hfuel)
          have happend : printText (c :: s) ++ rest = printCode c ++ (printText s ++ rest) := by
            simp only [printText, List.flatMap_cons, List.append_assoc]
          have hapart : Apart c (printText s ++ rest) := by
            cases s with
            | nil =>
                intro _ second hsecond
                exact absurd (List.cons.inj hsecond).1 (by decide)
            | cons d s =>
                simp only [printText, List.flatMap_cons, List.append_assoc]
                exact apart_printText (hbounded d (List.mem_cons_of_mem _ List.mem_cons_self)) (List.isChain_cons_cons.mp hunpaired).1
          rw [happend, readText_printCode (hbounded c List.mem_cons_self) hapart, hrest]
          rfl

theorem printText_length (s : List Nat) : s.length < (printText s).length := by
  have hcode : ∀ c, 0 < (printCode c).length := by
    intro c
    unfold printCode
    repeat' split
    all_goals exact Nat.succ_pos _
  induction s with
  | nil => exact Nat.one_pos
  | cons c s ih =>
      have := hcode c
      simp only [printText, List.flatMap_cons, List.append_assoc, List.length_append, List.length_cons] at ih ⊢
      omega

theorem readString_printText {s : Text} (h : s.Unpaired) (rest : List Nat) :
    readString (printText s.codes ++ rest) = .ok (s, rest) := by
  have hfuel : s.codes.length < (printText s.codes ++ rest).length := by
    rw [List.length_append]
    exact Nat.lt_add_right _ (printText_length s.codes)
  have htext : asText s.codes = .ok s := dif_pos s.bounded
  simp only [readString, readText_printText s.bounded h hfuel, bind, Except.bind, htext]

def Ascii (s : List Nat) : Prop := ∀ c ∈ s, c < 128

theorem Ascii.nil : Ascii [] := nofun

theorem Ascii.cons {s : List Nat} (hc : c < 128) (hs : Ascii s) : Ascii (c :: s) := by
  intro d hd
  rcases List.mem_cons.mp hd with rfl | hd
  · exact hc
  · exact hs d hd

theorem Ascii.append {s s' : List Nat} (hs : Ascii s) (hs' : Ascii s') : Ascii (s ++ s') := by
  intro d hd
  exact (List.mem_append.mp hd).elim (hs d) (hs' d)

theorem codes_ascii {s : String} (h : s.toList.all (fun c => decide (c.toNat < 128)) = true) : Ascii (codes s) := by
  intro c hc
  obtain ⟨d, hd, rfl⟩ := List.mem_map.mp hc
  exact of_decide_eq_true (List.all_eq_true.mp h d hd)

theorem escape_ascii (n : Nat) : Ascii (escape n) := by
  have hdigit : ∀ d < 16, hexDigit d < 128 := by decide
  have hmod : ∀ k, hexDigit (k % 16) < 128 := fun k => hdigit _ (Nat.mod_lt _ (by decide))
  exact .cons (by decide) (.cons (by decide) (.cons (hmod _) (.cons (hmod _) (.cons (hmod _) (.cons (hmod _) .nil)))))

theorem printText_ascii (s : List Nat) : Ascii (printText s) := by
  refine Ascii.append (fun d hd => ?_) (.cons (by decide) .nil)
  obtain ⟨c, _, hd⟩ := List.mem_flatMap.mp hd
  revert hd
  unfold printCode
  split
  · next hplain => exact Ascii.cons (by omega) .nil d
  · split
    · next letter hletter =>
        exact Ascii.cons (by decide) (.cons (unescape_escapes _ (letterOf_mem hletter)).2.2 .nil) d
    · split
      · exact escape_ascii _ d
      · exact (escape_ascii _).append (escape_ascii _) d

theorem decode_ascii {s : List Nat} (h : Ascii s) : decode (s.map UInt8.ofNat) = some s := by
  induction s with
  | nil => rfl
  | cons c s ih =>
      have hc : c < 128 := h c List.mem_cons_self
      have htoNat : (UInt8.ofNat c).toNat = c := by
        rw [UInt8.toNat_ofNat', Nat.mod_eq_of_lt (by omega)]
      have hsmall : UInt8.ofNat c < 0x80 := by
        rw [UInt8.lt_iff_toNat_lt, htoNat]
        exact hc
      have hrest := ih fun d hd => h d (List.mem_cons_of_mem _ hd)
      rw [List.map_cons, decode.eq_def]
      simp only [hsmall, if_true, hrest, htoNat]
      rfl

end

end Plain

end PandaProxy.Json
