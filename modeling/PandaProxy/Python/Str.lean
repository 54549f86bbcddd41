import Mathlib.Data.List.DropRight

namespace PandaProxy.Python

-- `str.isspace`, which is what `strip` removes when it is given no characters.
def isSpace (c : Char) : Bool :=
  let n := c.toNat
  (0x09 ≤ n && n ≤ 0x0d) || (0x1c ≤ n && n ≤ 0x20) || n == 0x85 || n == 0xa0 || n == 0x1680 ||
    (0x2000 ≤ n && n ≤ 0x200a) || n == 0x2028 || n == 0x2029 || n == 0x202f || n == 0x205f ||
    n == 0x3000

namespace Chars

def strip (p : Char → Bool) (cs : List Char) : List Char := (cs.dropWhile p).rdropWhile p

def partition (sep : Char) (cs : List Char) : List Char × List Char :=
  let head := cs.takeWhile (fun c => c != sep)
  (head, cs.drop (head.length + 1))

-- The characters whose upper case is pure ASCII; any other result differs from every ASCII text.
def upperChar (c : Char) : List Char :=
  if c == 'ß' then ['S', 'S']
  else if c == 'ı' then ['I']
  else if c == 'ſ' then ['S']
  else if c == 'ﬀ' then ['F', 'F']
  else if c == 'ﬁ' then ['F', 'I']
  else if c == 'ﬂ' then ['F', 'L']
  else if c == 'ﬃ' then ['F', 'F', 'I']
  else if c == 'ﬄ' then ['F', 'F', 'L']
  else if c == 'ﬅ' then ['S', 'T']
  else if c == 'ﬆ' then ['S', 'T']
  else [c.toUpper]

def upper (cs : List Char) : List Char := cs.flatMap upperChar

theorem mem_of_mem_splitOn {sep c : Char} {cs part : List Char} (h : part ∈ cs.splitOn sep) (hc : c ∈ part) : c ∈ cs := by
  induction cs generalizing part with
  | nil =>
      rw [List.splitOn_nil, List.mem_singleton] at h
      rwa [h] at hc
  | cons a cs ih =>
      rw [List.splitOn_cons_eq_if_modifyHead] at h
      split at h
      · rcases List.mem_cons.mp h with rfl | h
        · cases hc
        · exact List.mem_cons_of_mem a (ih h hc)
      · cases hsplit : cs.splitOn sep with
        | nil => exact absurd hsplit (List.splitOn_ne_nil sep cs)
        | cons first rest =>
            rw [hsplit] at ih h
            rcases List.mem_cons.mp h with rfl | h
            · rcases List.mem_cons.mp hc with rfl | hc
              · exact List.mem_cons_self
              · exact List.mem_cons_of_mem a (ih List.mem_cons_self hc)
            · exact List.mem_cons_of_mem a (ih (List.mem_cons_of_mem first h) hc)

section

variable {p : Char → Bool} {cs ds : List Char}

theorem strip_append (h : ∀ c ∈ ds, p c = true) : strip p (cs ++ ds) = strip p cs := by
  have hleft : ds.dropWhile p = [] := List.dropWhile_eq_nil_iff.mpr h
  have hright : ∀ l : List Char, (l ++ ds).rdropWhile p = l.rdropWhile p := by
    intro l
    rw [List.rdropWhile, List.reverse_append, List.dropWhile_append_of_pos (by simpa using h), ← List.rdropWhile]
  rw [strip, strip, List.dropWhile_append]
  split
  · next hempty => rw [List.isEmpty_iff.mp hempty, hleft]
  · exact hright _

theorem dropWhile_self_iff : cs.dropWhile p = cs ↔ ∀ c ∈ cs.head?, p c = false := by
  cases cs with
  | nil => exact iff_of_true rfl nofun
  | cons c cs => simp [List.dropWhile_eq_self_iff]

theorem rdropWhile_self_iff : cs.rdropWhile p = cs ↔ ∀ c ∈ cs.getLast?, p c = false := by
  rw [← List.head?_reverse, ← dropWhile_self_iff, List.rdropWhile, List.reverse_eq_iff]

theorem strip_eq_self_iff : strip p cs = cs ↔ (∀ c ∈ cs.head?, p c = false) ∧ ∀ c ∈ cs.getLast?, p c = false := by
  rw [← dropWhile_self_iff, ← rdropWhile_self_iff]
  constructor
  · intro h
    have hright := List.rdropWhile_prefix p (cs.dropWhile p)
    rw [← strip, h] at hright
    have hleft : cs.dropWhile p = cs :=
      ((List.dropWhile_suffix p).eq_of_length (Nat.le_antisymm (List.dropWhile_suffix p).length_le hright.length_le))
    rw [strip, hleft] at h
    exact ⟨hleft, h⟩
  · rintro ⟨hleft, hright⟩
    rw [strip, hleft, hright]

end

end Chars

namespace Str

def strip (s : String) : String := .ofList (Chars.strip isSpace s.toList)

def stripChars (chars : String) (s : String) : String :=
  .ofList (Chars.strip (fun c => chars.toList.contains c) s.toList)

def partition (sep : Char) (s : String) : String × String :=
  let (head, tail) := Chars.partition sep s.toList
  (.ofList head, .ofList tail)

def upper (s : String) : String := .ofList (Chars.upper s.toList)

def startswith (s pre : String) : Bool := pre.toList.isPrefixOf s.toList

def split (sep : Char) (s : String) : List String := (s.toList.splitOn sep).map String.ofList

def find (s : String) (c : Char) (start : Nat) : Option Nat :=
  ((s.toList.drop start).findIdx? (fun d => d == c)).map (fun n => start + n)

def slice (s : String) (start stop : Nat) : String := .ofList ((s.toList.take stop).drop start)

def join (sep : String) (parts : List String) : String := sep.intercalate parts

theorem startswith_iff (s pre : String) : startswith s pre = true ↔ ∃ t, s.toList = pre.toList ++ t := by
  simp only [startswith, List.isPrefixOf_iff_prefix, List.IsPrefix]
  constructor
  · rintro ⟨t, h⟩
    exact ⟨t, h.symm⟩
  · rintro ⟨t, h⟩
    exact ⟨t, h.symm⟩

end Str

-- Decimal digits: the code points of the zeros, each followed by its nine companions.
def decimalZeros : List Nat :=
  [0x30, 0x660, 0x6f0, 0x7c0, 0x966, 0x9e6, 0xa66, 0xae6, 0xb66, 0xbe6, 0xc66, 0xce6, 0xd66, 0xde6,
    0xe50, 0xed0, 0xf20, 0x1040, 0x1090, 0x17e0, 0x1810, 0x1946, 0x19d0, 0x1a80, 0x1a90, 0x1b50,
    0x1bb0, 0x1c40, 0x1c50, 0xa620, 0xa8d0, 0xa900, 0xa9d0, 0xa9f0, 0xaa50, 0xabf0, 0xff10, 0x104a0,
    0x10d30, 0x10d40, 0x11066, 0x110f0, 0x11136, 0x111d0, 0x112f0, 0x11450, 0x114d0, 0x11650,
    0x116c0, 0x116d0, 0x116da, 0x11730, 0x118e0, 0x11950, 0x11bf0, 0x11c50, 0x11d50, 0x11da0,
    0x11f50, 0x16130, 0x16a60, 0x16ac0, 0x16b50, 0x16d70, 0x1ccf0, 0x1d7ce, 0x1d7d8, 0x1d7e2,
    0x1d7ec, 0x1d7f6, 0x1e140, 0x1e2f0, 0x1e4f0, 0x1e5f1, 0x1e950, 0x1fbf0]

def decimalValue (c : Char) : Option Nat :=
  (decimalZeros.find? (fun z => z ≤ c.toNat && c.toNat < z + 10)).map (fun z => c.toNat - z)

namespace Int

-- `int` skips the C blanks, and every other blank that is not ASCII.
def isBlank (c : Char) : Bool :=
  c.toNat == 0x20 || (0x09 ≤ c.toNat && c.toNat ≤ 0x0d) || (0x80 ≤ c.toNat && isSpace c)

def maxDigits : Nat := 4300

-- Digits with single underscores between them; `acc` is the value and the number of digits so far.
def digits (acc : Option (Nat × Nat)) : List Char → Option (Nat × Nat)
  | [] => acc
  | '_' :: c :: rest =>
      match acc, decimalValue c with
      | some (v, n), some d => digits (some (10 * v + d, n + 1)) rest
      | _, _ => none
  | c :: rest =>
      match decimalValue c with
      | some d =>
          match acc with
          | some (v, n) => digits (some (10 * v + d, n + 1)) rest
          | none => digits (some (d, 1)) rest
      | none => none

def magnitude (cs : List Char) : Option Nat :=
  match digits none cs with
  | some (v, n) => if n ≤ maxDigits then some v else none
  | none => none

-- `int(s)`; `none` is the `ValueError`.
def parse (s : String) : Option Int :=
  match Chars.strip isBlank s.toList with
  | '-' :: cs => (magnitude cs).map (fun n => -(n : Int))
  | '+' :: cs => (magnitude cs).map (fun n => (n : Int))
  | cs => (magnitude cs).map (fun n => (n : Int))

end Int

namespace Utf8

-- An unfinished sequence: the bits so far, how many bytes are missing, the range of the next one.
structure Partial where
  bits : Nat
  missing : Nat
  low : Nat
  high : Nat

def replacement : Char := '\uFFFD'

def lead (b : Nat) : Option Partial :=
  if 0xC2 ≤ b ∧ b ≤ 0xDF then some ⟨b - 0xC0, 1, 0x80, 0xBF⟩
  else if b = 0xE0 then some ⟨0, 2, 0xA0, 0xBF⟩
  else if b = 0xED then some ⟨0xD, 2, 0x80, 0x9F⟩
  else if 0xE1 ≤ b ∧ b ≤ 0xEF then some ⟨b - 0xE0, 2, 0x80, 0xBF⟩
  else if b = 0xF0 then some ⟨0, 3, 0x90, 0xBF⟩
  else if 0xF1 ≤ b ∧ b ≤ 0xF3 then some ⟨b - 0xF0, 3, 0x80, 0xBF⟩
  else if b = 0xF4 then some ⟨4, 3, 0x80, 0x8F⟩
  else none

def first (b : Nat) : List Char × Option Partial :=
  if b < 0x80 then ([Char.ofNat b], none)
  else
    match lead b with
    | some p => ([], some p)
    | none => ([replacement], none)

def next (p : Partial) (b : Nat) : List Char × Option Partial :=
  if p.low ≤ b ∧ b ≤ p.high then
    if p.missing = 1 then ([Char.ofNat (p.bits * 64 + (b - 0x80))], none)
    else ([], some ⟨p.bits * 64 + (b - 0x80), p.missing - 1, 0x80, 0xBF⟩)
  else
    let (cs, q) := first b
    (replacement :: cs, q)

def decodeFrom : Option Partial → List UInt8 → List Char
  | none, [] => []
  | some _, [] => [replacement]
  | none, b :: rest =>
      let (cs, q) := first b.toNat
      cs ++ decodeFrom q rest
  | some p, b :: rest =>
      let (cs, q) := next p b.toNat
      cs ++ decodeFrom q rest

-- `bytes.decode("utf-8", errors="replace")`
def decode (bytes : List UInt8) : String := .ofList (decodeFrom none bytes)

end Utf8

end PandaProxy.Python
