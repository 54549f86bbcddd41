import PandaProxy.Python.Bytes
import PandaProxy.Python.Str

namespace PandaProxy.Python

namespace Utf8

variable {p : Partial} {b : UInt8} {bytes rest : List UInt8}

theorem toNat_ofNat {v : Nat} (h : v.isValidChar) : (Char.ofNat v).toNat = v := by
  rw [Char.ofNat, dif_pos h]
  rfl

def Scalar (v : Nat) : Prop := 0x80 ≤ v ∧ v.isValidChar

def Partial.Closes : Nat → Nat → Nat → Nat → Prop
  | 0, _, _, _ => False
  | 1, bits, low, high => ∀ n, low ≤ n → n ≤ high → Scalar (bits * 64 + (n - 0x80))
  | missing + 2, bits, low, high =>
      ∀ n, low ≤ n → n ≤ high → Closes (missing + 1) (bits * 64 + (n - 0x80)) 0x80 0xBF

structure Partial.Sound (p : Partial) : Prop where
  low : 0x80 ≤ p.low
  closes : Partial.Closes p.missing p.bits p.low p.high

theorem lead_sound {n : Nat} (h : lead n = some p) : p.Sound := by
  unfold lead at h
  repeat' split at h
  all_goals simp only [Option.some.injEq, reduceCtorEq] at h
  all_goals
    subst h
    refine ⟨by simp, ?_⟩
    simp only [Partial.Closes, Scalar, Nat.isValidChar]
    intros
    omega

theorem Partial.Sound.more {bits low high k n : Nat} (h : Partial.Sound ⟨bits, k + 2, low, high⟩) (hlow : low ≤ n)
    (hhigh : n ≤ high) : Partial.Sound ⟨bits * 64 + (n - 0x80), k + 1, 0x80, 0xBF⟩ :=
  ⟨le_rfl, h.closes n hlow hhigh⟩

theorem Partial.Sound.last {bits low high n : Nat} (h : Partial.Sound ⟨bits, 1, low, high⟩) (hlow : low ≤ n)
    (hhigh : n ≤ high) : Scalar (bits * 64 + (n - 0x80)) :=
  h.closes n hlow hhigh

theorem decodeFrom_ascii (hb : b.toNat < 0x80) : decodeFrom none (b :: rest) = Char.ofNat b.toNat :: decodeFrom none rest := by
  simp [decodeFrom, first, hb]

theorem decodeFrom_broken (hp : p.Sound) (hb : b.toNat < 0x80) :
    decodeFrom (some p) (b :: rest) = replacement :: Char.ofNat b.toNat :: decodeFrom none rest := by
  have hlow := hp.low
  simp [decodeFrom, next, first, hb, show ¬ p.low ≤ b.toNat by omega]

theorem decodeFrom_lead (h : lead b.toNat = some p) (hb : ¬ b.toNat < 0x80) :
    decodeFrom none (b :: rest) = decodeFrom (some p) rest := by
  simp [decodeFrom, first, hb, h]

theorem decodeFrom_more {bits low high k : Nat} (hlow : low ≤ b.toNat) (hhigh : b.toNat ≤ high) :
    decodeFrom (some ⟨bits, k + 2, low, high⟩) (b :: rest) =
      decodeFrom (some ⟨bits * 64 + (b.toNat - 0x80), k + 1, 0x80, 0xBF⟩) rest := by
  simp [decodeFrom, next, hlow, hhigh]

theorem decodeFrom_last {bits low high : Nat} (hlow : low ≤ b.toNat) (hhigh : b.toNat ≤ high) :
    decodeFrom (some ⟨bits, 1, low, high⟩) (b :: rest) = Char.ofNat (bits * 64 + (b.toNat - 0x80)) :: decodeFrom none rest := by
  simp [decodeFrom, next, hlow, hhigh]

def Beyond (cs : List Char) : Prop := ∀ c ∈ cs.head?, 0x80 ≤ c.toNat

theorem beyond_replacement (cs : List Char) : Beyond (replacement :: cs) := by
  rintro c ⟨⟩
  decide

theorem decodeFrom_beyond (hp : p.Sound) (bytes : List UInt8) : Beyond (decodeFrom (some p) bytes) := by
  induction bytes generalizing p with
  | nil => exact beyond_replacement []
  | cons b rest ih =>
      by_cases hin : p.low ≤ b.toNat ∧ b.toNat ≤ p.high
      · obtain ⟨bits, missing, low, high⟩ := p
        match missing with
        | 0 => exact hp.closes.elim
        | 1 =>
            obtain ⟨hbeyond, hvalid⟩ := hp.last hin.1 hin.2
            rw [decodeFrom_last hin.1 hin.2]
            intro c hc
            rw [List.head?_cons, Option.mem_some] at hc
            rw [← hc, toNat_ofNat hvalid]
            exact hbeyond
        | k + 2 =>
            rw [decodeFrom_more hin.1 hin.2]
            exact ih (hp.more hin.1 hin.2)
      · have hreplaced : ∃ cs, decodeFrom (some p) (b :: rest) = replacement :: cs := by
          simp only [decodeFrom, next, if_neg hin]
          exact ⟨_, rfl⟩
        obtain ⟨cs, hcs⟩ := hreplaced
        rw [hcs]
        exact beyond_replacement cs

theorem decodeFrom_cons_beyond (hb : ¬ b.toNat < 0x80) (rest : List UInt8) : Beyond (decodeFrom none (b :: rest)) := by
  cases hlead : lead b.toNat with
  | none =>
      have hreplaced : decodeFrom none (b :: rest) = replacement :: decodeFrom none rest := by
        simp [decodeFrom, first, hb, hlead]
      rw [hreplaced]
      exact beyond_replacement _
  | some p =>
      rw [decodeFrom_lead hlead hb]
      exact decodeFrom_beyond (lead_sound hlead) rest

theorem first_sound (n : Nat) : ∀ p ∈ (first n).2, p.Sound := by
  unfold first
  split
  · nofun
  · split
    · next p hp =>
        rintro _ ⟨⟩
        exact lead_sound hp
    · nofun

theorem next_sound (hp : p.Sound) (n : Nat) : ∀ p' ∈ (next p n).2, p'.Sound := by
  unfold next
  split
  · next hin =>
      split
      · nofun
      · next hmissing =>
          obtain ⟨bits, missing, low, high⟩ := p
          simp only [Option.mem_some_iff, forall_eq']
          match missing, hmissing with
          | 0, _ => exact hp.closes.elim
          | k + 2, _ => exact hp.more hin.1 hin.2
  · exact first_sound n

theorem decodeFrom_cons {q : Option Partial} (hq : ∀ p ∈ q, p.Sound) (b : UInt8) : ∃ cs q', (∀ p ∈ q', p.Sound) ∧
    ∀ rest, decodeFrom q (b :: rest) = cs ++ decodeFrom q' rest := by
  cases q with
  | none => exact ⟨_, _, first_sound b.toNat, fun _ => rfl⟩
  | some p => exact ⟨_, _, next_sound (hq p rfl) b.toNat, fun _ => rfl⟩

theorem decodeFrom_append (hb : b.toNat < 0x80) (bytes rest : List UInt8) {q : Option Partial} (hq : ∀ p ∈ q, p.Sound) :
    decodeFrom q (bytes ++ b :: rest) = decodeFrom q (bytes ++ [b]) ++ decodeFrom none rest := by
  induction bytes generalizing q with
  | nil =>
      cases q with
      | none => simp [decodeFrom_ascii hb, decodeFrom]
      | some p => simp [decodeFrom_broken (hq p rfl) hb, decodeFrom]
  | cons a bytes ih =>
      obtain ⟨cs, q', hq', hcons⟩ := decodeFrom_cons hq a
      rw [List.cons_append, List.cons_append, hcons, hcons, ih hq', List.append_assoc]

theorem lead_two {v : Nat} (hlow : 0x80 ≤ v) (hhigh : v ≤ 0x7FF) :
    lead (v / 64 % 0x20 + 0xC0) = some ⟨v / 64, 1, 0x80, 0xBF⟩ := by
  have hbits : v / 64 % 0x20 + 0xC0 - 0xC0 = v / 64 := by omega
  rw [lead, if_pos (by omega), hbits]

theorem lead_three {v : Nat} (hlow : 0x800 ≤ v) (hhigh : v ≤ 0xFFFF) (hvalid : v < 0xD800 ∨ 0xDFFF < v) :
    ∃ low high, lead (v / 4096 % 0x10 + 0xE0) = some ⟨v / 4096, 2, low, high⟩ ∧
      low ≤ v / 64 % 0x40 + 0x80 ∧ v / 64 % 0x40 + 0x80 ≤ high := by
  have hbits : v / 4096 % 0x10 + 0xE0 - 0xE0 = v / 4096 := by omega
  unfold lead
  rw [if_neg (by omega)]
  by_cases h0 : v / 4096 = 0
  · exact ⟨0xA0, 0xBF, by simp [h0], by omega, by omega⟩
  by_cases hd : v / 4096 = 0xD
  · exact ⟨0x80, 0x9F, by simp [hd], by omega, by omega⟩
  · refine ⟨0x80, 0xBF, ?_, by omega, by omega⟩
    rw [if_neg (by omega), if_neg (by omega), if_pos (by omega), hbits]

theorem lead_four {v : Nat} (hlow : 0x10000 ≤ v) (hhigh : v < 0x110000) :
    ∃ low high, lead (v / 262144 % 0x08 + 0xF0) = some ⟨v / 262144, 3, low, high⟩ ∧
      low ≤ v / 4096 % 0x40 + 0x80 ∧ v / 4096 % 0x40 + 0x80 ≤ high := by
  have hbits : v / 262144 % 0x08 + 0xF0 - 0xF0 = v / 262144 := by omega
  unfold lead
  rw [if_neg (by omega), if_neg (by omega), if_neg (by omega), if_neg (by omega)]
  by_cases h0 : v / 262144 = 0
  · exact ⟨0x90, 0xBF, by simp [h0], by omega, by omega⟩
  by_cases h4 : v / 262144 = 4
  · exact ⟨0x80, 0x8F, by simp [h4], by omega, by omega⟩
  · refine ⟨0x80, 0xBF, ?_, by omega, by omega⟩
    rw [if_neg (by omega), if_pos (by omega), hbits]

theorem toNat_byte {n : Nat} (h : n < 256) : (UInt8.ofNat n).toNat = n := by
  rw [UInt8.toNat_ofNat', Nat.mod_eq_of_lt h]

theorem decodeFrom_encodeChar (c : Char) (rest : List UInt8) :
    decodeFrom none (String.utf8EncodeChar c ++ rest) = c :: decodeFrom none rest := by
  have hvalid : c.toNat < 0xD800 ∨ 0xDFFF < c.toNat ∧ c.toNat < 0x110000 := c.valid
  have hback : ∀ {v : Nat}, v = c.toNat → Char.ofNat v = c := by
    rintro _ rfl
    exact c.ofNat_toNat
  simp only [String.utf8EncodeChar, show c.val.toNat = c.toNat from rfl]
  generalize c.toNat = v at hvalid hback
  split
  · next h1 =>
      have hb := toNat_byte (n := v) (by omega)
      rw [List.cons_append, List.nil_append, decodeFrom_ascii (by omega), hb, hback rfl]
  split
  · next h1 h2 =>
      have hb₁ := toNat_byte (n := v / 64 % 0x20 + 0xC0) (by omega)
      have hb₂ := toNat_byte (n := v % 0x40 + 0x80) (by omega)
      have hlead := lead_two (v := v) (by omega) h2
      rw [← hb₁] at hlead
      rw [List.cons_append, List.cons_append, List.nil_append, decodeFrom_lead hlead (by omega),
        decodeFrom_last (by omega) (by omega), hb₂, hback (by omega)]
  split
  · next h1 h2 h3 =>
      have hb₁ := toNat_byte (n := v / 4096 % 0x10 + 0xE0) (by omega)
      have hb₂ := toNat_byte (n := v / 64 % 0x40 + 0x80) (by omega)
      have hb₃ := toNat_byte (n := v % 0x40 + 0x80) (by omega)
      obtain ⟨low, high, hlead, hlow, hhigh⟩ := lead_three (v := v) (by omega) h3 (by omega)
      rw [← hb₁] at hlead
      rw [List.cons_append, List.cons_append, List.cons_append, List.nil_append, decodeFrom_lead hlead (by omega),
        decodeFrom_more (by omega) (by omega), decodeFrom_last (by omega) (by omega), hb₂, hb₃, hback (by omega)]
  · next h1 h2 h3 =>
      have hb₁ := toNat_byte (n := v / 262144 % 0x08 + 0xF0) (by omega)
      have hb₂ := toNat_byte (n := v / 4096 % 0x40 + 0x80) (by omega)
      have hb₃ := toNat_byte (n := v / 64 % 0x40 + 0x80) (by omega)
      have hb₄ := toNat_byte (n := v % 0x40 + 0x80) (by omega)
      obtain ⟨low, high, hlead, hlow, hhigh⟩ := lead_four (v := v) (by omega) (by omega)
      rw [← hb₁] at hlead
      rw [List.cons_append, List.cons_append, List.cons_append, List.cons_append, List.nil_append,
        decodeFrom_lead hlead (by omega), decodeFrom_more (by omega) (by omega), decodeFrom_more (by omega) (by omega),
        decodeFrom_last (by omega) (by omega), hb₂, hb₃, hb₄, hback (by omega)]

theorem encode_eq (s : String) : encode s = s.toList.flatMap String.utf8EncodeChar := by
  rw [encode, ← String.utf8Encode_toList, List.utf8Encode, List.data_toByteArray]

theorem encode_append (s s' : String) : encode (s ++ s') = encode s ++ encode s' := by
  simp only [encode_eq, String.toList_append, List.flatMap_append]

theorem decodeFrom_encode (s : String) (rest : List UInt8) :
    decodeFrom none (encode s ++ rest) = s.toList ++ decodeFrom none rest := by
  rw [encode_eq]
  induction s.toList with
  | nil => rfl
  | cons c cs ih => rw [List.flatMap_cons, List.append_assoc, decodeFrom_encodeChar, ih, List.cons_append]

theorem decode_encode (s : String) : decode (encode s) = s := by
  rw [decode, ← List.append_nil (encode s), decodeFrom_encode]
  simp [decodeFrom]

theorem encode_decode_iff {bytes : List UInt8} : encode (decode bytes) = bytes ↔ ∃ s, bytes = encode s := by
  constructor
  · intro h
    exact ⟨_, h.symm⟩
  · rintro ⟨s, rfl⟩
    rw [decode_encode]

theorem byte_of_char {a b : UInt8} (h : Char.ofNat a.toNat = Char.ofNat b.toNat) (ha : a.toNat < 0x80) (hb : b.toNat < 0x80) :
    a = b := by
  have hnat := congrArg Char.toNat h
  rw [toNat_ofNat (.inl (by omega)), toNat_ofNat (.inl (by omega))] at hnat
  exact UInt8.toNat_inj.mp hnat

def asciiChars (bytes : List UInt8) : List Char := bytes.map fun b => Char.ofNat b.toNat

def Ascii (bytes : List UInt8) : Prop := ∀ b ∈ bytes, b.toNat < 0x80

theorem decodeFrom_asciiChars {pre : List UInt8} (hpre : Ascii pre) (rest : List UInt8) :
    decodeFrom none (pre ++ rest) = asciiChars pre ++ decodeFrom none rest := by
  induction pre with
  | nil => rfl
  | cons b pre ih =>
      rw [List.cons_append, decodeFrom_ascii (hpre b List.mem_cons_self), ih fun b hb => hpre b (List.mem_cons_of_mem _ hb)]
      rfl

theorem asciiChars_prefix_iff {pre bytes : List UInt8} (hpre : Ascii pre) :
    asciiChars pre <+: decodeFrom none bytes ↔ pre <+: bytes := by
  induction pre generalizing bytes with
  | nil => exact iff_of_true List.nil_prefix List.nil_prefix
  | cons a pre ih =>
      have ha := hpre a List.mem_cons_self
      have hrest : Ascii pre := fun b hb => hpre b (List.mem_cons_of_mem _ hb)
      cases bytes with
      | nil => simp [asciiChars, decodeFrom]
      | cons b bytes =>
          by_cases hb : b.toNat < 0x80
          · rw [decodeFrom_ascii hb, asciiChars, List.map_cons, List.cons_prefix_cons, List.cons_prefix_cons, ← asciiChars,
              ih hrest]
            exact and_congr_left fun _ => ⟨fun h => byte_of_char h ha hb, fun h => by rw [h]⟩
          · have hbeyond := decodeFrom_cons_beyond hb bytes
            refine iff_of_false ?_ ?_
            · rintro ⟨cs, hcs⟩
              rw [← hcs] at hbeyond
              have hhead := hbeyond (Char.ofNat a.toNat) rfl
              rw [toNat_ofNat (.inl (by omega))] at hhead
              omega
            · intro h
              rw [(List.cons_prefix_cons.mp h).1] at ha
              exact hb ha

end Utf8

end PandaProxy.Python
