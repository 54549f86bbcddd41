import Mathlib.Algebra.Group.Nat.Defs
import PandaProxy.Python.Str

namespace PandaProxy.Python

namespace Int

variable {n : Nat} {c : Char} {cs : List Char}

theorem toNat_of_isDigit (h : c.isDigit = true) : 0x30 ≤ c.toNat ∧ c.toNat < 0x3a := by
  have hbounds := Char.isDigit_iff_toNat.mp h
  exact ⟨hbounds.1, Nat.lt_succ_of_le hbounds.2⟩

theorem decimalValue_of_isDigit (h : c.isDigit = true) : decimalValue c = some (c.toNat - '0'.toNat) := by
  obtain ⟨hlow, hhigh⟩ := toNat_of_isDigit h
  simp [decimalValue, decimalZeros, hlow, hhigh]

theorem isSpace_of_isDigit (h : c.isDigit = true) : isSpace c = false ∧ isBlank c = false := by
  obtain ⟨hlow, hhigh⟩ := toNat_of_isDigit h
  constructor
  · simp only [isSpace, Bool.or_eq_false_iff, Bool.and_eq_false_iff, decide_eq_false_iff_not, beq_eq_false_iff_ne]
    omega
  · simp only [isBlank, Bool.or_eq_false_iff, Bool.and_eq_false_iff, decide_eq_false_iff_not, beq_eq_false_iff_ne]
    omega

theorem digits_cons (h : c.isDigit = true) (acc : Option (Nat × Nat)) : digits acc (c :: cs) =
    digits (some (acc.elim (c.toNat - '0'.toNat, 1) fun p => (10 * p.1 + (c.toNat - '0'.toNat), p.2 + 1))) cs := by
  rw [digits, decimalValue_of_isDigit h]
  · cases acc with
    | none => rfl
    | some p => rfl
  · rintro d rest rfl
    exact absurd h (by decide)

theorem digits_run (h : ∀ c ∈ cs, c.isDigit = true) (value count : Nat) :
    digits (some (value, count)) cs = some (Nat.ofDigitChars 10 cs value, count + cs.length) := by
  induction cs generalizing value count with
  | nil => rfl
  | cons c cs ih =>
      rw [digits_cons (h c List.mem_cons_self), Option.elim_some, ih fun d hd => h d (List.mem_cons_of_mem _ hd)]
      rw [Nat.ofDigitChars_cons, List.length_cons, Nat.add_assoc, Nat.add_comm 1]

theorem digits_none (h : ∀ c ∈ cs, c.isDigit = true) (hne : cs ≠ []) :
    digits none cs = some (Nat.ofDigitChars 10 cs 0, cs.length) := by
  cases cs with
  | nil => exact absurd rfl hne
  | cons c cs =>
      rw [digits_cons (h c List.mem_cons_self), Option.elim_none, digits_run fun d hd => h d (List.mem_cons_of_mem _ hd)]
      rw [Nat.ofDigitChars_cons, List.length_cons, Nat.mul_zero, Nat.zero_add, Nat.add_comm]

theorem isDigit_of_mem_repr (h : c ∈ n.repr.toList) : c.isDigit = true := by
  rw [Nat.toList_repr] at h
  exact Nat.isDigit_of_mem_toDigits (by decide) (by decide) h

theorem magnitude_repr (h : n < 10 ^ maxDigits) : magnitude n.repr.toList = some n := by
  have hlength : (Nat.toDigits 10 n).length ≤ maxDigits := (Nat.length_toDigits_le_iff (by decide) (by decide)).mpr h
  rw [magnitude, digits_none (fun c hc => isDigit_of_mem_repr hc) (by simp), Nat.toList_repr, Nat.ofDigitChars_ten_toDigits]
  exact if_pos hlength

theorem strip_repr {p : Char → Bool} (h : ∀ c : Char, c.isDigit = true → p c = false) :
    Chars.strip p n.repr.toList = n.repr.toList := by
  refine Chars.strip_eq_self_iff.mpr ⟨fun c hc => ?_, fun c hc => ?_⟩
  · exact h c (isDigit_of_mem_repr (List.mem_of_head? hc))
  · exact h c (isDigit_of_mem_repr (List.mem_of_getLast? hc))

theorem lt_maxDigits (h : n < 10 ^ 5) : n < 10 ^ maxDigits :=
  Nat.lt_of_lt_of_le h (Nat.pow_le_pow_right (by decide) (by decide))

theorem parse_repr (h : n < 10 ^ maxDigits) : parse n.repr = some (n : Int) := by
  have hsign : ∀ c cs, n.repr.toList = c :: cs → c.isDigit = true := by
    intro c cs hcs
    exact isDigit_of_mem_repr (n := n) (hcs ▸ List.mem_cons_self)
  unfold parse
  rw [strip_repr fun c hc => (isSpace_of_isDigit hc).2]
  split
  · next cs hcs => exact absurd (hsign '-' cs hcs) (by decide)
  · next cs hcs => exact absurd (hsign '+' cs hcs) (by decide)
  · rw [magnitude_repr h]
    rfl

end Int

theorem Str.strip_repr (n : Nat) : Str.strip n.repr = n.repr := by
  rw [Str.strip, Int.strip_repr fun c hc => (Int.isSpace_of_isDigit hc).1, String.ofList_toList]

end PandaProxy.Python
