import PandaProxy.Python.Str

namespace PandaProxy.Python

namespace Pieces

variable {α : Type} [DecidableEq α]

def push (x : α) : List (List α) → List (List α)
  | [] => [[x]]
  | p :: ps => (x :: p) :: ps

-- What is left between one occurrence of `sep` and the next, from the left; the number counts what is still to be skipped.
def cut (sep : List α) : Nat → List α → List (List α)
  | _, [] => [[]]
  | n + 1, _ :: xs => cut sep n xs
  | 0, x :: xs => if sep <+: x :: xs then [] :: cut sep (sep.length - 1) xs else push x (cut sep 0 xs)

variable {sep old new part rest xs p : List α} {x : α} {ps : List (List α)}

theorem cut_drop (sep : List α) (n : Nat) (xs : List α) : cut sep n xs = cut sep 0 (xs.drop n) := by
  induction n generalizing xs with
  | zero => rfl
  | succ n ih =>
      cases xs with
      | nil => rfl
      | cons x xs => exact ih xs

theorem cut_found (h : sep <+: x :: xs) : cut sep 0 (x :: xs) = [] :: cut sep 0 (xs.drop (sep.length - 1)) := by
  rw [cut, if_pos h, cut_drop]

theorem cut_push (h : ¬ sep <+: x :: xs) : cut sep 0 (x :: xs) = push x (cut sep 0 xs) := by
  rw [cut, if_neg h]

theorem cut_sep (hsep : sep ≠ []) (xs : List α) : cut sep 0 (sep ++ xs) = [] :: cut sep 0 xs := by
  obtain ⟨c, sep, rfl⟩ := List.exists_cons_of_ne_nil hsep
  rw [List.cons_append, cut_found ⟨xs, rfl⟩]
  simp

theorem cut_part (hsep : sep ≠ []) (hpart : ∀ q, q ≠ [] → q <:+ part → ¬ sep <+: q ++ sep) (rest : List α) :
    cut sep 0 (part ++ (sep ++ rest)) = part :: cut sep 0 rest := by
  induction part with
  | nil => exact cut_sep hsep rest
  | cons x part ih =>
      have hnot : ¬ sep <+: x :: (part ++ (sep ++ rest)) := by
        intro h
        refine hpart (x :: part) (by simp) (List.suffix_refl _) ?_
        exact List.prefix_of_prefix_length_le h ⟨rest, by simp⟩ (by simp; omega)
      rw [List.cons_append, cut_push hnot, ih fun q hq hsuffix => hpart q hq (hsuffix.trans (List.suffix_cons x part)), push]

theorem cut_intercalate (hsep : sep ≠ []) (hne : ps ≠ []) (hparts : ∀ p ∈ ps, ∀ q, q ≠ [] → q <:+ p → ¬ sep <+: q ++ sep) (rest : List α) :
    cut sep 0 (sep.intercalate ps ++ (sep ++ rest)) = ps ++ cut sep 0 rest := by
  induction ps with
  | nil => exact absurd rfl hne
  | cons p ps ih =>
      have hpart := hparts p List.mem_cons_self
      cases ps with
      | nil => rw [List.intercalate_singleton, cut_part hsep hpart, List.singleton_append]
      | cons q ps =>
          rw [List.intercalate_cons_cons, List.append_assoc, List.append_assoc, cut_part hsep hpart,
            ih (by simp) fun p' hp' => hparts p' (List.mem_cons_of_mem p hp')]
          rfl

omit [DecidableEq α] in
theorem mem_push (h : p ∈ push x ps) : p ∈ ps ∨ p = [x] ∨ ∃ q, ps.head? = some q ∧ p = x :: q := by
  cases ps with
  | nil => exact .inr (.inl (List.mem_singleton.mp h))
  | cons q ps =>
      rcases List.mem_cons.mp h with rfl | h
      · exact .inr (.inr ⟨q, rfl, rfl⟩)
      · exact .inl (List.mem_cons_of_mem q h)

theorem head_cut (h : (cut sep 0 xs).head? = some p) : p <+: xs := by
  induction xs generalizing p with
  | nil =>
      cases h
      exact List.nil_prefix
  | cons x xs ih =>
      by_cases hsep : sep <+: x :: xs
      · rw [cut_found hsep] at h
        cases h
        exact List.nil_prefix
      · rw [cut_push hsep] at h
        cases hcut : cut sep 0 xs with
        | nil =>
            rw [hcut] at h
            cases h
            exact List.prefix_append [x] xs
        | cons q ps =>
            rw [hcut] at h ih
            cases h
            exact (List.prefix_cons_inj x).mpr (ih rfl)

theorem cut_free (hsep : sep ≠ []) (n : Nat) (h : p ∈ cut sep n xs) : ¬ sep <:+: p := by
  induction xs generalizing n p with
  | nil =>
      cases n <;>
      · rw [cut, List.mem_singleton] at h
        subst h
        exact fun hwithin => hsep (List.infix_nil.mp hwithin)
  | cons x xs ih =>
      cases n with
      | succ n => exact ih n h
      | zero =>
          rw [cut] at h
          split at h
          · rcases List.mem_cons.mp h with rfl | h
            · exact fun hwithin => hsep (List.infix_nil.mp hwithin)
            · exact ih _ h
          · next hnot =>
              rcases mem_push h with h | rfl | ⟨q, hq, rfl⟩
              · exact ih 0 h
              · intro hwithin
                rcases List.infix_cons_iff.mp hwithin with hstart | hwithin
                · exact hnot (hstart.trans (List.prefix_append [x] xs))
                · exact hsep (List.infix_nil.mp hwithin)
              · intro hwithin
                rcases List.infix_cons_iff.mp hwithin with hstart | hwithin
                · exact hnot (hstart.trans ((List.prefix_cons_inj x).mpr (head_cut hq)))
                · exact ih 0 (List.mem_of_mem_head? hq) hwithin

end Pieces

namespace Chars

theorem strip_strip (p : Char → Bool) (cs : List Char) : strip p (strip p cs) = strip p cs := by
  rw [strip_eq_self_iff]
  refine ⟨fun c hc => ?_, fun c hc => ?_⟩
  · have hstart := List.rdropWhile_prefix p (cs.dropWhile p)
    have hhead : (cs.dropWhile p).head? = some c := by
      obtain ⟨rest, hrest⟩ := hstart
      rw [← hrest, List.head?_append]
      rw [strip] at hc
      rw [Option.mem_def.mp hc]
      rfl
    have hnot := List.head?_dropWhile_not p cs
    rw [hhead] at hnot
    simpa using hnot
  · rw [strip] at hc
    have hne : List.rdropWhile p (cs.dropWhile p) ≠ [] := by
      intro hnil
      rw [hnil] at hc
      cases hc
    have hlast := List.rdropWhile_last_not p (cs.dropWhile p) hne
    rw [List.getLast?_eq_some_getLast hne] at hc
    cases hc
    simpa using hlast

end Chars

end PandaProxy.Python
