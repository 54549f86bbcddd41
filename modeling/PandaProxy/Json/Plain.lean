import Mathlib.Data.List.TakeWhile
import Mathlib.Data.Nat.Digits.Lemmas
import PandaProxy.Json.Strings

namespace PandaProxy.Json

-- A `json` module for what is in UTF-8, in which a `float` is written as its bits.
namespace Plain

def blank (c : Nat) : Bool := c == 32 || c == 9 || c == 10 || c == 13

def skip (s : List Nat) : List Nat := s.dropWhile blank

def isDigit (c : Nat) : Bool := decide ('0'.toNat ≤ c ∧ c ≤ '9'.toNat)

def printNat (n : Nat) : List Nat := if n = 0 then ['0'.toNat] else ((Nat.digits 10 n).map fun d => '0'.toNat + d).reverse

def valueOf (digits : List Nat) : Nat := digits.foldl (fun n c => 10 * n + (c - '0'.toNat)) 0

-- `int` converts no more than `digitLimit` digits.
def readNat : Reader Nat
  | [] => malformed
  | c :: rest =>
      if c = '0'.toNat then .ok (0, rest)
      else if isDigit c then
        let digits := c :: rest.takeWhile isDigit
        if digits.length ≤ digitLimit then .ok (valueOf digits, rest.dropWhile isDigit) else .error .valueError
      else malformed

def word : Value → List Nat
  | .null => codes "null"
  | .bool true => codes "true"
  | .bool false => codes "false"
  | _ => []

mutual

def print : Value → List Nat
  | .null => word .null
  | .bool b => word (.bool b)
  | .int n => if n < 0 then '-'.toNat :: printNat n.natAbs else printNat n.natAbs
  | .float bits => 'F'.toNat :: printNat bits.toNat
  | .str s => '"'.toNat :: printText s.codes
  | .list [] => codes "[]"
  | .list (v :: items) => '['.toNat :: print v ++ printItems items
  | .dict [] => codes "\x7b\x7d"
  | .dict ((key, v) :: entries) =>
      '\x7b'.toNat :: '"'.toNat :: printText key.codes ++ ':'.toNat :: print v ++ printEntries entries

def printItems : List Value → List Nat
  | [] => [']'.toNat]
  | v :: items => ','.toNat :: print v ++ printItems items

def printEntries : List (Text × Value) → List Nat
  | [] => ['\x7d'.toNat]
  | (key, v) :: entries => ','.toNat :: '"'.toNat :: printText key.codes ++ ':'.toNat :: print v ++ printEntries entries

end

def expect (c : Nat) : Reader Unit := fun s =>
  match skip s with
  | [] => malformed
  | d :: rest => if d = c then .ok ((), rest) else malformed

-- The rest of a container, which has fewer elements than there are code points.
def readMore {α : Type} (last : Nat) (element : Reader α) : Nat → Reader (List α)
  | 0, _ => malformed
  | fuel + 1, s =>
      match skip s with
      | [] => malformed
      | c :: rest =>
          if c = last then .ok ([], rest)
          else if c = ','.toNat then do
            let (v, s) ← element rest
            let (items, s) ← readMore last element fuel s
            .ok (v :: items, s)
          else malformed

def readAll {α : Type} (last : Nat) (element : Reader α) : Reader (List α) := fun s =>
  match skip s with
  | [] => malformed
  | c :: rest =>
      if c = last then .ok ([], rest)
      else do
        let (v, s) ← element (c :: rest)
        let (items, s) ← readMore last element s.length s
        .ok (v :: items, s)

def readEntry (inner : Reader Value) : Reader (Text × Value) := fun s => do
  let (_, s) ← expect '"'.toNat s
  let (key, s) ← readString s
  let (_, s) ← expect ':'.toNat s
  let (v, s) ← inner s
  .ok ((key, v), s)

-- A key that comes again gets its last value.
def ofPairs (pairs : List (Text × Value)) : Document := pairs.foldl (fun d p => Python.Dict.set d p.1 p.2) []

def readList (inner : Reader Value) : Reader Value := fun s => do
  let (items, s) ← readAll ']'.toNat inner s
  .ok (.list items, s)

def readDict (inner : Reader Value) : Reader Value := fun s => do
  let (pairs, s) ← readAll '\x7d'.toNat (readEntry inner) s
  .ok (.dict (ofPairs pairs), s)

def readFloat : Reader Value := fun s => do
  let (n, s) ← readNat s
  let bits := UInt64.ofNat n
  if Double.Canonical bits then .ok (.float bits, s) else malformed

def readWord (v : Value) : Reader Value := fun s =>
  if (word v).isPrefixOf s then .ok (v, s.drop (word v).length) else malformed

def readScalar : Reader Value
  | [] => malformed
  | c :: rest =>
      if c = '"'.toNat then do
        let (s, rest) ← readString rest
        .ok (.str s, rest)
      else if c = 'n'.toNat then readWord .null (c :: rest)
      else if c = 't'.toNat then readWord (.bool true) (c :: rest)
      else if c = 'f'.toNat then readWord (.bool false) (c :: rest)
      else if c = 'F'.toNat then readFloat rest
      else if c = '-'.toNat then do
        let (n, rest) ← readNat rest
        .ok (.int (-n), rest)
      else do
        let (n, rest) ← readNat (c :: rest)
        .ok (.int n, rest)

def readValue (list dict : Reader Value) : Reader Value := fun s =>
  match skip s with
  | [] => malformed
  | c :: rest =>
      if c = '['.toNat then list rest
      else if c = '\x7b'.toNat then dict rest
      else readScalar (c :: rest)

def tooDeep : Reader Value := fun _ => .error .recursionError

def read : Nat → Reader Value
  | 0 => readValue tooDeep tooDeep
  | depth + 1 => readValue (readList (read depth)) (readDict (read depth))

def nesting : Nat := 1000

def loads (payload : List UInt8) : Except PayloadError Value :=
  match decode payload with
  | none => .error .unicodeDecodeError
  | some s => do
      let (v, rest) ← read nesting s
      if skip rest = [] then .ok v else malformed

def dumps (v : Value) : List UInt8 := (print v).map UInt8.ofNat

-- `deep_merge` and `copy.deepcopy` have one call open for each object on the way, or two for each container.
def frames : Recursion → Nat := fun _ => 950

example : print (.dict [(text "a", .list [.int (-12), .null]), (text "\n", .bool true)]) =
    codes "\x7b\"a\":[-12,null],\"\\n\":true\x7d" := by decide +kernel

section

variable {c n : Nat} {rest s : List Nat}

theorem skip_cons (h : blank c = false) (s : List Nat) : skip (c :: s) = c :: s :=
  List.dropWhile_cons_of_neg (by simp [h])

theorem expect_self (h : blank c = false) (s : List Nat) : expect c (c :: s) = .ok ((), s) := by
  simp only [expect, skip_cons h, if_true]

def Stops (rest : List Nat) : Prop := ∀ c ∈ rest.head?, c = ','.toNat ∨ c = ']'.toNat ∨ c = '\x7d'.toNat

theorem Stops.not_digit (h : Stops rest) : ∀ c ∈ rest.head?, isDigit c = false := by
  intro c hc
  rcases h c hc with rfl | rfl | rfl <;> rfl

theorem printNat_digits (n : Nat) : ∀ c ∈ printNat n, isDigit c = true := by
  intro c hc
  unfold printNat at hc
  split at hc
  · rw [List.mem_singleton.mp hc]
    rfl
  · obtain ⟨d, hd, rfl⟩ := List.mem_map.mp (List.mem_reverse.mp hc)
    have hten : d < 10 := Nat.digits_lt_base (by decide) hd
    exact decide_eq_true ⟨Nat.le_add_right _ _, show 48 + d ≤ 57 by omega⟩

theorem valueOf_printNat (hn : n ≠ 0) : valueOf (printNat n) = n := by
  have hdigits : ∀ l : List Nat, (l.map fun d => '0'.toNat + d).foldr (fun c n => 10 * n + (c - '0'.toNat)) 0 =
      Nat.ofDigits 10 l := by
    intro l
    induction l with
    | nil => rfl
    | cons d l ih => rw [List.map_cons, List.foldr_cons, ih, Nat.add_sub_cancel_left, Nat.ofDigits_cons, Nat.add_comm]
  rw [printNat, if_neg hn, valueOf, List.foldl_reverse, hdigits, Nat.ofDigits_digits]

theorem printNat_length_le (hn : n ≠ 0) {k : Nat} : (printNat n).length ≤ k ↔ n < 10 ^ k := by
  rw [printNat, if_neg hn, List.length_reverse, List.length_map]
  exact Nat.digits_length_le_iff (by decide) n

theorem printNat_head (hn : n ≠ 0) : ∃ c s, printNat n = c :: s ∧ isDigit c = true ∧ c ≠ '0'.toNat := by
  have hne : Nat.digits 10 n ≠ [] := Nat.digits_ne_nil_iff_ne_zero.mpr hn
  have hlast := Nat.getLast_digit_ne_zero 10 hn
  have hsplit : printNat n = ('0'.toNat + (Nat.digits 10 n).getLast hne) ::
      ((Nat.digits 10 n).dropLast.map fun d => '0'.toNat + d).reverse := by
    rw [printNat, if_neg hn]
    conv_lhs => rw [← List.dropLast_append_getLast hne]
    rw [List.map_append, List.reverse_append]
    rfl
  refine ⟨_, _, hsplit, printNat_digits n _ (hsplit ▸ List.mem_cons_self), ?_⟩
  omega

theorem takeWhile_stops {p : Nat → Bool} (hs : ∀ c ∈ s, p c = true) (hrest : ∀ c ∈ rest.head?, p c = false) :
    (s ++ rest).takeWhile p = s ∧ (s ++ rest).dropWhile p = rest := by
  rw [List.takeWhile_append_of_pos hs, List.dropWhile_append_of_pos hs]
  cases rest with
  | nil => exact ⟨List.append_nil s, rfl⟩
  | cons c rest =>
      have hc : ¬ p c = true := by simp [hrest c rfl]
      rw [List.takeWhile_cons_of_neg hc, List.dropWhile_cons_of_neg hc, List.append_nil]
      exact ⟨rfl, rfl⟩

theorem readNat_digits (hn : n ≠ 0) (hrest : ∀ c ∈ rest.head?, isDigit c = false) :
    readNat (printNat n ++ rest) = if n < 10 ^ digitLimit then .ok (n, rest) else .error .valueError := by
  obtain ⟨c, s, hs, hdigit, hzero⟩ := printNat_head hn
  have hvalue := valueOf_printNat hn
  have hlength := printNat_length_le hn (k := digitLimit)
  have htail : ∀ d ∈ s, isDigit d = true := fun d hd => printNat_digits n d (hs ▸ List.mem_cons_of_mem _ hd)
  obtain ⟨htake, hdrop⟩ := takeWhile_stops htail hrest
  rw [hs] at hvalue hlength ⊢
  simp only [List.cons_append, readNat, if_neg hzero, hdigit, if_true, htake, hdrop, hvalue, hlength]

theorem readNat_printNat (hn : n < 10 ^ digitLimit) (hrest : ∀ c ∈ rest.head?, isDigit c = false) :
    readNat (printNat n ++ rest) = .ok (n, rest) := by
  by_cases hzero : n = 0
  · subst hzero
    rfl
  · rw [readNat_digits hzero hrest, if_pos hn]

def Opens (s : List Nat) : Prop := ∃ c rest, s = c :: rest ∧ blank c = false ∧ c ≠ ']'.toNat ∧ c ≠ '\x7d'.toNat

theorem opens_digit (h : isDigit c = true) : blank c = false ∧ c ≠ ']'.toNat ∧ c ≠ '\x7d'.toNat ∧ c ≠ '['.toNat ∧ c ≠ '\x7b'.toNat := by
  have hrange : 48 ≤ c ∧ c ≤ 57 := of_decide_eq_true h
  have hall : ∀ c ≤ 57, 48 ≤ c → blank c = false ∧ c ≠ ']'.toNat ∧ c ≠ '\x7d'.toNat ∧ c ≠ '['.toNat ∧ c ≠ '\x7b'.toNat := by decide
  exact hall c hrange.2 hrange.1

theorem printNat_cons (n : Nat) : ∃ c s, printNat n = c :: s ∧ isDigit c = true := by
  by_cases hn : n = 0
  · subst hn
    exact ⟨_, _, rfl, rfl⟩
  · obtain ⟨c, s, hs, hdigit, _⟩ := printNat_head hn
    exact ⟨c, s, hs, hdigit⟩

theorem print_opens (v : Value) : Opens (print v) := by
  cases v with
  | null => exact ⟨_, _, rfl, by decide⟩
  | bool b => cases b <;> exact ⟨_, _, rfl, by decide⟩
  | int n =>
      obtain ⟨c, s, hn, hc⟩ := printNat_cons n.natAbs
      obtain ⟨hblank, hlist, hdict, _⟩ := opens_digit hc
      rw [print]
      split
      · exact ⟨_, _, rfl, by decide⟩
      · exact ⟨c, s, hn, hblank, hlist, hdict⟩
  | float bits => exact ⟨_, _, rfl, by decide⟩
  | str s => exact ⟨_, _, rfl, by decide⟩
  | list items => cases items <;> exact ⟨_, _, rfl, by decide⟩
  | dict entries => cases entries <;> exact ⟨_, _, rfl, by decide⟩

def Reads {α : Type} (element : Reader α) (write : α → List Nat) (x : α) : Prop :=
  ∀ rest, Stops rest → element (write x ++ rest) = .ok (x, rest)

section

variable {α : Type} {last : Nat} {element : Reader α} {write : α → List Nat} {x : α} {xs : List α} {rest : List Nat}

def more (last : Nat) (write : α → List Nat) (xs : List α) : List Nat := xs.flatMap (fun x => ','.toNat :: write x) ++ [last]

def Closes (last : Nat) : Prop := last = ']'.toNat ∨ last = '\x7d'.toNat

theorem Closes.ne_comma (h : Closes last) : last ≠ ','.toNat ∧ blank last = false := by
  rcases h with rfl | rfl <;> decide

theorem more_cons : more last write (x :: xs) ++ rest = ','.toNat :: (write x ++ (more last write xs ++ rest)) := by
  simp only [more, List.flatMap_cons, List.cons_append, List.append_assoc]

theorem stops_more {write : α → List Nat} (h : Closes last) (xs : List α) (rest : List Nat) : Stops (more last write xs ++ rest) := by
  cases xs with
  | nil =>
      intro c hc
      cases hc
      exact .inr h
  | cons x xs =>
      intro c hc
      rw [more_cons] at hc
      cases hc
      exact .inl rfl

theorem more_length (xs : List α) : xs.length < (more last write xs ++ rest).length := by
  induction xs with
  | nil => exact Nat.succ_pos _
  | cons x xs ih =>
      rw [more_cons, List.length_cons, List.length_cons, List.length_append]
      omega

theorem readMore_more (h : Closes last) (hxs : ∀ x ∈ xs, Reads element write x) (rest : List Nat) {fuel : Nat}
    (hfuel : xs.length < fuel) : readMore last element fuel (more last write xs ++ rest) = .ok (xs, rest) := by
  obtain ⟨hcomma, hblank⟩ := h.ne_comma
  induction xs generalizing fuel with
  | nil =>
      cases fuel with
      | zero => cases hfuel
      | succ fuel =>
          show readMore last element (fuel + 1) (last :: rest) = _
          simp only [readMore, skip_cons hblank, if_true]
  | cons x xs ih =>
      cases fuel with
      | zero => cases hfuel
      | succ fuel =>
          have hstops : Stops (more last write xs ++ rest) := stops_more h xs rest
          have hx := hxs x List.mem_cons_self _ hstops
          have hrest := ih (fun y hy => hxs y (List.mem_cons_of_mem _ hy)) (Nat.lt_of_succ_lt_succ hfuel)
          have hskip : ∀ s, skip (','.toNat :: s) = ','.toNat :: s := skip_cons (by decide)
          rw [more_cons]
          simp only [readMore, hskip, if_neg (Ne.symm hcomma), if_true, hx, hrest, bind, Except.bind]

theorem readAll_nil (h : Closes last) : readAll last element (last :: rest) = .ok ([], rest) := by
  simp only [readAll, skip_cons h.ne_comma.2, if_true]

theorem readAll_cons (h : Closes last) (hopens : Opens (write x)) (hxs : ∀ y ∈ x :: xs, Reads element write y) :
    readAll last element (write x ++ (more last write xs ++ rest)) = .ok (x :: xs, rest) := by
  obtain ⟨c, s, hs, hblank, hlist, hdict⟩ := hopens
  have hstops : Stops (more last write xs ++ rest) := stops_more h xs rest
  have hlength : xs.length < (more last write xs ++ rest).length := more_length xs
  have hx := hxs x List.mem_cons_self _ hstops
  have hlast : c ≠ last := by
    rcases h with rfl | rfl
    · exact hlist
    · exact hdict
  have hrest := readMore_more h (fun y hy => hxs y (List.mem_cons_of_mem _ hy)) rest hlength
  rw [hs, List.cons_append] at hx ⊢
  simp only [readAll, skip_cons hblank, if_neg hlast, hx, hrest, bind, Except.bind]

end

section

variable {inner : Reader Value} {v : Value} {key : Text}

def printEntry (p : Text × Value) : List Nat := '"'.toNat :: printText p.1.codes ++ ':'.toNat :: print p.2

theorem printItems_eq (items : List Value) : printItems items = more ']'.toNat print items := by
  induction items with
  | nil => rfl
  | cons v items ih =>
      rw [printItems, ih]
      simp only [more, List.flatMap_cons, List.append_assoc]

theorem printEntries_eq (entries : List (Text × Value)) : printEntries entries = more '\x7d'.toNat printEntry entries := by
  induction entries with
  | nil => rfl
  | cons p entries ih =>
      rw [printEntries, ih]
      simp only [more, printEntry, List.flatMap_cons, List.append_assoc, List.cons_append]

theorem readEntry_print (hkey : key.Unpaired) (hv : Reads inner print v) : Reads (readEntry inner) printEntry (key, v) := by
  intro rest hrest
  have hread := readString_printText hkey (':'.toNat :: (print v ++ rest))
  have hvalue := hv rest hrest
  have hquote : ∀ s, expect '"'.toNat ('"'.toNat :: s) = .ok ((), s) := expect_self (by decide)
  have hcolon : ∀ s, expect ':'.toNat (':'.toNat :: s) = .ok ((), s) := expect_self (by decide)
  simp only [printEntry, readEntry, List.cons_append, List.append_assoc, hquote, hread, hcolon, hvalue, bind, Except.bind]

theorem readList_print {items : List Value} (h : ∀ v ∈ items, Reads inner print v) :
    ∃ s, print (.list items) = '['.toNat :: s ∧ ∀ rest, readList inner (s ++ rest) = .ok (.list items, rest) := by
  cases items with
  | nil =>
      refine ⟨_, rfl, fun rest => ?_⟩
      have hread : readAll ']'.toNat inner (']'.toNat :: rest) = .ok ([], rest) := readAll_nil (.inl rfl)
      exact congrArg (fun r => r >>= fun p => .ok (Value.list p.1, p.2)) hread
  | cons v items =>
      have hprint : print (.list (v :: items)) = '['.toNat :: (print v ++ more ']'.toNat print items) := by
        rw [print, printItems_eq, List.cons_append]
      refine ⟨_, hprint, fun rest => ?_⟩
      rw [List.append_assoc, readList, readAll_cons (.inl rfl) (print_opens v) h]
      rfl

theorem foldl_set {entries : List (Text × Value)} (d : Document) (h : ((d ++ entries).map Prod.fst).Nodup) :
    entries.foldl (fun d p => Python.Dict.set d p.1 p.2) d = d ++ entries := by
  induction entries generalizing d with
  | nil => exact (List.append_nil d).symm
  | cons p entries ih =>
      have hfresh : ∀ q ∈ d, q.1 ≠ p.1 := by
        intro q hq he
        rw [List.map_append, List.nodup_append] at h
        exact h.2.2 q.1 (List.mem_map_of_mem hq) p.1 (List.mem_map_of_mem List.mem_cons_self) he
      rw [List.foldl_cons, Python.Dict.set_fresh hfresh, ih _ (by rwa [List.append_assoc]), List.append_assoc]
      rfl

theorem ofPairs_nodup {entries : List (Text × Value)} (h : (entries.map Prod.fst).Nodup) : ofPairs entries = entries :=
  foldl_set [] h

theorem readDict_print {entries : List (Text × Value)} (hkeys : (entries.map Prod.fst).Nodup)
    (h : ∀ p ∈ entries, Reads (readEntry inner) printEntry p) :
    ∃ s, print (.dict entries) = '\x7b'.toNat :: s ∧ ∀ rest, readDict inner (s ++ rest) = .ok (.dict entries, rest) := by
  cases entries with
  | nil =>
      refine ⟨_, rfl, fun rest => ?_⟩
      have hread : readAll '\x7d'.toNat (readEntry inner) ('\x7d'.toNat :: rest) = .ok ([], rest) := readAll_nil (.inr rfl)
      exact congrArg (fun r => r >>= fun p => .ok (Value.dict (ofPairs p.1), p.2)) hread
  | cons p entries =>
      have hopens : Opens (printEntry p) := ⟨_, _, rfl, by decide⟩
      have hprint : print (.dict (p :: entries)) = '\x7b'.toNat :: (printEntry p ++ more '\x7d'.toNat printEntry entries) := by
        rw [print, printEntries_eq]
        simp only [printEntry, List.cons_append, List.append_assoc]
      refine ⟨_, hprint, fun rest => ?_⟩
      rw [List.append_assoc, readDict, readAll_cons (.inr rfl) hopens h]
      show Except.ok (Value.dict (ofPairs (p :: entries)), rest) = _
      rw [ofPairs_nodup hkeys]

end

end

section

variable {list dict : Reader Value} {c : Nat} {rest : List Nat}

theorem readValue_scalar (hblank : blank c = false) (hlist : c ≠ '['.toNat) (hdict : c ≠ '\x7b'.toNat) (rest : List Nat) :
    readValue list dict (c :: rest) = readScalar (c :: rest) := by
  simp only [readValue, skip_cons hblank, if_neg hlist, if_neg hdict]

theorem readValue_list (rest : List Nat) : readValue list dict ('['.toNat :: rest) = list rest := rfl

theorem readValue_dict (rest : List Nat) : readValue list dict ('\x7b'.toNat :: rest) = dict rest := rfl

theorem readScalar_digit (h : isDigit c = true) (rest : List Nat) :
    readScalar (c :: rest) = (readNat (c :: rest)).map fun p => (.int p.1, p.2) := by
  have hrange : 48 ≤ c ∧ c ≤ 57 := of_decide_eq_true h
  have hne : ∀ d, d < 48 ∨ 57 < d → c ≠ d := by omega
  rw [readScalar, if_neg (hne _ (by decide)), if_neg (hne _ (by decide)), if_neg (hne _ (by decide)),
    if_neg (hne _ (by decide)), if_neg (hne _ (by decide)), if_neg (hne _ (by decide))]
  cases readNat (c :: rest) <;> rfl

theorem readValue_nat (n : Nat) :
    readValue list dict (printNat n ++ rest) = (readNat (printNat n ++ rest)).map fun p => (.int p.1, p.2) := by
  obtain ⟨c, s, hs, hdigit⟩ := printNat_cons n
  obtain ⟨hblank, _, _, hlist, hdict⟩ := opens_digit hdigit
  rw [hs, List.cons_append, readValue_scalar hblank hlist hdict, readScalar_digit hdigit]

theorem readValue_int {n : Int} (hn : Convertible n) : Reads (readValue list dict) print (.int n) := by
  intro rest hrest
  have hnat := readNat_printNat hn hrest.not_digit
  rw [print]
  split
  · next hneg =>
      have hscalar : readScalar ('-'.toNat :: (printNat n.natAbs ++ rest)) =
          (readNat (printNat n.natAbs ++ rest) >>= fun p => .ok (.int (-p.1), p.2)) := rfl
      have habs : -(n.natAbs : Int) = n := by omega
      rw [List.cons_append, readValue_scalar (by decide) (by decide) (by decide), hscalar, hnat, ← habs]
      simp only [bind, Except.bind, Int.natAbs_neg, Int.natAbs_natCast]
  · next hpos =>
      have habs : (n.natAbs : Int) = n := by omega
      rw [readValue_nat, hnat]
      simp only [Except.map, habs]

theorem readValue_word {v : Value} (h : v = .null ∨ ∃ b, v = .bool b) : Reads (readValue list dict) print v := by
  intro rest _
  rcases h with rfl | ⟨_ | _, rfl⟩ <;> rfl

theorem readValue_float {bits : UInt64} (h : Double.Canonical bits) : Reads (readValue list dict) print (.float bits) := by
  intro rest hrest
  have hsmall : bits.toNat < 10 ^ digitLimit := by
    refine Nat.lt_of_lt_of_le bits.toNat_lt ?_
    calc 2 ^ 64 ≤ 10 ^ 20 := by decide
      _ ≤ 10 ^ digitLimit := Nat.pow_le_pow_right (by decide) (by unfold digitLimit; decide)
  have hnat := readNat_printNat hsmall hrest.not_digit
  have hscalar : readScalar ('F'.toNat :: (printNat bits.toNat ++ rest)) = readFloat (printNat bits.toNat ++ rest) := rfl
  rw [print, List.cons_append, readValue_scalar (by decide) (by decide) (by decide), hscalar]
  simp only [readFloat, hnat, bind, Except.bind, UInt64.ofNat_toNat, h, if_true]

theorem readValue_str {s : Text} (h : s.Unpaired) : Reads (readValue list dict) print (.str s) := by
  intro rest _
  have hscalar : readScalar ('"'.toNat :: (printText s.codes ++ rest)) =
      (readString (printText s.codes ++ rest) >>= fun p => .ok (.str p.1, p.2)) := rfl
  rw [print, List.cons_append, readValue_scalar (by decide) (by decide) (by decide), hscalar, readString_printText h]
  rfl

end

theorem read_print {depth : Nat} {v : Value} (h : v.WellFormed Text.Unpaired depth) : Reads (read depth) print v := by
  induction h with
  | @null depth => cases depth <;> exact readValue_word (.inl rfl)
  | @bool depth b => cases depth <;> exact readValue_word (.inr ⟨b, rfl⟩)
  | @int depth n hn => cases depth <;> exact readValue_int hn
  | @float depth bits hbits => cases depth <;> exact readValue_float hbits
  | @str depth s hs => cases depth <;> exact readValue_str hs
  | @list depth items _ ih =>
      intro rest _
      obtain ⟨s, hs, hread⟩ := readList_print ih
      rw [hs, List.cons_append, read, readValue_list, hread]
  | @dict depth entries hkeys hgood _ ih =>
      intro rest _
      obtain ⟨s, hs, hread⟩ := readDict_print hkeys fun p hp => readEntry_print (hgood p hp) (ih p hp)
      rw [hs, List.cons_append, read, readValue_dict, hread]

theorem printNat_ascii (n : Nat) : Ascii (printNat n) := by
  intro c hc
  have hrange : 48 ≤ c ∧ c ≤ 57 := of_decide_eq_true (printNat_digits n c hc)
  omega

theorem more_ascii {α : Type} {last : Nat} {write : α → List Nat} {xs : List α} (hlast : last < 128)
    (h : ∀ x ∈ xs, Ascii (write x)) : Ascii (more last write xs) := by
  refine Ascii.append (fun d hd => ?_) (.cons hlast .nil)
  obtain ⟨x, hx, hd⟩ := List.mem_flatMap.mp hd
  exact Ascii.cons (by decide) (h x hx) d hd

theorem printEntry_ascii {p : Text × Value} (h : Ascii (print p.2)) : Ascii (printEntry p) :=
  .cons (by decide) ((printText_ascii _).append (.cons (by decide) h))

theorem print_ascii {good : Text → Prop} {depth : Nat} {v : Value} (h : v.WellFormed good depth) : Ascii (print v) := by
  induction h with
  | null => exact codes_ascii (by decide)
  | bool b => cases b <;> exact codes_ascii (by decide)
  | @int _ n _ =>
      rw [print]
      split
      · exact .cons (by decide) (printNat_ascii _)
      · exact printNat_ascii _
  | float _ => exact .cons (by decide) (printNat_ascii _)
  | str _ => exact .cons (by decide) (printText_ascii _)
  | @list _ items _ ih =>
      cases items with
      | nil => exact codes_ascii (by decide)
      | cons v items =>
          rw [print, printItems_eq]
          exact .append (.cons (by decide) (ih v List.mem_cons_self))
            (more_ascii (by decide) fun w hw => ih w (List.mem_cons_of_mem _ hw))
  | @dict _ entries _ _ _ ih =>
      cases entries with
      | nil => exact codes_ascii (by decide)
      | cons p entries =>
          rw [print, printEntries_eq]
          exact .append (.cons (by decide) (printEntry_ascii (ih p List.mem_cons_self)))
            (more_ascii (by decide) fun q hq => printEntry_ascii (ih q (List.mem_cons_of_mem _ hq)))

theorem loads_dumps {v : Value} (h : v.WellFormed Text.Unpaired nesting) : loads (dumps v) = .ok v := by
  have hread := read_print h [] (fun c hc => nomatch hc)
  have hskip : skip [] = [] := rfl
  rw [List.append_nil] at hread
  simp only [loads, dumps, decode_ascii (print_ascii h), hread, bind, Except.bind, hskip, if_true]

theorem bind_ok {α β : Type} {x : Except PayloadError α} {f : α → Except PayloadError β} {b : β}
    (h : (x >>= f) = .ok b) : ∃ a, x = .ok a ∧ f a = .ok b := by
  cases x with
  | error e => cases h
  | ok a => exact ⟨a, rfl, h⟩

theorem valueOf_lt {digits : List Nat} (h : ∀ c ∈ digits, isDigit c = true) : valueOf digits < 10 ^ digits.length := by
  have hfold : ∀ (digits : List Nat), (∀ c ∈ digits, isDigit c = true) → ∀ n,
      digits.foldl (fun n c => 10 * n + (c - '0'.toNat)) n < (n + 1) * 10 ^ digits.length := by
    intro digits h
    induction digits with
    | nil =>
        intro n
        simp
    | cons c digits ih =>
        intro n
        have hc : 48 ≤ c ∧ c ≤ 57 := of_decide_eq_true (h c List.mem_cons_self)
        have hdigit : c - '0'.toNat ≤ 9 := Nat.sub_le_of_le_add hc.2
        have hstep : 10 * n + (c - '0'.toNat) + 1 ≤ (n + 1) * 10 := by omega
        calc (c :: digits).foldl (fun n c => 10 * n + (c - '0'.toNat)) n
            < (10 * n + (c - '0'.toNat) + 1) * 10 ^ digits.length := ih (fun d hd => h d (List.mem_cons_of_mem _ hd)) _
          _ ≤ (n + 1) * 10 * 10 ^ digits.length := Nat.mul_le_mul_right _ hstep
          _ = (n + 1) * 10 ^ (c :: digits).length := by rw [Nat.mul_assoc, ← Nat.pow_succ', List.length_cons]
  have hzero := hfold digits h 0
  rwa [Nat.zero_add, Nat.one_mul] at hzero

theorem readNat_lt {n : Nat} {s rest : List Nat} (h : readNat s = .ok (n, rest)) : n < 10 ^ digitLimit := by
  cases s with
  | nil => cases h
  | cons c s =>
      rw [readNat] at h
      split at h
      · cases h
        exact Nat.pow_pos (by decide)
      · split at h
        · next hdigit =>
            simp only at h
            split at h
            · next hlength =>
                cases h
                refine Nat.lt_of_lt_of_le (valueOf_lt fun d hd => ?_) (Nat.pow_le_pow_right (by decide) hlength)
                rcases List.mem_cons.mp hd with rfl | hd
                · exact hdigit
                · exact List.mem_takeWhile_imp hd
            · cases h
        · cases h

section

variable {α : Type} {last : Nat} {element : Reader α} {s rest : List Nat} {xs : List α}

theorem readMore_mem {fuel : Nat} (h : readMore last element fuel s = .ok (xs, rest)) :
    ∀ x ∈ xs, ∃ s rest, element s = .ok (x, rest) := by
  induction fuel generalizing s xs rest with
  | zero => cases h
  | succ fuel ih =>
      rw [readMore] at h
      split at h
      · cases h
      · split at h
        · cases h
          nofun
        · split at h
          · obtain ⟨⟨x, s'⟩, hx, h⟩ := bind_ok h
            obtain ⟨⟨items, s''⟩, hitems, h⟩ := bind_ok h
            cases h
            intro y hy
            rcases List.mem_cons.mp hy with rfl | hy
            · exact ⟨_, _, hx⟩
            · exact ih hitems y hy
          · cases h

theorem readAll_mem (h : readAll last element s = .ok (xs, rest)) : ∀ x ∈ xs, ∃ s rest, element s = .ok (x, rest) := by
  unfold readAll at h
  split at h
  · cases h
  · split at h
    · cases h
      nofun
    · obtain ⟨⟨x, s'⟩, hx, h⟩ := bind_ok h
      obtain ⟨⟨items, s''⟩, hitems, h⟩ := bind_ok h
      cases h
      intro y hy
      rcases List.mem_cons.mp hy with rfl | hy
      · exact ⟨_, _, hx⟩
      · exact readMore_mem hitems y hy

end

theorem ofPairs_wellFormed (pairs : List (Text × Value)) :
    ((ofPairs pairs).map Prod.fst).Nodup ∧ ∀ p ∈ ofPairs pairs, p ∈ pairs := by
  have hfold : ∀ (pairs seen : List (Text × Value)) (d : Document), (d.map Prod.fst).Nodup → (∀ p ∈ d, p ∈ seen) →
      ((pairs.foldl (fun d p => Python.Dict.set d p.1 p.2) d).map Prod.fst).Nodup ∧
        ∀ p ∈ pairs.foldl (fun d p => Python.Dict.set d p.1 p.2) d, p ∈ seen ++ pairs := by
    intro pairs
    induction pairs with
    | nil =>
        intro seen d hkeys hseen
        exact ⟨hkeys, fun p hp => List.mem_append_left _ (hseen p hp)⟩
    | cons p pairs ih =>
        intro seen d hkeys hseen
        have hset : ∀ q ∈ Python.Dict.set d p.1 p.2, q ∈ seen ++ [p] := by
          intro q hq
          rcases Python.Dict.mem_set hq with rfl | hq
          · exact List.mem_append_right _ List.mem_cons_self
          · exact List.mem_append_left _ (hseen q hq)
        have hrest := ih (seen ++ [p]) (Python.Dict.set d p.1 p.2) (Python.Dict.keys_set_nodup hkeys) hset
        rwa [List.append_assoc] at hrest
  exact hfold pairs [] [] List.nodup_nil nofun

abbrev Sound (depth : Nat) (v : Value) : Prop := v.WellFormed (fun _ => True) depth

theorem readScalar_sound {depth : Nat} {s rest : List Nat} {v : Value} (h : readScalar s = .ok (v, rest)) : Sound depth v := by
  have hword : ∀ w rest', readWord w s = .ok (v, rest') → v = w := by
    intro w rest' hw
    unfold readWord at hw
    split at hw
    · cases hw
      rfl
    · cases hw
  cases s with
  | nil => cases h
  | cons c s =>
      rw [readScalar] at h
      split at h
      · obtain ⟨⟨t, s'⟩, _, h⟩ := bind_ok h
        cases h
        exact .str trivial
      split at h
      · rw [hword _ _ h]
        exact .null
      split at h
      · rw [hword _ _ h]
        exact .bool true
      split at h
      · rw [hword _ _ h]
        exact .bool false
      split at h
      · obtain ⟨⟨n, s'⟩, _, h⟩ := bind_ok h
        simp only at h
        split at h
        · next hcanonical =>
            cases h
            exact .float hcanonical
        · cases h
      split at h
      · obtain ⟨⟨n, s'⟩, hn, h⟩ := bind_ok h
        cases h
        exact .int (by rw [Convertible, Int.natAbs_neg, Int.natAbs_natCast]; exact readNat_lt hn)
      · obtain ⟨⟨n, s'⟩, hn, h⟩ := bind_ok h
        cases h
        exact .int (by rw [Convertible, Int.natAbs_natCast]; exact readNat_lt hn)

theorem readValue_sound {depth : Nat} {list dict : Reader Value} {s rest : List Nat} {v : Value}
    (hlist : ∀ s rest, list s = .ok (v, rest) → Sound depth v) (hdict : ∀ s rest, dict s = .ok (v, rest) → Sound depth v)
    (h : readValue list dict s = .ok (v, rest)) : Sound depth v := by
  unfold readValue at h
  split at h
  · cases h
  split at h
  · exact hlist _ _ h
  split at h
  · exact hdict _ _ h
  · exact readScalar_sound h

theorem read_sound {depth : Nat} {s rest : List Nat} {v : Value} (h : read depth s = .ok (v, rest)) : Sound depth v := by
  induction depth generalizing s rest v with
  | zero => exact readValue_sound (fun _ _ hdeep => by cases hdeep) (fun _ _ hdeep => by cases hdeep) h
  | succ depth ih =>
      refine readValue_sound (fun s rest hlist => ?_) (fun s rest hdict => ?_) h
      · obtain ⟨⟨items, s'⟩, hitems, hlist⟩ := bind_ok hlist
        cases hlist
        refine .list fun w hw => ?_
        obtain ⟨s, rest, hw⟩ := readAll_mem hitems w hw
        exact ih hw
      · obtain ⟨⟨pairs, s'⟩, hpairs, hdict⟩ := bind_ok hdict
        cases hdict
        obtain ⟨hkeys, hmem⟩ := ofPairs_wellFormed pairs
        refine .dict hkeys (fun _ _ => trivial) fun p hp => ?_
        obtain ⟨s, rest, hentry⟩ := readAll_mem hpairs p (hmem p hp)
        obtain ⟨_, _, hentry⟩ := bind_ok hentry
        obtain ⟨_, _, hentry⟩ := bind_ok hentry
        obtain ⟨_, _, hentry⟩ := bind_ok hentry
        obtain ⟨⟨w, s''⟩, hw, hentry⟩ := bind_ok hentry
        cases hentry
        exact ih hw

theorem loads_sound {payload : List UInt8} {v : Value} (h : loads payload = .ok v) : Sound nesting v := by
  unfold loads at h
  split at h
  · cases h
  · obtain ⟨⟨w, rest⟩, hread, h⟩ := bind_ok h
    simp only at h
    split at h
    · cases h
      exact read_sound hread
    · cases h

end Plain

def plain : Codec := ⟨Plain.loads, Plain.dumps, Plain.nesting, Plain.frames⟩

theorem plain_lawful : plain.Lawful := ⟨Plain.loads_sound, Plain.loads_dumps⟩

end PandaProxy.Json
