import Mathlib.Algebra.Group.Int.Defs
import Mathlib.Algebra.Group.Nat.Defs
import PandaProxy.Json.Overlay
import PandaProxy.Python.Dict

namespace PandaProxy.Json

open Python

def highSurrogate (c : Nat) : Bool := decide (0xD800 ≤ c ∧ c < 0xDC00)

def lowSurrogate (c : Nat) : Bool := decide (0xDC00 ≤ c ∧ c < 0xE000)

-- A `str`, which can have surrogates.
structure Text where
  codes : List Nat
  bounded : ∀ c ∈ codes, c < 0x110000
  deriving DecidableEq

-- Nowhere are the two halves of one code point next to each other, which `json.loads` would join.
def Text.Unpaired (s : Text) : Prop := s.codes.IsChain fun c d => (highSurrogate c && lowSurrogate d) = false

instance (s : Text) : Decidable s.Unpaired := inferInstanceAs (Decidable (List.IsChain _ _))

theorem char_bounded (c : Char) : c.toNat < 0x110000 := by
  rcases c.valid with h | h
  · exact Nat.lt_trans h (by decide)
  · exact h.2

def text (s : String) : Text where
  codes := s.toList.map Char.toNat
  bounded := by
    intro n hn
    obtain ⟨c, _, rfl⟩ := List.mem_map.mp hn
    exact char_bounded c

-- What `json.loads` gives. A `float` is a double, known by its bits.
inductive Value where
  | null
  | bool (b : Bool)
  | int (n : Int)
  | float (bits : UInt64)
  | str (s : Text)
  | list (items : List Value)
  | dict (entries : List (Text × Value))

abbrev Document := Dict Text Value

namespace Double

def mantissa (bits : UInt64) : Nat := bits.toNat % 2 ^ 52

def exponent (bits : UInt64) : Nat := bits.toNat / 2 ^ 52 % 2 ^ 11

def negative (bits : UInt64) : Bool := 2 ^ 63 ≤ bits.toNat

-- `x == n` for a double and an integer; neither an infinity nor a NaN equals one.
def eqInt (bits : UInt64) (n : Int) : Bool :=
  let signed (m : Nat) : Int := if negative bits then - (m : Int) else m
  if exponent bits = 2 ^ 11 - 1 then false
  else if exponent bits = 0 then signed (mantissa bits) == n * 2 ^ 1074
  else if exponent bits < 1075 then signed (2 ^ 52 + mantissa bits) == n * 2 ^ (1075 - exponent bits)
  else signed ((2 ^ 52 + mantissa bits) * 2 ^ (exponent bits - 1075)) == n

def Canonical (bits : UInt64) : Prop :=
  exponent bits = 2 ^ 11 - 1 → mantissa bits ≠ 0 → bits = 0x7FF8000000000000

end Double

@[irreducible] def digitLimit : Nat := 4300

-- An integer has at most as many digits as Python converts.
def Convertible (n : Int) : Prop := n.natAbs < 10 ^ digitLimit

instance (n : Int) : Decidable (Convertible n) := inferInstanceAs (Decidable (n.natAbs < 10 ^ digitLimit))

instance (bits : UInt64) : Decidable (Double.Canonical bits) :=
  inferInstanceAs (Decidable (_ → _ → _))

namespace Value

-- `v == n`, where `True` is 1 and `False` is 0.
def eqInt : Value → Int → Bool
  | .int m, n => m == n
  | .bool b, n => (if b then 1 else 0) == n
  | .float bits, n => Double.eqInt bits n
  | _, _ => false

def dict? : Value → Option Document
  | .dict entries => some entries
  | _ => none

def isDict (v : Value) : Bool := v.dict?.isSome

-- A `dict` has each key once, what is read or written nests at most `depth` containers deep, and
-- every string meets `good`.
inductive WellFormed (good : Text → Prop) : Nat → Value → Prop where
  | null {depth : Nat} : WellFormed good depth .null
  | bool {depth : Nat} (b : Bool) : WellFormed good depth (.bool b)
  | int {depth : Nat} {n : Int} (h : Convertible n) : WellFormed good depth (.int n)
  | float {depth : Nat} {bits : UInt64} (h : Double.Canonical bits) : WellFormed good depth (.float bits)
  | str {depth : Nat} {s : Text} (h : good s) : WellFormed good depth (.str s)
  | list {depth : Nat} {items : List Value} (h : ∀ v ∈ items, WellFormed good depth v) :
      WellFormed good (depth + 1) (.list items)
  | dict {depth : Nat} {entries : List (Text × Value)} (hkeys : (entries.map Prod.fst).Nodup)
      (hgood : ∀ p ∈ entries, good p.1) (h : ∀ p ∈ entries, WellFormed good depth p.2) :
      WellFormed good (depth + 1) (.dict entries)

def wellFormed (good : Text → Bool) : Nat → Value → Bool
  | _, .null => true
  | _, .bool _ => true
  | _, .int n => decide (Convertible n)
  | _, .float bits => decide (Double.Canonical bits)
  | _, .str s => good s
  | depth + 1, .list items => items.all fun v => wellFormed good depth v
  | depth + 1, .dict entries =>
      decide (entries.map Prod.fst).Nodup && (entries.all fun p => good p.1) && entries.all fun p => wellFormed good depth p.2
  | 0, .list _ => false
  | 0, .dict _ => false

theorem wellFormed_iff {good : Text → Bool} {depth : Nat} {v : Value} :
    wellFormed good depth v = true ↔ WellFormed (fun s => good s = true) depth v := by
  induction depth generalizing v with
  | zero =>
      cases v with
      | null => exact ⟨fun _ => .null, fun _ => rfl⟩
      | bool b => exact ⟨fun _ => .bool b, fun _ => rfl⟩
      | str s => exact ⟨fun h => .str h, fun h => by cases h; assumption⟩
      | int n =>
          simp only [wellFormed, decide_eq_true_eq]
          exact ⟨.int, fun h => by cases h; assumption⟩
      | float bits =>
          simp only [wellFormed, decide_eq_true_eq]
          exact ⟨.float, fun h => by cases h; assumption⟩
      | list items => exact ⟨nofun, nofun⟩
      | dict entries => exact ⟨nofun, nofun⟩
  | succ depth ih =>
      cases v with
      | null => exact ⟨fun _ => .null, fun _ => rfl⟩
      | bool b => exact ⟨fun _ => .bool b, fun _ => rfl⟩
      | str s => exact ⟨fun h => .str h, fun h => by cases h; assumption⟩
      | int n =>
          simp only [wellFormed, decide_eq_true_eq]
          exact ⟨.int, fun h => by cases h; assumption⟩
      | float bits =>
          simp only [wellFormed, decide_eq_true_eq]
          exact ⟨.float, fun h => by cases h; assumption⟩
      | list items =>
          simp only [wellFormed, List.all_eq_true]
          refine ⟨fun h => .list fun v hv => ih.mp (h v hv), fun h v hv => ?_⟩
          cases h with
          | list h => exact ih.mpr (h v hv)
      | dict entries =>
          simp only [wellFormed, Bool.and_eq_true, decide_eq_true_eq, List.all_eq_true]
          refine ⟨fun h => .dict h.1.1 h.1.2 fun p hp => ih.mp (h.2 p hp), fun h => ?_⟩
          cases h with
          | dict hkeys hgood h => exact ⟨⟨hkeys, hgood⟩, fun p hp => ih.mpr (h p hp)⟩

theorem WellFormed.mono {good good' : Text → Prop} (hgood : ∀ s, good s → good' s) {depth : Nat} {v : Value}
    (h : WellFormed good depth v) : WellFormed good' depth v := by
  induction h with
  | null => exact .null
  | bool b => exact .bool b
  | int h => exact .int h
  | float h => exact .float h
  | str h => exact .str (hgood _ h)
  | list _ ih => exact .list ih
  | dict hkeys hkeysGood _ ih => exact .dict hkeys (fun p hp => hgood _ (hkeysGood p hp)) ih

instance {good : Text → Prop} [DecidablePred good] (depth : Nat) (v : Value) : Decidable (WellFormed good depth v) :=
  decidable_of_iff (wellFormed (fun s => decide (good s)) depth v = true)
    (wellFormed_iff.trans ⟨.mono fun _ => of_decide_eq_true, .mono fun _ => decide_eq_true⟩)

mutual

-- How many calls `copy.deepcopy` has open at a time: itself, and the copier of a container.
def copyFrames : Value → Nat
  | .list items => 2 + itemFrames items
  | .dict entries => 2 + entryFrames entries
  | _ => 1

def itemFrames : List Value → Nat
  | [] => 0
  | v :: items => max (copyFrames v) (itemFrames items)

def entryFrames : List (Text × Value) → Nat
  | [] => 0
  | (_, v) :: entries => max (copyFrames v) (entryFrames entries)

end

def tree : Value → Tree Text Value
  | .dict _, [] => .branch
  | .dict entries, key :: path =>
      match Dict.get entries key with
      | some v => tree v path
      | none => .absent
  | v, [] => .leaf v
  | _, _ :: _ => .absent

variable {entries : Document} {key : Text} {path : List Text} {v : Value}

theorem tree_cons : tree (.dict entries) (key :: path) =
    match Dict.get entries key with
    | some v => tree v path
    | none => .absent := rfl

theorem tree_get (h : Dict.get entries key = some v) : tree (.dict entries) (key :: path) = tree v path := by
  rw [tree_cons, h]

theorem tree_missing (h : Dict.get entries key = none) : tree (.dict entries) (key :: path) = .absent := by
  rw [tree_cons, h]

theorem tree_below (h : v.isDict = false) : tree v (key :: path) = .absent := by
  cases v <;> first | rfl | cases h

theorem isDict_iff : v.isDict = true ↔ ∃ entries, v = .dict entries := by
  cases v <;> simp [isDict, dict?]

end Value

inductive PayloadError where
  | jsonDecodeError
  | unicodeDecodeError
  | valueError
  | recursionError
  deriving DecidableEq, Repr

-- Where a recursion in Python starts: `deep_merge`, or `copy.deepcopy`.
inductive Recursion where
  | update
  | broadcastReport
  | snapshot
  deriving DecidableEq, Repr

-- The `json` module: `json.loads` on bytes, and `json.dumps` with compact separators, encoded. It
-- is given nothing to write that was not copied before. `frames` is how many calls the interpreter
-- still allows where a recursion starts.
structure Codec where
  loads : List UInt8 → Except PayloadError Value
  dumps : Value → List UInt8
  nesting : Nat
  frames : Recursion → Nat

-- What reads back as it was once it is written.
def Codec.Writable (J : Codec) (v : Value) : Prop := v.WellFormed Text.Unpaired J.nesting

instance (J : Codec) (v : Value) : Decidable (J.Writable v) := inferInstanceAs (Decidable (v.WellFormed _ _))

structure Codec.Lawful (J : Codec) : Prop where
  wellFormed : ∀ {payload v}, J.loads payload = .ok v → v.WellFormed (fun _ => True) J.nesting
  loads_dumps : ∀ {v}, J.Writable v → J.loads (J.dumps v) = .ok v

-- What is left to handle after `except json.JSONDecodeError, UnicodeDecodeError`.
def Codec.parse (J : Codec) (payload : List UInt8) : Except PayloadError (Option Value) :=
  match J.loads payload with
  | .ok v => .ok (some v)
  | .error .jsonDecodeError => .ok none
  | .error .unicodeDecodeError => .ok none
  | .error x => .error x

theorem Codec.parse_dict {J : Codec} {payload : List UInt8} {state : Document} :
    J.parse payload = .ok (some (.dict state)) ↔ J.loads payload = .ok (.dict state) := by
  unfold Codec.parse
  split
  · next v hv => simp [hv]
  · next hv => simp [hv]
  · next hv => simp [hv]
  · next x _ _ hv => simp [hv]

end PandaProxy.Json
