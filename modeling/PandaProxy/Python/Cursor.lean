import Mathlib.Data.List.Forall2

namespace PandaProxy.Python

abbrev Cursor (ε α : Type) := List UInt8 → Nat → Except ε (α × Nat)

namespace Cursor

variable {ε α β : Type}

protected def pure (a : α) : Cursor ε α := fun _ offset => .ok (a, offset)

protected def bind (read : Cursor ε α) (next : α → Cursor ε β) : Cursor ε β := fun data offset => do
  let (a, offset) ← read data offset
  next a data offset

protected def map (f : α → β) (read : Cursor ε α) : Cursor ε β := read.bind fun a => .pure (f a)

protected def when (present : Bool) (read : Cursor ε α) : Cursor ε (Option α) :=
  if present then read.map some else .pure none

-- A value is read where its bytes stand, and nowhere else; what follows them is not looked at.
structure Reads (read : Cursor ε α) (Spells : α → List UInt8 → Prop) : Prop where
  sound : ∀ {data offset a next}, read data offset = .ok (a, next) →
    ∃ bytes rest, data.drop offset = bytes ++ rest ∧ next = offset + bytes.length ∧ Spells a bytes
  complete : ∀ {a bytes}, Spells a bytes → ∀ before rest,
    read (before ++ (bytes ++ rest)) before.length = .ok (a, before.length + bytes.length)

namespace Reads

variable {read : Cursor ε α} {next : α → Cursor ε β} {S S' : α → List UInt8 → Prop} {T : α → β → List UInt8 → Prop}
  {a b : α} {bytes bytes' rest rest' : List UInt8}

theorem at_start (h : Reads read S) (ha : S a bytes) (rest : List UInt8) : read (bytes ++ rest) 0 = .ok (a, bytes.length) := by
  simpa using h.complete ha [] rest

theorem here (h : Reads read S) (ha : S a bytes) {data : List UInt8} {offset : Nat} (hoffset : offset ≤ data.length)
    (hdata : data.drop offset = bytes ++ rest) : read data offset = .ok (a, offset + bytes.length) := by
  have hread := h.complete ha (data.take offset) rest
  rwa [← hdata, List.take_append_drop, List.length_take, Nat.min_eq_left hoffset] at hread

theorem unique (h : Reads read S) (ha : S a bytes) (hb : S b bytes') (heq : bytes ++ rest = bytes' ++ rest') :
    a = b ∧ bytes = bytes' := by
  have hfirst := h.at_start ha rest
  rw [heq, h.at_start hb rest'] at hfirst
  simp only [Except.ok.injEq, Prod.mk.injEq] at hfirst
  exact ⟨hfirst.1.symm, (List.append_inj heq hfirst.2.symm).1⟩

theorem truncated (h : Reads read S) (ha : S a bytes) {data : List UInt8} (hpre : data <+: bytes) (hne : data ≠ bytes) :
    ∃ x, read data 0 = .error x := by
  cases hread : read data 0 with
  | error x => exact ⟨x, rfl⟩
  | ok p =>
      obtain ⟨b, n⟩ := p
      obtain ⟨bytes', rest, hdata, _, hb⟩ := h.sound hread
      obtain ⟨more, hmore⟩ := hpre
      rw [List.drop_zero] at hdata
      obtain ⟨_, rfl⟩ := h.unique ha hb (show bytes ++ [] = bytes' ++ (rest ++ more) by simp [← hmore, hdata])
      refine absurd ?_ hne
      have hlength := congrArg List.length hmore
      rw [List.length_append, hdata, List.length_append] at hlength
      have hrest : rest = [] := List.eq_nil_of_length_eq_zero (by omega)
      rw [hdata, hrest, List.append_nil]

theorem spells (h : Reads read S) (hS : ∀ a bytes, S a bytes ↔ S' a bytes) : Reads read S' := by
  have heq : S = S' := by
    funext a bytes
    exact propext (hS a bytes)
  exact heq ▸ h

theorem pure (a : α) : Reads (ε := ε) (.pure a) fun b bytes => b = a ∧ bytes = [] where
  sound h := by
    cases h
    exact ⟨[], _, rfl, rfl, rfl, rfl⟩
  complete := by
    rintro _ _ ⟨rfl, rfl⟩ before rest
    rfl

theorem bind (h : Reads read S) (hnext : ∀ a, Reads (next a) (T a)) : Reads (read.bind next) fun b bytes =>
    ∃ a first second, bytes = first ++ second ∧ S a first ∧ T a b second where
  sound {data offset b n} hread := by
    unfold Cursor.bind at hread
    cases hfirst : read data offset with
    | error x =>
        rw [hfirst] at hread
        cases hread
    | ok p =>
        obtain ⟨a, middle⟩ := p
        rw [hfirst] at hread
        obtain ⟨first, rest, hdata, rfl, ha⟩ := h.sound hfirst
        obtain ⟨second, rest', hdata', rfl, hb⟩ := (hnext a).sound hread
        rw [← List.drop_drop, hdata, List.drop_left] at hdata'
        refine ⟨first ++ second, rest', ?_, ?_, a, first, second, rfl, ha, hb⟩
        · rw [hdata, hdata', List.append_assoc]
        · rw [List.length_append, Nat.add_assoc]
  complete := by
    rintro b _ ⟨a, first, second, rfl, ha, hb⟩ before rest
    have hfirst := h.complete ha before (second ++ rest)
    have hsecond := (hnext a).complete hb (before ++ first) rest
    rw [List.append_assoc before, List.length_append] at hsecond
    unfold Cursor.bind
    rw [List.append_assoc first, hfirst, List.length_append, ← Nat.add_assoc]
    exact hsecond

theorem map (h : Reads read S) (f : α → β) : Reads (read.map f) fun b bytes => ∃ a, b = f a ∧ S a bytes :=
  (h.bind fun a => .pure (f a)).spells fun b bytes => by
    constructor
    · rintro ⟨a, first, _, rfl, ha, rfl, rfl⟩
      exact ⟨a, rfl, by rwa [List.append_nil]⟩
    · rintro ⟨a, rfl, ha⟩
      exact ⟨a, bytes, [], (List.append_nil bytes).symm, ha, rfl, rfl⟩

theorem when (h : Reads read S) (present : Bool) : Reads (read.when present) fun found bytes =>
    found.isSome = present ∧ ((∃ a, found = some a ∧ S a bytes) ∨ found = none ∧ bytes = []) := by
  cases present with
  | true =>
      refine (h.map some).spells fun found bytes => ?_
      constructor
      · rintro ⟨a, rfl, ha⟩
        exact ⟨rfl, .inl ⟨a, rfl, ha⟩⟩
      · rintro ⟨hpresent, ⟨a, rfl, ha⟩ | ⟨rfl, _⟩⟩
        · exact ⟨a, rfl, ha⟩
        · cases hpresent
  | false =>
      refine (pure none).spells fun found bytes => ?_
      constructor
      · rintro ⟨rfl, rfl⟩
        exact ⟨rfl, .inr ⟨rfl, rfl⟩⟩
      · rintro ⟨hpresent, ⟨a, rfl, _⟩ | ⟨rfl, rfl⟩⟩
        · cases hpresent
        · exact ⟨rfl, rfl⟩

end Reads

def Advances (read : Cursor ε α) : Prop := ∀ {data offset a next}, read data offset = .ok (a, next) → offset < next

-- `while offset < len(data)`, with what has been found so far.
def entries (entry : Cursor ε α) (hentry : entry.Advances) (data : List UInt8) (offset : Nat) (found : List α) :
    Except ε (List α) :=
  if offset < data.length then
    match _h : entry data offset with
    | .error x => .error x
    | .ok (a, next) => entries entry hentry data next (found ++ [a])
  else .ok found
termination_by data.length - offset
decreasing_by
  have := hentry _h
  omega

section

variable {entry : Cursor ε α} {S : α → List UInt8 → Prop} {a : α} {bytes data : List UInt8} {offset n : Nat}

theorem Reads.length_pos (h : Reads entry S) (hentry : entry.Advances) (ha : S a bytes) : 0 < bytes.length := by
  have := hentry (h.at_start ha [])
  exact this

theorem Reads.within (h : Reads entry S) (hread : entry data offset = .ok (a, n)) (hoffset : offset ≤ data.length) :
    n ≤ data.length := by
  obtain ⟨bytes, rest, hdata, rfl, _⟩ := h.sound hread
  have hlength := congrArg List.length hdata
  rw [List.length_drop, List.length_append] at hlength
  omega

theorem entries_iff (h : Reads entry S) (hentry : entry.Advances) {found all : List α} (hoffset : offset ≤ data.length) :
    entries entry hentry data offset found = .ok all ↔
      ∃ more pieces, all = found ++ more ∧ data.drop offset = pieces.flatten ∧ more.Forall₂ S pieces := by
  fun_induction entries entry hentry data offset found with
  | case1 offset found hlt x hx =>
      refine ⟨nofun, ?_⟩
      rintro ⟨more, pieces, rfl, hdata, hall⟩
      cases hall with
      | nil => exact absurd (List.drop_eq_nil_iff.mp hdata) (Nat.not_le.mpr hlt)
      | cons ha _ =>
          rw [h.here ha hoffset hdata] at hx
          cases hx
  | case2 offset found hlt a next hx ih =>
      rw [ih (h.within hx hoffset)]
      obtain ⟨bytes, rest, hdata, rfl, ha⟩ := h.sound hx
      rw [← List.drop_drop, hdata, List.drop_left]
      constructor
      · rintro ⟨more, pieces, rfl, rfl, hall⟩
        exact ⟨a :: more, bytes :: pieces, by simp, rfl, .cons ha hall⟩
      · rintro ⟨more, pieces, rfl, hpieces, hall⟩
        cases hall with
        | nil =>
            have hpos := h.length_pos hentry ha
            rw [List.append_eq_nil_iff.mp hpieces |>.1] at hpos
            exact absurd hpos (Nat.lt_irrefl 0)
        | @cons b bytes' more pieces hb hall =>
            rw [List.flatten_cons] at hpieces
            obtain ⟨rfl, rfl⟩ := h.unique ha hb hpieces
            exact ⟨more, pieces, by simp, List.append_cancel_left hpieces, hall⟩
  | case3 offset found hge =>
      rw [List.drop_eq_nil_of_le (Nat.not_lt.mp hge)]
      constructor
      · rintro ⟨⟩
        exact ⟨[], [], (List.append_nil _).symm, rfl, .nil⟩
      · rintro ⟨more, pieces, rfl, hpieces, hall⟩
        cases hall with
        | nil => rw [List.append_nil]
        | cons ha _ =>
            have hpos := h.length_pos hentry ha
            rw [List.flatten_cons] at hpieces
            rw [(List.append_eq_nil_iff.mp hpieces.symm).1] at hpos
            exact absurd hpos (Nat.lt_irrefl 0)

end

end Cursor

end PandaProxy.Python
