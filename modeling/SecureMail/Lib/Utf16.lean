import Mathlib.Data.List.Basic
import Mathlib.Data.UInt

/-!
# UTF-16

A sequence of code points, and the code units a host of 16-bit strings keeps instead of it. The two
are not the same set: a lone surrogate is a code point here and a unit there, but two surrogates side
by side read back as one supplementary code point. What is below the surrogates survives the trip,
at the same place: `filter_located_points` is that.

A place is a number of code units, which both sides can count. Numbers of code points cannot be
compared, as a pair of lone surrogates is two of them on the one side and one on the other, and so
everything behind such a pair would be out by one.

Lean's `String` has no surrogates, and a text that comes from outside may; for a statement about every
text a code point is a number below `0x110000` here.
-/

namespace SecureMail
namespace Utf16

/-- A code point, surrogates among them. -/
structure CodePoint where
  val : Nat
  val_lt : val < 0x110000
deriving DecidableEq

def CodePoint.ofChar (c : Char) : CodePoint :=
  ⟨c.toNat, by
    have hvalid := c.valid
    simp only [UInt32.isValidChar, Nat.isValidChar] at hvalid
    change c.val.toNat < 0x110000
    omega⟩

/-- The code points of a literal. -/
def literal (s : String) : List CodePoint := s.toList.map CodePoint.ofChar

abbrev CodeUnit := UInt16

def isHigh (u : CodeUnit) : Bool := decide (0xD800 ≤ u.toNat ∧ u.toNat < 0xDC00)

def isLow (u : CodeUnit) : Bool := decide (0xDC00 ≤ u.toNat ∧ u.toNat < 0xE000)

/-- The units of a code point: itself, or its surrogate pair. -/
def units (c : CodePoint) : List CodeUnit :=
  if c.val < 0x10000 then [UInt16.ofNat c.val]
  else [UInt16.ofNat (0xD800 + (c.val - 0x10000) / 0x400),
    UInt16.ofNat (0xDC00 + (c.val - 0x10000) % 0x400)]

/-- The string of units that holds `text`. -/
def encode (text : List CodePoint) : List CodeUnit := text.flatMap units

/-- The code point that is one unit. -/
def single (u : CodeUnit) : CodePoint := ⟨u.toNat, by have := u.toNat_lt; omega⟩

/-- The code point of a surrogate pair. -/
def pair (u v : CodeUnit) : CodePoint :=
  ⟨0x10000 + (u.toNat - 0xD800) % 0x400 * 0x400 + (v.toNat - 0xDC00) % 0x400, by omega⟩

/-- The code points a string of units is iterated by. -/
def points : List CodeUnit → List CodePoint
  | [] => []
  | [u] => [single u]
  | u :: v :: rest =>
    if isHigh u && isLow v then pair u v :: points rest else single u :: points (v :: rest)

/-- How many units a code point takes. -/
def width (c : CodePoint) : Nat := if c.val < 0x10000 then 1 else 2

/-- Each code point with the number of units before it. -/
def located (start : Nat) : List CodePoint → List (Nat × CodePoint)
  | [] => []
  | c :: rest => (start, c) :: located (start + width c) rest

/-- The places of the code points of `text` that satisfy `p`. -/
def places (p : CodePoint → Bool) (text : List CodePoint) : List Nat :=
  ((located 0 text).filter fun entry => p entry.2).map Prod.fst

/-! ## What iteration reads back -/

@[simp] theorem single_val (u : CodeUnit) : (single u).val = u.toNat := rfl

theorem le_pair_val (u v : CodeUnit) : 0x10000 ≤ (pair u v).val := by
  simp only [pair]
  omega

theorem single_ofNat {c : CodePoint} (hc : c.val < 0x10000) :
    single (UInt16.ofNat c.val) = c := by
  have hval : (UInt16.ofNat c.val).toNat = c.val := UInt16.toNat_ofNat_of_lt' hc
  cases c
  simp_all [single]

/-- A unit that cannot open a pair is read alone. -/
theorem points_cons_of_not_pair {u : CodeUnit} {rest : List CodeUnit}
    (h : ∀ v ∈ rest.head?, (isHigh u && isLow v) = false) :
    points (u :: rest) = single u :: points rest := by
  cases rest with
  | nil => rfl
  | cons v rest =>
    have hv : (isHigh u && isLow v) = false := h v rfl
    rw [points, hv]
    rfl

/-- A code point that is read is one of the units, or a supplementary one. -/
theorem of_mem_points {us : List CodeUnit} {c : CodePoint} (hc : c ∈ points us) :
    (∃ u ∈ us, c = single u) ∨ 0x10000 ≤ c.val := by
  induction us using points.induct with
  | case1 => exact absurd hc (by simp [points])
  | case2 u =>
    have heq : c = single u := by simpa [points] using hc
    exact Or.inl ⟨u, List.mem_singleton_self u, heq⟩
  | case3 u v rest hpair ih =>
    rw [points, if_pos hpair, List.mem_cons] at hc
    rcases hc with rfl | hrest
    · exact Or.inr (le_pair_val u v)
    · rcases ih hrest with ⟨w, hw, heq⟩ | hle
      · exact Or.inl ⟨w, List.mem_cons_of_mem u (List.mem_cons_of_mem v hw), heq⟩
      · exact Or.inr hle
  | case4 u v rest hpair ih =>
    rw [points, if_neg hpair, List.mem_cons] at hc
    rcases hc with rfl | hrest
    · exact Or.inl ⟨u, List.mem_cons_self, rfl⟩
    · rcases ih hrest with ⟨w, hw, heq⟩ | hle
      · exact Or.inl ⟨w, List.mem_cons_of_mem u hw, heq⟩
      · exact Or.inr hle

/-- A unit of a code point is that code point, or a surrogate. -/
theorem of_mem_units {c : CodePoint} {u : CodeUnit} (hu : u ∈ units c) :
    single u = c ∨ 0xD800 ≤ (single u).val := by
  by_cases hc : c.val < 0x10000
  · rw [units, if_pos hc, List.mem_singleton] at hu
    rw [hu]
    exact Or.inl (single_ofNat hc)
  · have hlt := c.val_lt
    rw [units, if_neg hc, List.mem_cons, List.mem_singleton] at hu
    refine Or.inr ?_
    rcases hu with rfl | rfl
    · rw [single_val, UInt16.toNat_ofNat_of_lt' (show _ < 65536 by omega)]
      omega
    · rw [single_val, UInt16.toNat_ofNat_of_lt' (show _ < 65536 by omega)]
      omega

/-! ## Places -/

/-- A question that no surrogate and no supplementary code point answers to. -/
def BelowSurrogates (p : CodePoint → Bool) : Prop := ∀ c, p c = true → c.val < 0xD800

theorem located_filter_cons (p : CodePoint → Bool) (start : Nat) (c : CodePoint)
    (rest : List CodePoint) :
    (located start (c :: rest)).filter (fun entry => p entry.2) =
      (if p c then [(start, c)] else []) ++
        (located (start + width c) rest).filter (fun entry => p entry.2) := by
  rw [located, List.filter_cons]
  split <;> rfl

theorem mem_located {entry : Nat × CodePoint} :
    ∀ {text : List CodePoint} {start : Nat}, entry ∈ located start text → entry.2 ∈ text
  | [], _, h => absurd h (by simp [located])
  | c :: rest, start, h => by
    rw [located, List.mem_cons] at h
    rcases h with rfl | hrest
    · exact List.mem_cons_self
    · exact List.mem_cons_of_mem c (mem_located hrest)

theorem places_congr {p q : CodePoint → Bool} {text : List CodePoint}
    (h : ∀ c ∈ text, p c = q c) : places p text = places q text := by
  rw [places, places]
  congr 1
  exact List.filter_congr fun entry hentry => h entry.2 (mem_located hentry)

/-- The code point of a pair takes the units of the pair. -/
theorem width_pair (u v : CodeUnit) : width (pair u v) = 2 := by
  have hle := le_pair_val u v
  exact if_neg (by omega)

/-! ## Places in the two strings

Case by case on what stands first: a supplementary code point, which is read back from its own pair; a
lone high surrogate before a low one, which reads back as one supplementary code point; anything else,
which is read back alone.
-/

section

variable {p : CodePoint → Bool}

theorem BelowSurrogates.false_of_le (hp : BelowSurrogates p) {c : CodePoint}
    (hc : 0xD800 ≤ c.val) : p c = false := by
  by_contra hne
  have hlt := hp c (by simpa using hne)
  omega

/-- What begins with a code point `p` is not asked of can be left out. -/
theorem located_filter_skip (start : Nat) {c : CodePoint} (rest : List CodePoint)
    (hc : p c = false) :
    (located start (c :: rest)).filter (fun entry => p entry.2) =
      (located (start + width c) rest).filter fun entry => p entry.2 := by
  rw [located_filter_cons, hc]
  rfl

theorem units_of_lt {c : CodePoint} (hc : c.val < 0x10000) : units c = [UInt16.ofNat c.val] :=
  if_pos hc

theorem encode_cons (c : CodePoint) (rest : List CodePoint) :
    encode (c :: rest) = units c ++ encode rest := rfl

/-- A supplementary code point is written as a pair. -/
theorem units_of_le {c : CodePoint} (hc : 0x10000 ≤ c.val) :
    ∃ u v, units c = [u, v] ∧ isHigh u = true ∧ isLow v = true := by
  have hlt := c.val_lt
  have hu : (UInt16.ofNat (0xD800 + (c.val - 0x10000) / 0x400)).toNat =
      0xD800 + (c.val - 0x10000) / 0x400 :=
    UInt16.toNat_ofNat_of_lt' (show _ < 65536 by omega)
  have hv : (UInt16.ofNat (0xDC00 + (c.val - 0x10000) % 0x400)).toNat =
      0xDC00 + (c.val - 0x10000) % 0x400 :=
    UInt16.toNat_ofNat_of_lt' (show _ < 65536 by omega)
  refine ⟨_, _, if_neg (by omega), ?_, ?_⟩
  · rw [isHigh, hu, decide_eq_true_eq]
    omega
  · rw [isLow, hv, decide_eq_true_eq]
    omega

theorem le_of_isHigh {c : CodePoint} (hc : c.val < 0x10000)
    (h : isHigh (UInt16.ofNat c.val) = true) : 0xD800 ≤ c.val := by
  have hval : (UInt16.ofNat c.val).toNat = c.val := UInt16.toNat_ofNat_of_lt' hc
  rw [isHigh, hval, decide_eq_true_eq] at h
  exact h.1

theorem le_of_isLow {c : CodePoint} (hc : c.val < 0x10000)
    (h : isLow (UInt16.ofNat c.val) = true) : 0xD800 ≤ c.val := by
  have hval : (UInt16.ofNat c.val).toNat = c.val := UInt16.toNat_ofNat_of_lt' hc
  rw [isLow, hval, decide_eq_true_eq] at h
  omega

/-- The unit that closes a pair is a code point of its own: a supplementary code point begins with a
high surrogate. -/
theorem low_of_pair {u : CodeUnit} {d : CodePoint} {rest : List CodePoint}
    (h : ¬∀ v ∈ (encode (d :: rest)).head?, (isHigh u && isLow v) = false) :
    isHigh u = true ∧ d.val < 0x10000 ∧ isLow (UInt16.ofNat d.val) = true := by
  by_cases hd : d.val < 0x10000
  · rw [encode_cons, units_of_lt hd] at h
    have hboth : isHigh u = true ∧ isLow (UInt16.ofNat d.val) = true := by simpa using h
    exact ⟨hboth.1, hd, hboth.2⟩
  · obtain ⟨u', v', hunits, hu', -⟩ := units_of_le (c := d) (by omega)
    rw [encode_cons, hunits] at h
    have hlow : isLow u' = false := by
      rw [isHigh, decide_eq_true_eq] at hu'
      rw [isLow, decide_eq_false_iff_not]
      omega
    exact absurd (by simp [hlow]) h

/-- **What is below the surrogates is found at the same places on both sides.** A code point above
them is two units, and neither of the two is mistaken for one below. -/
theorem filter_located_points (hp : BelowSurrogates p) :
    ∀ (text : List CodePoint) (start : Nat),
      (located start (points (encode text))).filter (fun entry => p entry.2) =
        (located start text).filter fun entry => p entry.2
  | [], _ => rfl
  | c :: rest, start => by
    have ih := filter_located_points hp rest
    by_cases hc : c.val < 0x10000
    · have hsingle := single_ofNat hc
      rw [encode_cons, units_of_lt hc, List.singleton_append]
      by_cases hpair : ∀ v ∈ (encode rest).head?, (isHigh (UInt16.ofNat c.val) && isLow v) = false
      · rw [points_cons_of_not_pair hpair, hsingle, located_filter_cons, located_filter_cons, ih]
      · -- `c` is a high surrogate and the next code point begins with a low one, so it is that one.
        cases rest with
        | nil => exact absurd (fun v hv => by simp [encode] at hv) hpair
        | cons d rest =>
          obtain ⟨hhigh, hd, hlow⟩ := low_of_pair hpair
          have hpoints : points (UInt16.ofNat c.val :: UInt16.ofNat d.val :: encode rest) =
              pair (UInt16.ofNat c.val) (UInt16.ofNat d.val) :: points (encode rest) := by
            rw [points, hhigh, hlow]
            rfl
          have hc' : 0xD800 ≤ c.val := le_of_isHigh hc hhigh
          have hd' : 0xD800 ≤ d.val := le_of_isLow hd hlow
          have hle := le_pair_val (UInt16.ofNat c.val) (UInt16.ofNat d.val)
          rw [encode_cons, units_of_lt hd, List.singleton_append, hpoints,
            located_filter_skip _ _ (hp.false_of_le (by omega)),
            located_filter_skip _ _ (hp.false_of_le hc'),
            located_filter_skip _ _ (hp.false_of_le hd'), width_pair,
            filter_located_points hp rest, show width c = 1 from if_pos hc,
            show width d = 1 from if_pos hd]
    · obtain ⟨u, v, hunits, hu, hv⟩ := units_of_le (c := c) (by omega)
      have hpoints : points (u :: v :: encode rest) = pair u v :: points (encode rest) := by
        rw [points, hu, hv]
        rfl
      have hle := le_pair_val u v
      rw [encode_cons, hunits, List.cons_append, List.singleton_append, hpoints,
        located_filter_skip _ _ (hp.false_of_le (by omega)),
        located_filter_skip _ _ (hp.false_of_le (by omega)), width_pair, ih,
        show width c = 2 from if_neg hc]

theorem places_points (hp : BelowSurrogates p) (text : List CodePoint) :
    places p (points (encode text)) = places p text := by
  rw [places, places, filter_located_points hp]

end

end Utf16
end SecureMail
