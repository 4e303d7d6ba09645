import SecureMail.Lib.Tlv
import SecureMail.Pki.Der

/-!
# What `der_nesting_depth` accepts

The walk goes over positions, the grammar of `Tlv` over lists of bytes. Each reader of the walk is
tied to the grammar by one equivalence: the bytes from its cursor up to the end of the enclosing
value start with what it reads, and with nothing else. The depth of the walk is then the depth of a
derivation, by induction on the bytes that are left.

The grammar is a relation (`Nested`) and knows nothing of positions, limits or the walk, so that the
equivalence is between two things that were written down apart. It has no derivation for a payload
that is cut short, which is what the walk reports by a depth above the limit. The limit enters at
one place: where the walk has come to it, it reports a constructed value without going in.
-/

namespace SecureMail
namespace Pki

open Tlv

variable {data : List UInt8} {stop cursor : Nat}

theorem byteAt_eq_ok {i : Nat} (h : i < data.length) : byteAt data i = .ok data[i].toNat := by
  unfold byteAt
  rw [List.getElem?_eq_getElem h]
  rfl

theorem bigEndian_eq_valueOf {start n : Nat} :
    bigEndian data start n = valueOf (slice data start (start + n)) := by
  rw [slice, Nat.add_sub_cancel_left]
  rfl

/-! ## The readers -/

/-- The long tag that is read is the one the bytes start with. -/
theorem skipTag_spec (hstop : stop ≤ data.length) (hcursor : cursor ≤ stop) :
    ∃ after, skipTag data stop cursor = .ok after ∧ ∀ tag rest,
      (slice data cursor stop = tag ++ rest ∧ LongTag tag ↔
        after.val ≤ stop ∧ tag = slice data cursor after.val ∧ rest = slice data after.val stop) := by
  induction hleft : stop - cursor generalizing cursor with
  | zero =>
    obtain rfl : cursor = stop := by omega
    refine ⟨⟨cursor + 1, Nat.lt_succ_self cursor⟩, ?_, ?_⟩
    · rw [skipTag, if_neg (Nat.lt_irrefl cursor)]
      rfl
    · intro tag rest
      constructor
      · rintro ⟨hempty, htag⟩
        rw [slice_self] at hempty
        obtain ⟨rfl, -⟩ := List.append_eq_nil_iff.mp hempty.symm
        cases htag
      · rintro ⟨hle, -⟩
        exact absurd hle (Nat.not_succ_le_self cursor)
  | succ left ih =>
    have hlt : cursor < stop := by omega
    have hdata : cursor < data.length := Nat.lt_of_lt_of_le hlt hstop
    rw [skipTag, if_pos hlt, byteAt_eq_ok hdata, slice_cons hlt hdata]
    by_cases hmore : 128 ≤ data[cursor].toNat
    · obtain ⟨after, hafter, hspec⟩ := ih hlt (by omega)
      refine ⟨⟨after.val, Nat.lt_of_succ_lt after.property⟩, ?_, ?_⟩
      · show (if 128 ≤ data[cursor].toNat then _ else _) = _
        rw [if_pos hmore, hafter]
        rfl
      · intro tag rest
        rw [longTag_at_front_iff, if_pos hmore]
        constructor
        · rintro ⟨more, rfl, hsplit, hlong⟩
          obtain ⟨hle, hmoreEq, hrest⟩ := (hspec more rest).mp ⟨hsplit, hlong⟩
          refine ⟨hle, ?_, hrest⟩
          rw [slice_cons (Nat.lt_of_succ_lt after.property) hdata, ← hmoreEq]
        · rintro ⟨hle, rfl, hrest⟩
          refine ⟨_, slice_cons (Nat.lt_of_succ_lt after.property) hdata, ?_⟩
          exact (hspec _ rest).mpr ⟨hle, rfl, hrest⟩
    · refine ⟨⟨cursor + 1, Nat.lt_succ_self cursor⟩, ?_, ?_⟩
      · show (if 128 ≤ data[cursor].toNat then _ else _) = _
        rw [if_neg hmore]
        rfl
      · intro tag rest
        rw [longTag_at_front_iff, if_neg hmore, slice_cons (Nat.lt_succ_self cursor) hdata, slice_self]
        exact ⟨fun h => ⟨hlt, h⟩, fun h => h.2⟩

/-- The identifier octets after the first. -/
theorem afterTag_spec (hstop : stop ≤ data.length) (hcursor : cursor < stop) (first : UInt8) :
    ∃ after, afterTag data stop first.toNat cursor = .ok after ∧ ∀ tag rest,
      (slice data (cursor + 1) stop = tag ++ rest ∧ Identifier first tag ↔
        after.val ≤ stop ∧ tag = slice data (cursor + 1) after.val ∧
          rest = slice data after.val stop) := by
  unfold afterTag
  by_cases hlong : first.toNat % 32 = 31
  · obtain ⟨after, hafter, hspec⟩ := skipTag_spec hstop hcursor
    refine ⟨⟨after.val, Nat.lt_of_succ_lt after.property⟩, ?_, ?_⟩
    · rw [if_pos hlong, hafter]
      rfl
    · intro tag rest
      rw [← hspec]
      constructor
      · rintro ⟨hsplit, htag⟩
        cases htag with
        | short hshort => exact absurd hlong hshort
        | long _ htag => exact ⟨hsplit, htag⟩
      · rintro ⟨hsplit, htag⟩
        exact ⟨hsplit, .long hlong htag⟩
  · refine ⟨⟨cursor + 1, Nat.lt_succ_self cursor⟩, ?_, ?_⟩
    · rw [if_neg hlong]
      rfl
    · intro tag rest
      rw [slice_self]
      constructor
      · rintro ⟨hsplit, htag⟩
        cases htag with
        | short => exact ⟨hcursor, rfl, hsplit.symm⟩
        | long h => exact absurd h hlong
      · rintro ⟨-, rfl, rfl⟩
        exact ⟨rfl, .short hlong⟩

/-- What a header says of the bytes it was read from: the content, and what follows. -/
def Reads {start : Nat} (data : List UInt8) (read : Option (Header start stop))
    (content rest : List UInt8) : Prop :=
  ∃ header, read = some header ∧ content = slice data header.valueStart header.valueEnd ∧
    rest = slice data header.valueEnd stop

theorem not_reads_none {start : Nat} {content rest : List UInt8} :
    ¬ Reads data (none : Option (Header start stop)) content rest := by
  rintro ⟨header, hnone, -⟩
  cases hnone

section

variable {start tag valueStart length : Nat} {h : start < valueStart}

theorem constructed_of_headerOf {header : Header start stop}
    (hheader : Header.of start stop tag valueStart length h = some header) :
    header.constructed = decide (tag / 32 % 2 = 1) := by
  unfold Header.of at hheader
  split at hheader
  · obtain rfl := Option.some.inj hheader
    rfl
  · cases hheader

/-- The value behind a length is the content, if it ends in time. -/
theorem headerOf_spec (hstop : stop ≤ data.length) (hstart : valueStart ≤ stop)
    {content rest : List UInt8} :
    slice data valueStart stop = content ++ rest ∧ content.length = length ↔
      Reads data (Header.of start stop tag valueStart length h) content rest := by
  rw [slice_eq_append_iff hstart hstop]
  unfold Header.of
  constructor
  · rintro ⟨⟨hle, hcontent, hrest⟩, rfl⟩
    rw [dif_pos hle]
    exact ⟨_, rfl, hcontent, hrest⟩
  · rintro ⟨header, hheader, rfl, rfl⟩
    by_cases hle : valueStart + length ≤ stop
    · rw [dif_pos hle] at hheader
      obtain rfl := Option.some.inj hheader
      have hlength : (slice data valueStart (valueStart + length)).length = length := by
        rw [length_slice (Nat.le_trans hle hstop), Nat.add_sub_cancel_left]
      rw [hlength]
      exact ⟨⟨hle, rfl, rfl⟩, rfl⟩
    · rw [dif_neg hle] at hheader
      cases hheader

end

/-- The length that is read is the one the bytes start with, if its value ends in time. -/
theorem readLength_spec {start tag : Nat} (h : start < cursor) (hstop : stop ≤ data.length) :
    ∃ read, readLength data start stop tag cursor h = .ok read ∧
      (∀ header, read = some header → header.constructed = decide (tag / 32 % 2 = 1)) ∧
      ∀ content rest,
        (∃ octets, cursor ≤ stop ∧ slice data cursor stop = octets ++ (content ++ rest) ∧
          LengthOctets octets content.length) ↔ Reads data read content rest := by
  by_cases hend : stop ≤ cursor
  · refine ⟨none, ?_, by simp, ?_⟩
    · rw [readLength, if_pos hend]
      rfl
    · intro content rest
      refine ⟨?_, fun hnone => absurd hnone not_reads_none⟩
      rintro ⟨octets, hle, hsplit, hoctets⟩
      obtain rfl : cursor = stop := Nat.le_antisymm hle hend
      rw [slice_self] at hsplit
      obtain ⟨rfl, -⟩ := List.append_eq_nil_iff.mp hsplit.symm
      cases hoctets
  have hlt : cursor < stop := Nat.not_le.mp hend
  have hdata : cursor < data.length := Nat.lt_of_lt_of_le hlt hstop
  rw [readLength, if_neg hend, byteAt_eq_ok hdata, slice_cons hlt hdata]
  by_cases hshort : data[cursor].toNat < 128
  · refine ⟨Header.of start stop tag (cursor + 1) data[cursor].toNat (Nat.lt_succ_of_lt h), ?_,
      fun _ => constructed_of_headerOf, ?_⟩
    · show (if data[cursor].toNat = 128 then _ else _) = _
      rw [if_neg (Nat.ne_of_lt hshort), if_neg (Nat.not_le.mpr hshort)]
      rfl
    · intro content rest
      rw [← headerOf_spec hstop hlt]
      constructor
      · rintro ⟨octets, -, hoctets⟩
        have hread := lengthOctets_at_front_iff.mp hoctets
        rw [if_pos hshort] at hread
        exact hread.2
      · rintro ⟨hsplit, hlength⟩
        refine ⟨[data[cursor]], Nat.le_of_lt hlt, lengthOctets_at_front_iff.mpr ?_⟩
        rw [if_pos hshort]
        exact ⟨rfl, hsplit, hlength⟩
  have hlong : 128 ≤ data[cursor].toNat := Nat.not_lt.mp hshort
  obtain ⟨count, hnumber⟩ : ∃ count, data[cursor].toNat = 128 + count :=
    Nat.exists_eq_add_of_le hlong
  have hsub : data[cursor].toNat - 128 = count := by rw [hnumber, Nat.add_sub_cancel_left]
  by_cases hcount : count = 0 ∨ 4 < count ∨ stop < cursor + 1 + count
  · refine ⟨none, ?_, by simp, ?_⟩
    · show (if data[cursor].toNat = 128 then _ else _) = _
      by_cases hindefinite : data[cursor].toNat = 128
      · rw [if_pos hindefinite]
        rfl
      · rw [if_neg hindefinite, if_pos hlong]
        simp only [hsub]
        rw [if_pos hcount]
        rfl
    · intro content rest
      refine ⟨?_, fun hnone => absurd hnone not_reads_none⟩
      rintro ⟨octets, -, hoctets⟩
      have hread := lengthOctets_at_front_iff.mp hoctets
      rw [if_neg hshort, hnumber] at hread
      obtain ⟨more, -, hmore, hmoreLength, hpos, hle, -⟩ := hread
      obtain ⟨hfits, -⟩ := (slice_eq_append_iff hlt hstop).mp hmore
      omega
  · have hbounds := hcount
    rw [not_or, not_or, Nat.not_lt, Nat.not_lt] at hbounds
    obtain ⟨hpos, hle, hfits⟩ := hbounds
    refine ⟨Header.of start stop tag (cursor + 1 + count) (bigEndian data (cursor + 1) count)
      (by omega), ?_, fun _ => constructed_of_headerOf, ?_⟩
    · show (if data[cursor].toNat = 128 then _ else _) = _
      rw [if_neg (by rw [hnumber]; omega), if_pos hlong]
      simp only [hsub]
      rw [if_neg hcount]
      rfl
    · intro content rest
      rw [← headerOf_spec hstop hfits, bigEndian_eq_valueOf]
      have hlength : (slice data (cursor + 1) (cursor + 1 + count)).length = count := by
        rw [length_slice (Nat.le_trans hfits hstop), Nat.add_sub_cancel_left]
      constructor
      · rintro ⟨octets, -, hoctets⟩
        have hread := lengthOctets_at_front_iff.mp hoctets
        rw [if_neg hshort, hnumber] at hread
        obtain ⟨more, -, hmore, hmoreLength, -, -, hvalue⟩ := hread
        obtain ⟨-, hmoreEq, hrest⟩ := (slice_eq_append_iff hlt hstop).mp hmore
        rw [← Nat.add_left_cancel hmoreLength] at hmoreEq hrest
        rw [← hmoreEq]
        exact ⟨hrest.symm, hvalue⟩
      · rintro ⟨hsplit, hvalue⟩
        refine ⟨data[cursor] :: slice data (cursor + 1) (cursor + 1 + count), Nat.le_of_lt hlt,
          lengthOctets_at_front_iff.mpr ?_⟩
        rw [if_neg hshort]
        refine ⟨slice data (cursor + 1) (cursor + 1 + count), rfl, ?_, ?_, ?_, ?_, hvalue⟩
        · rw [← hsplit, slice_append (Nat.le_add_right _ _) hfits]
        · rw [hlength, hnumber]
        · omega
        · omega

/-- **The header that is read is the only one the bytes start with.** Both directions are needed:
the walk must not stop early, and must not go on where the grammar has nothing. -/
theorem readHeader_spec (hstop : stop ≤ data.length) (hcursor : cursor < stop) :
    ∃ read, readHeader data stop cursor = .ok read ∧ ∀ constructed content rest,
      Head (slice data cursor stop) constructed content rest ↔
        Reads data read content rest ∧ read.map Header.constructed = some constructed := by
  have hdata : cursor < data.length := Nat.lt_of_lt_of_le hcursor hstop
  obtain ⟨after, hafter, hafterSpec⟩ := afterTag_spec hstop hcursor data[cursor]
  obtain ⟨read, hread, hconstructed, hreadSpec⟩ :=
    @readLength_spec _ _ _ _ data[cursor].toNat after.property hstop
  refine ⟨read, ?_, ?_⟩
  · rw [readHeader, if_neg (Nat.not_le.mpr hdata), byteAt_eq_ok hdata]
    show (afterTag data stop data[cursor].toNat cursor >>= _) = _
    rw [hafter]
    exact hread
  · intro constructed content rest
    rw [← hreadSpec]
    constructor
    · rintro ⟨first, tag, octets, hsplit, htag, hoctets, rfl⟩
      rw [slice_cons hcursor hdata] at hsplit
      obtain ⟨rfl, htail⟩ := List.cons.inj hsplit
      obtain ⟨hle, -, hrest⟩ := (hafterSpec tag _).mp ⟨htail, htag⟩
      have hoctets : ∃ octets, after.val ≤ stop ∧
          slice data after.val stop = octets ++ (content ++ rest) ∧
            LengthOctets octets content.length := ⟨octets, hle, hrest.symm, hoctets⟩
      obtain ⟨header, hheader, -⟩ := (hreadSpec content rest).mp hoctets
      refine ⟨hoctets, ?_⟩
      rw [hheader, Option.map_some, hconstructed header hheader]
      rfl
    · rintro ⟨⟨octets, hle, hsplit, hoctets⟩, hbit⟩
      obtain ⟨header, hheader, rfl⟩ := Option.map_eq_some_iff.mp hbit
      obtain ⟨htagSplit, htag⟩ := (hafterSpec _ _).mpr ⟨hle, rfl, rfl⟩
      refine ⟨data[cursor], _, octets, ?_, htag, hoctets, hconstructed header hheader⟩
      rw [slice_cons hcursor hdata, htagSplit, hsplit]

/-! ## The walk -/

/-- A header that was read ties the nesting of the bytes to that of its content and of the rest. -/
theorem nested_of_header (hstop : stop ≤ data.length) (hcursor : cursor < stop)
    {header : Header cursor stop} (hread : readHeader data stop cursor = .ok (some header)) {d : Nat} :
    Nested (slice data cursor stop) d ↔
      if header.constructed then
        ∃ inner outer, Nested (slice data header.valueStart header.valueEnd) inner ∧
          Nested (slice data header.valueEnd stop) outer ∧ d = max (inner + 1) outer
      else Nested (slice data header.valueEnd stop) d := by
  obtain ⟨read, hread', hspec⟩ := readHeader_spec hstop hcursor
  obtain rfl : some header = read := Except.ok.inj (hread.symm.trans hread')
  refine nested_iff_of_head ((hspec _ _ _).mpr ⟨⟨header, rfl, rfl, rfl⟩, rfl⟩) ?_
  intro constructed content rest hhead
  obtain ⟨⟨header', hsome, hcontent, hrest⟩, hbit⟩ := (hspec _ _ _).mp hhead
  obtain rfl := Option.some.inj hsome
  exact ⟨(Option.some.inj hbit).symm, hcontent, hrest⟩

/-- Bytes no header is read from are no concatenation of values. -/
theorem not_nested_of_no_header (hstop : stop ≤ data.length) (hcursor : cursor < stop)
    (hread : readHeader data stop cursor = .ok none) {d : Nat} :
    ¬ Nested (slice data cursor stop) d := by
  obtain ⟨read, hread', hspec⟩ := readHeader_spec hstop hcursor
  obtain rfl : none = read := Except.ok.inj (hread.symm.trans hread')
  intro hnested
  have hne : slice data cursor stop ≠ [] := by
    rw [slice_cons hcursor (Nat.lt_of_lt_of_le hcursor hstop)]
    exact List.cons_ne_nil _ _
  obtain ⟨constructed, content, rest, hhead⟩ := exists_head_of_nested hnested hne
  exact not_reads_none ((hspec constructed content rest).mp hhead).1

section

variable {maxDepth depth deepest : Nat} {header : Header cursor stop}

theorem walkFrom_hostile (hlt : cursor < stop) (hread : readHeader data stop cursor = .ok none) :
    walkFrom data maxDepth stop depth cursor deepest = .ok (maxDepth + 1) := by
  rw [walkFrom, if_pos hlt, hread]
  rfl

theorem walkFrom_primitive (hlt : cursor < stop)
    (hread : readHeader data stop cursor = .ok (some header)) (hbit : header.constructed = false) :
    walkFrom data maxDepth stop depth cursor deepest =
      walkFrom data maxDepth stop depth header.valueEnd deepest := by
  rw [walkFrom, if_pos hlt, hread]
  show (if header.constructed = true then _ else _) = _
  rw [hbit, if_neg Bool.false_ne_true]

theorem walkFrom_atLimit (hlt : cursor < stop)
    (hread : readHeader data stop cursor = .ok (some header)) (hbit : header.constructed = true)
    (hlimit : maxDepth < depth + 1) :
    walkFrom data maxDepth stop depth cursor deepest = .ok (max deepest (depth + 1)) := by
  have hover : maxDepth < max deepest (depth + 1) := Nat.lt_of_lt_of_le hlimit (Nat.le_max_right _ _)
  rw [walkFrom, if_pos hlt, hread]
  show (if header.constructed = true then _ else _) = _
  rw [if_pos hbit, if_pos hlimit]
  show (if maxDepth < max deepest (depth + 1) then _ else _) = _
  rw [if_pos hover]
  rfl

theorem walkFrom_constructed (hlt : cursor < stop)
    (hread : readHeader data stop cursor = .ok (some header)) (hbit : header.constructed = true)
    (hlimit : ¬ maxDepth < depth + 1) {inner : Nat}
    (hinner : walkFrom data maxDepth header.valueEnd (depth + 1) header.valueStart (depth + 1) =
      .ok inner) :
    walkFrom data maxDepth stop depth cursor deepest =
      if maxDepth < max deepest inner then .ok (max deepest inner)
      else walkFrom data maxDepth stop depth header.valueEnd (max deepest inner) := by
  rw [walkFrom, if_pos hlt, hread]
  show (if header.constructed = true then _ else _) = _
  rw [if_pos hbit, if_neg hlimit, hinner]
  rfl

end

/-- The walk's answer for the bytes at `cursor`, below `depth` levels and with `deepest` so far. It
is the specification of the walk at any point of it: what it returns, in terms of the derivations of
the bytes that are left. -/
structure Walked (data : List UInt8) (maxDepth stop depth cursor deepest v : Nat) : Prop where
  le : v ≤ maxDepth + 1
  of_nested : ∀ d, Nested (slice data cursor stop) d → depth + d ≤ maxDepth →
    v = max deepest (depth + d)
  nested : v ≤ maxDepth → ∃ d, Nested (slice data cursor stop) d ∧ v = max deepest (depth + d)

/-- An answer above the limit is right where nothing nests within it. -/
theorem Walked.hostile {maxDepth depth deepest : Nat}
    (h : ∀ d, Nested (slice data cursor stop) d → maxDepth < depth + d) :
    Walked data maxDepth stop depth cursor deepest (maxDepth + 1) where
  le := Nat.le_refl _
  of_nested := by
    intro d hd hle
    exact absurd (h d hd) (Nat.not_lt.mpr hle)
  nested := by
    intro hle
    exact absurd hle (Nat.not_succ_le_self maxDepth)

theorem walkFrom_spec {maxDepth : Nat} (hstop : stop ≤ data.length) (hcursor : cursor ≤ stop)
    {depth deepest : Nat} (hdepth : depth ≤ deepest) (hdeepest : deepest ≤ maxDepth) :
    ∃ v, walkFrom data maxDepth stop depth cursor deepest = .ok v ∧
      Walked data maxDepth stop depth cursor deepest v := by
  -- The induction is on the bytes left to the end of the enclosing value.
  induction hleft : stop - cursor using Nat.strongRecOn generalizing stop depth cursor deepest with
  | ind left ih =>
  subst hleft
  by_cases hlt : cursor < stop
  swap
  · obtain rfl : cursor = stop := Nat.le_antisymm hcursor (Nat.not_lt.mp hlt)
    refine ⟨deepest, by rw [walkFrom, if_neg hlt]; rfl, Nat.le_succ_of_le hdeepest, ?_, ?_⟩
    · intro d hd _
      rw [slice_self, nested_nil_iff] at hd
      omega
    · intro _
      refine ⟨0, ?_, by omega⟩
      rw [slice_self]
      exact .nil
  obtain ⟨read, hread, -⟩ := readHeader_spec hstop hlt
  cases read with
  | none =>
    refine ⟨maxDepth + 1, walkFrom_hostile hlt hread, .hostile ?_⟩
    intro d hd
    exact absurd hd (not_nested_of_no_header hstop hlt hread)
  | some header =>
    have hvalueStart := header.start_gt
    have hvalueEnd := header.start_le
    have hend := header.end_le
    have hnested := fun d => nested_of_header (d := d) hstop hlt hread
    cases hbit : header.constructed with
    | false =>
      obtain ⟨v, hv, hwalked⟩ := ih (stop - header.valueEnd) (by omega) hstop hend hdepth hdeepest rfl
      simp only [hbit, Bool.false_eq_true, if_false] at hnested
      refine ⟨v, ?_, hwalked.le, ?_, ?_⟩
      · rw [walkFrom_primitive hlt hread hbit, hv]
      · intro d hd hle
        exact hwalked.of_nested d ((hnested d).mp hd) hle
      · intro hle
        obtain ⟨d, hd, hvd⟩ := hwalked.nested hle
        exact ⟨d, (hnested d).mpr hd, hvd⟩
    | true =>
      simp only [hbit, if_true] at hnested
      by_cases hlimit : maxDepth < depth + 1
      · refine ⟨maxDepth + 1, ?_, .hostile ?_⟩
        · rw [walkFrom_atLimit hlt hread hbit hlimit]
          congr 1
          omega
        · intro d hd
          obtain ⟨inner, outer, -, -, rfl⟩ := (hnested d).mp hd
          omega
      obtain ⟨inner, hinner, hinside⟩ := ih (header.valueEnd - header.valueStart) (by omega)
        (Nat.le_trans hend hstop) hvalueEnd (Nat.le_refl (depth + 1)) (Nat.not_lt.mp hlimit) rfl
      by_cases hover : maxDepth < max deepest inner
      · refine ⟨maxDepth + 1, ?_, .hostile ?_⟩
        · rw [walkFrom_constructed hlt hread hbit hlimit hinner, if_pos hover]
          have hle := hinside.le
          congr 1
          omega
        · intro d hd
          obtain ⟨d₁, d₂, hcontent, -, rfl⟩ := (hnested d).mp hd
          by_contra hwithin
          have hvalue := hinside.of_nested d₁ hcontent (by omega)
          omega
      obtain ⟨v, hv, hwalked⟩ := ih (stop - header.valueEnd) (by omega) hstop hend
        (Nat.le_trans hdepth (Nat.le_max_left deepest inner)) (Nat.not_lt.mp hover) rfl
      refine ⟨v, ?_, hwalked.le, ?_, ?_⟩
      · rw [walkFrom_constructed hlt hread hbit hlimit hinner, if_neg hover, hv]
      · intro d hd hle
        obtain ⟨d₁, d₂, hcontent, hrest, rfl⟩ := (hnested d).mp hd
        have hvalue := hinside.of_nested d₁ hcontent (by omega)
        have hbehind := hwalked.of_nested d₂ hrest (by omega)
        omega
      · intro hle
        obtain ⟨d₂, hrest, hbehind⟩ := hwalked.nested hle
        obtain ⟨d₁, hcontent, hvalue⟩ := hinside.nested (by omega)
        exact ⟨_, (hnested _).mpr ⟨d₁, d₂, hcontent, hrest, rfl⟩, by omega⟩

/-- **`der_nesting_depth` is an exact parser.** It returns on every input, and its answer is within
the limit just when the input is a concatenation of values that nest within the limit; then it is
how deep they nest. -/
theorem derNestingDepth_exact (data : List UInt8) (maxDepth : Nat) :
    ∃ v, derNestingDepth data maxDepth = .ok v ∧ v ≤ maxDepth + 1 ∧
      (v ≤ maxDepth ↔ ∃ d, Nested data d ∧ d ≤ maxDepth) ∧
      ∀ d, Nested data d → d ≤ maxDepth → v = d := by
  obtain ⟨v, hv, hwalked⟩ := walkFrom_spec (Nat.le_refl data.length) (Nat.zero_le data.length)
    (Nat.le_refl 0) (Nat.zero_le maxDepth)
  rw [← slice_zero_length (l := data)]
  have hexact : ∀ d, Nested (slice data 0 data.length) d → d ≤ maxDepth → v = d := by
    intro d hd hle
    have hvd := hwalked.of_nested d hd (by omega)
    omega
  refine ⟨v, ?_, hwalked.le, ?_, hexact⟩
  · rw [slice_zero_length]
    unfold derNestingDepth
    cases data with
    | nil =>
      have hempty : ¬ 0 < ([] : List UInt8).length := Nat.lt_irrefl 0
      rw [walkFrom, if_neg hempty] at hv
      exact hv
    | cons first rest => exact hv
  · constructor
    · intro hle
      obtain ⟨d, hd, hvd⟩ := hwalked.nested hle
      exact ⟨d, hd, by omega⟩
    · rintro ⟨d, hd, hle⟩
      rw [hexact d hd hle]
      exact hle

end Pki
end SecureMail
