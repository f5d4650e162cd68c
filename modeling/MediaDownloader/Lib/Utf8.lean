import Mathlib.Data.List.Basic

/-!
# UTF-8

Strict encoding of code points, which an unpaired surrogate has none of, and
decoding that skips what is malformed.

* `encode_eq_some_iff`: surrogates are all that `encode` refuses;
* `decodeIgnore_char`, `decodeIgnore_cut`: a whole character is read back, the
  beginning of one is skipped;
* `decodeIgnore_take`: so bytes cut anywhere decode to the longest prefix of the
  text that fits before the cut;
* `decode_eq_some_iff`: strict decoding is the inverse of encoding.
-/

namespace Utf8

def isSurrogate (c : Nat) : Bool := 0xD800 ≤ c && c ≤ 0xDFFF

def encodeChar (c : Nat) : List Nat :=
  if c < 0x80 then [c]
  else if c < 0x800 then [0xC0 + c / 0x40, 0x80 + c % 0x40]
  else if c < 0x10000 then [0xE0 + c / 0x1000, 0x80 + c / 0x40 % 0x40, 0x80 + c % 0x40]
  else [0xF0 + c / 0x40000, 0x80 + c / 0x1000 % 0x40, 0x80 + c / 0x40 % 0x40, 0x80 + c % 0x40]

def encode (s : List Nat) : Option (List Nat) :=
  if s.any isSurrogate then none else some (s.flatMap encodeChar)

def isTail (b : Nat) : Bool := 0x80 ≤ b && b < 0xC0

/-- The number that the bytes of one character spell, and how many they are. -/
def decodeChar : List Nat → Option (Nat × Nat)
  | a :: rest =>
    if a < 0x80 then some (a, 1)
    else
      match rest with
      | b :: rest =>
        if 0xC2 ≤ a && a < 0xE0 && isTail b then some ((a - 0xC0) * 0x40 + (b - 0x80), 2)
        else
          match rest with
          | c :: rest =>
            let three := (a - 0xE0) * 0x1000 + (b - 0x80) * 0x40 + (c - 0x80)
            if 0xE0 ≤ a && a < 0xF0 && isTail b && isTail c && 0x800 ≤ three &&
                !isSurrogate three then some (three, 3)
            else
              match rest with
              | d :: _ =>
                let four := (a - 0xF0) * 0x40000 + (b - 0x80) * 0x1000 + (c - 0x80) * 0x40 +
                  (d - 0x80)
                if 0xF0 ≤ a && a < 0xF8 && isTail b && isTail c && isTail d &&
                    0x10000 ≤ four && four < 0x110000 then some (four, 4)
                else none
              | [] => none
          | [] => none
      | [] => none
  | [] => none

/-- `bytes.decode("utf-8", errors="ignore")`; `skip` bytes are spoken for. -/
def decodeIgnore (skip : Nat) : List Nat → List Nat
  | [] => []
  | b :: bytes =>
    match skip with
    | skip + 1 => decodeIgnore skip bytes
    | 0 =>
      match decodeChar (b :: bytes) with
      | some (c, n) => c :: decodeIgnore (n - 1) bytes
      | none => decodeIgnore 0 bytes

/-- `bytes.decode("utf-8")`; `none` is the `UnicodeDecodeError`. -/
def decode (skip : Nat) : List Nat → Option (List Nat)
  | [] => some []
  | b :: bytes =>
    match skip with
    | skip + 1 => decode skip bytes
    | 0 =>
      match decodeChar (b :: bytes) with
      | some (c, n) => (decode (n - 1) bytes).map (c :: ·)
      | none => none

theorem encode_eq_some_iff (s : List Nat) :
    (∃ bytes, encode s = some bytes) ↔ ∀ c ∈ s, isSurrogate c = false := by
  unfold encode
  split
  · next h =>
    obtain ⟨c, hc, hs⟩ := List.any_eq_true.mp h
    simp only [reduceCtorEq, exists_const, false_iff, not_forall]
    exact ⟨c, hc, by simp [hs]⟩
  · next h => simpa using h

/-! ## Cutting the bytes of a text -/

/-- A code point that has bytes. -/
def IsScalar (c : Nat) : Prop := isSurrogate c = false ∧ c < 0x110000

def byteLength (s : List Nat) : Nat := (s.flatMap encodeChar).length

/-- The characters of `s` up to the first that does not fit in `n` bytes. -/
def fitting (n : Nat) : List Nat → List Nat
  | [] => []
  | c :: s => if (encodeChar c).length ≤ n then c :: fitting (n - (encodeChar c).length) s else []

/-- The longest prefix of `s` that fits in `n` bytes. -/
structure IsLongestFitting (n : Nat) (s p : List Nat) : Prop where
  isPrefix : p <+: s
  fits : byteLength p ≤ n
  longest : ∀ q, q <+: s → byteLength q ≤ n → q.length ≤ p.length

@[simp] theorem byteLength_nil : byteLength [] = 0 := rfl

@[simp] theorem byteLength_cons (c : Nat) (s : List Nat) :
    byteLength (c :: s) = (encodeChar c).length + byteLength s := by
  simp [byteLength]

theorem byteLength_append (s t : List Nat) : byteLength (s ++ t) = byteLength s + byteLength t := by
  simp [byteLength]

theorem fitting_isLongest (n : Nat) (s : List Nat) : IsLongestFitting n s (fitting n s) := by
  induction s generalizing n with
  | nil => exact ⟨List.prefix_rfl, Nat.zero_le n, fun q hq _ => hq.length_le⟩
  | cons c s ih =>
    unfold fitting
    by_cases hc : (encodeChar c).length ≤ n
    · obtain ⟨hpre, hfits, hlongest⟩ := ih (n - (encodeChar c).length)
      rw [if_pos hc]
      refine ⟨(List.prefix_cons_inj c).mpr hpre, ?_, fun q hq hb => ?_⟩
      · rw [byteLength_cons]
        omega
      · cases q with
        | nil => exact Nat.zero_le _
        | cons d q =>
          obtain ⟨rfl, htail⟩ := List.cons_prefix_cons.mp hq
          rw [byteLength_cons] at hb
          exact Nat.succ_le_succ (hlongest q htail (by omega))
    · rw [if_neg hc]
      refine ⟨List.nil_prefix, Nat.zero_le n, fun q hq hb => ?_⟩
      cases q with
      | nil => exact Nat.zero_le _
      | cons d q =>
        obtain ⟨rfl, -⟩ := List.cons_prefix_cons.mp hq
        rw [byteLength_cons] at hb
        omega

theorem fitting_eq_self {n : Nat} {s : List Nat} (h : byteLength s ≤ n) : fitting n s = s := by
  induction s generalizing n with
  | nil => rfl
  | cons c s ih =>
    rw [byteLength_cons] at h
    rw [fitting, if_pos (by omega), ih (by omega)]

/-! ## One character -/

theorem isTail_tail (n : Nat) : isTail (0x80 + n % 0x40) = true := by
  simp only [isTail, Bool.and_eq_true, decide_eq_true_eq]
  omega

section Lead

variable {a b c d : Nat}

theorem decodeChar_two (ha : 0xC2 ≤ a) (ha' : a < 0xE0) (hb : isTail b = true) (rest : List Nat) :
    decodeChar (a :: b :: rest) = some ((a - 0xC0) * 0x40 + (b - 0x80), 2) := by
  have hlead : ¬ a < 0x80 := by omega
  simp [decodeChar, hlead, ha, ha', hb]

theorem decodeChar_three {n : Nat} (ha : 0xE0 ≤ a) (ha' : a < 0xF0) (hb : isTail b = true)
    (hc : isTail c = true) (hn : (a - 0xE0) * 0x1000 + (b - 0x80) * 0x40 + (c - 0x80) = n)
    (hlow : 0x800 ≤ n) (hsurrogate : isSurrogate n = false) (rest : List Nat) :
    decodeChar (a :: b :: c :: rest) = some (n, 3) := by
  have hlead : ¬ a < 0x80 := by omega
  have htwo : ¬ a < 0xE0 := by omega
  simp [decodeChar, hlead, htwo, ha, ha', hb, hc, hn, hlow, hsurrogate]

theorem decodeChar_four {n : Nat} (ha : 0xF0 ≤ a) (ha' : a < 0xF8) (hb : isTail b = true)
    (hc : isTail c = true) (hd : isTail d = true)
    (hn : (a - 0xF0) * 0x40000 + (b - 0x80) * 0x1000 + (c - 0x80) * 0x40 + (d - 0x80) = n)
    (hlow : 0x10000 ≤ n) (hhigh : n < 0x110000) (rest : List Nat) :
    decodeChar (a :: b :: c :: d :: rest) = some (n, 4) := by
  have hlead : ¬ a < 0x80 := by omega
  have htwo : ¬ a < 0xE0 := by omega
  have hthree : ¬ a < 0xF0 := by omega
  simp [decodeChar, hlead, htwo, hthree, ha, ha', hb, hc, hd, hn, hlow, hhigh]

/-- A byte that is no lead, or a lead without all its tails, spells nothing. -/
theorem decodeChar_tail (hb : isTail b = true) {rest : List Nat} (hrest : rest.length ≤ 1) :
    decodeChar (b :: rest) = none := by
  simp only [isTail, Bool.and_eq_true, decide_eq_true_eq] at hb
  have hlead : ¬ b < 0x80 := by omega
  have htwo : ¬ 0xC2 ≤ b := by omega
  match rest with
  | [] => simp [decodeChar, hlead]
  | [c] => simp [decodeChar, hlead, htwo]

theorem decodeChar_short (ha : 0x80 ≤ a) : decodeChar [a] = none := by
  have hlead : ¬ a < 0x80 := by omega
  simp [decodeChar, hlead]

theorem decodeChar_short_three (ha : 0xE0 ≤ a) : decodeChar [a, b] = none := by
  have hlead : ¬ a < 0x80 := by omega
  have htwo : ¬ a < 0xE0 := by omega
  simp [decodeChar, hlead, htwo]

theorem decodeChar_short_four (ha : 0xF0 ≤ a) : decodeChar [a, b, c] = none := by
  have hlead : ¬ a < 0x80 := by omega
  have htwo : ¬ a < 0xE0 := by omega
  have hthree : ¬ a < 0xF0 := by omega
  simp [decodeChar, hlead, htwo, hthree]

end Lead

/-- The bytes of a character spell it. -/
theorem decodeChar_encodeChar {c : Nat} (hc : IsScalar c) (rest : List Nat) :
    decodeChar (encodeChar c ++ rest) = some (c, (encodeChar c).length) := by
  obtain ⟨hsurrogate, hmax⟩ := hc
  unfold encodeChar
  split
  · next h => simp [decodeChar, h]
  · split
    · refine (decodeChar_two (by omega) (by omega) (isTail_tail c) rest).trans ?_
      simp only [List.length_cons, List.length_nil, Option.some.injEq, Prod.mk.injEq, and_true]
      omega
    · split
      · exact decodeChar_three (by omega) (by omega) (isTail_tail _) (isTail_tail _) (by omega)
          (by omega) hsurrogate rest
      · exact decodeChar_four (by omega) (by omega) (isTail_tail _) (isTail_tail _) (isTail_tail _)
          (by omega) (by omega) hmax rest

theorem encodeChar_length_pos (c : Nat) : 0 < (encodeChar c).length := by
  unfold encodeChar
  split
  · exact Nat.succ_pos _
  · split
    · exact Nat.succ_pos _
    · split <;> exact Nat.succ_pos _

/-- Bytes that are spoken for are passed over. -/
theorem decodeIgnore_skip (bytes rest : List Nat) :
    decodeIgnore bytes.length (bytes ++ rest) = decodeIgnore 0 rest := by
  induction bytes with
  | nil => rfl
  | cons b bytes ih => simpa [decodeIgnore] using ih

theorem decodeIgnore_char {c : Nat} (hc : IsScalar c) (rest : List Nat) :
    decodeIgnore 0 (encodeChar c ++ rest) = c :: decodeIgnore 0 rest := by
  have hdecode := decodeChar_encodeChar hc rest
  have hpos := encodeChar_length_pos c
  cases hbytes : encodeChar c with
  | nil =>
    rw [hbytes] at hpos
    cases hpos
  | cons b bytes =>
    rw [hbytes] at hdecode
    rw [List.cons_append] at hdecode ⊢
    simp only [decodeIgnore, hdecode, List.length_cons, Nat.add_sub_cancel, decodeIgnore_skip]

theorem decodeIgnore_none {b : Nat} {bytes : List Nat} (h : decodeChar (b :: bytes) = none) :
    decodeIgnore 0 (b :: bytes) = decodeIgnore 0 bytes := by
  simp only [decodeIgnore, h]

section Cut

variable {a b c : Nat}

theorem decodeIgnore_one (ha : 0x80 ≤ a) : decodeIgnore 0 [a] = [] :=
  decodeIgnore_none (decodeChar_short ha)

theorem decodeIgnore_two (ha : 0xE0 ≤ a) (hb : 0x80 ≤ b) : decodeIgnore 0 [a, b] = [] :=
  (decodeIgnore_none (decodeChar_short_three ha)).trans (decodeIgnore_one hb)

theorem decodeIgnore_three (ha : 0xF0 ≤ a) (hb : isTail b = true) (hc : 0x80 ≤ c) :
    decodeIgnore 0 [a, b, c] = [] := by
  have htail : decodeChar [b, c] = none := decodeChar_tail hb (Nat.le_refl 1)
  rw [decodeIgnore_none (decodeChar_short_four ha), decodeIgnore_none htail, decodeIgnore_one hc]

end Cut

/-- The beginning of a character's bytes decodes to nothing. -/
theorem decodeIgnore_cut {c n : Nat} (hn : n < (encodeChar c).length) :
    decodeIgnore 0 ((encodeChar c).take n) = [] := by
  have htail (m : Nat) : 0x80 ≤ 0x80 + m % 0x40 := Nat.le_add_right _ _
  unfold encodeChar at hn ⊢
  split at hn
  · next h1 =>
    obtain rfl : n = 0 := by simpa using hn
    rfl
  · next h1 =>
    rw [if_neg h1]
    split at hn
    · next h2 =>
      rw [if_pos h2]
      match n, hn with
      | 0, _ => rfl
      | 1, _ => exact decodeIgnore_one (by omega)
    · next h2 =>
      rw [if_neg h2]
      split at hn
      · next h3 =>
        rw [if_pos h3]
        match n, hn with
        | 0, _ => rfl
        | 1, _ => exact decodeIgnore_one (by omega)
        | 2, _ => exact decodeIgnore_two (by omega) (htail _)
      · next h3 =>
        rw [if_neg h3]
        match n, hn with
        | 0, _ => rfl
        | 1, _ => exact decodeIgnore_one (by omega)
        | 2, _ => exact decodeIgnore_two (by omega) (htail _)
        | 3, _ => exact decodeIgnore_three (by omega) (isTail_tail _) (htail _)

/-- Bytes cut at `n` decode to the characters that fit before the cut. -/
theorem decodeIgnore_take {s : List Nat} (hs : ∀ c ∈ s, IsScalar c) (n : Nat) :
    decodeIgnore 0 ((s.flatMap encodeChar).take n) = fitting n s := by
  induction s generalizing n with
  | nil => simp [fitting, decodeIgnore]
  | cons c s ih =>
    rw [List.flatMap_cons, List.take_append, fitting]
    by_cases hn : (encodeChar c).length ≤ n
    · rw [if_pos hn, List.take_of_length_le hn, decodeIgnore_char (hs c List.mem_cons_self),
        ih fun d hd => hs d (List.mem_cons_of_mem c hd)]
    · have hzero : n - (encodeChar c).length = 0 := by omega
      rw [if_neg hn, hzero, List.take_zero, List.append_nil, decodeIgnore_cut (by omega)]

/-! ## Strict decoding -/

section Spelled

variable {a b c d n : Nat}

theorem encodeChar_two (ha : 0xC2 ≤ a) (ha' : a < 0xE0) (hb : isTail b = true)
    (hn : (a - 0xC0) * 0x40 + (b - 0x80) = n) : IsScalar n ∧ encodeChar n = [a, b] := by
  simp only [isTail, Bool.and_eq_true, decide_eq_true_eq] at hb
  refine ⟨⟨?_, by omega⟩, ?_⟩
  · simp only [isSurrogate, Bool.and_eq_false_iff, decide_eq_false_iff_not]
    omega
  · rw [encodeChar, if_neg (by omega), if_pos (by omega), List.cons.injEq, List.cons.injEq]
    exact ⟨by omega, by omega, rfl⟩

theorem encodeChar_three (ha : 0xE0 ≤ a) (ha' : a < 0xF0) (hb : isTail b = true)
    (hc : isTail c = true) (hn : (a - 0xE0) * 0x1000 + (b - 0x80) * 0x40 + (c - 0x80) = n)
    (hlow : 0x800 ≤ n) (hsurrogate : isSurrogate n = false) :
    IsScalar n ∧ encodeChar n = [a, b, c] := by
  simp only [isTail, Bool.and_eq_true, decide_eq_true_eq] at hb hc
  refine ⟨⟨hsurrogate, by omega⟩, ?_⟩
  rw [encodeChar, if_neg (by omega), if_neg (by omega), if_pos (by omega), List.cons.injEq,
    List.cons.injEq, List.cons.injEq]
  exact ⟨by omega, by omega, by omega, rfl⟩

theorem encodeChar_four (ha : 0xF0 ≤ a) (hb : isTail b = true) (hc : isTail c = true)
    (hd : isTail d = true)
    (hn : (a - 0xF0) * 0x40000 + (b - 0x80) * 0x1000 + (c - 0x80) * 0x40 + (d - 0x80) = n)
    (hlow : 0x10000 ≤ n) (hhigh : n < 0x110000) : IsScalar n ∧ encodeChar n = [a, b, c, d] := by
  simp only [isTail, Bool.and_eq_true, decide_eq_true_eq] at hb hc hd
  refine ⟨⟨?_, hhigh⟩, ?_⟩
  · simp only [isSurrogate, Bool.and_eq_false_iff, decide_eq_false_iff_not]
    omega
  · rw [encodeChar, if_neg (by omega), if_neg (by omega), if_neg (by omega), List.cons.injEq,
      List.cons.injEq, List.cons.injEq, List.cons.injEq]
    exact ⟨by omega, by omega, by omega, by omega, rfl⟩

/-- What spells a character begins with its bytes. -/
theorem encodeChar_of_decodeChar {bytes : List Nat} (h : decodeChar bytes = some (c, n)) :
    IsScalar c ∧ ∃ rest, bytes = encodeChar c ++ rest := by
  have found {m : Nat} (spelled : List Nat) {rest : List Nat} (hm : some (m, spelled.length) = some (c, n))
      (hspelled : IsScalar m ∧ encodeChar m = spelled) :
      IsScalar c ∧ ∃ rest', spelled ++ rest = encodeChar c ++ rest' := by
    cases hm
    exact ⟨hspelled.1, rest, by rw [hspelled.2]⟩
  rcases bytes with _ | ⟨a, rest⟩
  · cases h
  unfold decodeChar at h
  simp only at h
  by_cases h1 : a < 0x80
  · rw [if_pos h1] at h
    have hone : IsScalar a ∧ encodeChar a = [a] := by
      refine ⟨⟨?_, by omega⟩, if_pos h1⟩
      simp only [isSurrogate, Bool.and_eq_false_iff, decide_eq_false_iff_not]
      omega
    exact found [a] h hone
  rw [if_neg h1] at h
  rcases rest with _ | ⟨b, rest⟩
  · cases h
  simp only at h
  split at h
  · next h2 =>
    simp only [Bool.and_eq_true, decide_eq_true_eq] at h2
    exact found [a, b] h (encodeChar_two h2.1.1 h2.1.2 h2.2 rfl)
  rcases rest with _ | ⟨c', rest⟩
  · cases h
  simp only at h
  split at h
  · next h3 =>
    simp only [Bool.and_eq_true, decide_eq_true_eq, Bool.not_eq_true'] at h3
    exact found [a, b, c'] h
      (encodeChar_three h3.1.1.1.1.1 h3.1.1.1.1.2 h3.1.1.1.2 h3.1.1.2 rfl h3.1.2 h3.2)
  rcases rest with _ | ⟨d, rest⟩
  · cases h
  simp only at h
  split at h
  · next h4 =>
    simp only [Bool.and_eq_true, decide_eq_true_eq] at h4
    exact found [a, b, c', d] h
      (encodeChar_four h4.1.1.1.1.1.1 h4.1.1.1.1.2 h4.1.1.1.2 h4.1.1.2 rfl h4.1.2 h4.2)
  · cases h

end Spelled

theorem decode_skip (bytes rest : List Nat) :
    decode bytes.length (bytes ++ rest) = decode 0 rest := by
  induction bytes with
  | nil => rfl
  | cons b bytes ih => simpa [decode] using ih

theorem decode_char {c : Nat} (hc : IsScalar c) (rest : List Nat) :
    decode 0 (encodeChar c ++ rest) = (decode 0 rest).map (c :: ·) := by
  have hdecode := decodeChar_encodeChar hc rest
  have hpos := encodeChar_length_pos c
  cases hbytes : encodeChar c with
  | nil =>
    rw [hbytes] at hpos
    cases hpos
  | cons b bytes =>
    rw [hbytes] at hdecode
    rw [List.cons_append] at hdecode ⊢
    simp only [decode, hdecode, List.length_cons, Nat.add_sub_cancel, decode_skip]

theorem decode_flatMap {s : List Nat} (hs : ∀ c ∈ s, IsScalar c) :
    decode 0 (s.flatMap encodeChar) = some s := by
  induction s with
  | nil => rfl
  | cons c s ih =>
    rw [List.flatMap_cons, decode_char (hs c List.mem_cons_self),
      ih fun d hd => hs d (List.mem_cons_of_mem c hd)]
    rfl

theorem decode_eq_some_iff (bytes s : List Nat) :
    decode 0 bytes = some s ↔ (∀ c ∈ s, IsScalar c) ∧ s.flatMap encodeChar = bytes := by
  constructor
  · intro h
    induction hlength : bytes.length using Nat.strongRecOn generalizing bytes s with
    | ind length ih =>
      subst hlength
      cases bytes with
      | nil =>
        cases h
        exact ⟨fun c hc => (by cases hc), rfl⟩
      | cons b bytes =>
        cases hchar : decodeChar (b :: bytes) with
        | none => simp [decode, hchar] at h
        | some found =>
          obtain ⟨c, n⟩ := found
          obtain ⟨hc, rest, hsplit⟩ := encodeChar_of_decodeChar hchar
          have hpos := encodeChar_length_pos c
          rw [hsplit, decode_char hc] at h
          obtain ⟨s', hs', rfl⟩ := Option.map_eq_some_iff.mp h
          have hshort : rest.length < (b :: bytes).length := by
            rw [hsplit, List.length_append]
            omega
          obtain ⟨hscalar, hbytes⟩ := ih _ hshort rest s' hs' rfl
          refine ⟨fun d hd => ?_, ?_⟩
          · rcases List.mem_cons.mp hd with rfl | hd
            · exact hc
            · exact hscalar d hd
          · rw [List.flatMap_cons, hbytes, hsplit]
  · rintro ⟨hs, rfl⟩
    exact decode_flatMap hs

end Utf8
