import Mathlib.Data.List.Chain
import MediaDownloader.Domain.DeliveryFilename

/-!
# Delivered names are safe

What each step of `delivery_filename` establishes, and that the later ones
keep it.

* `sanitize_char`, `sanitize_spaced`: the sanitized title;
* `deliveryFilename_eq`: the name is made of the longest part of it that fits;
* `delivered_name_safe`: and so it is safe on every file system it may reach.
-/

namespace MediaDownloader

open Utf8

/-! ## Spaces -/

/-- No whitespace but single spaces. -/
structure Spaced (s : Str) : Prop where
  space : ∀ c ∈ s, isSpace c = true → c = 32
  single : s.IsChain fun a b => a ≠ 32 ∨ b ≠ 32

theorem Spaced.mono {s t : Str} (h : Spaced s) (ht : t <:+: s) : Spaced t :=
  ⟨fun c hc => h.space c (ht.subset hc), h.single.infix ht⟩

/-- The words of a text: none is empty or has whitespace, and their characters
come from the text. -/
theorem splitWords_parts (word s : Str) (hword : ∀ c ∈ word, isSpace c = false) :
    ∀ part ∈ splitWords word s,
      part ≠ [] ∧ ∀ c ∈ part, isSpace c = false ∧ (c ∈ word ∨ c ∈ s) := by
  induction s generalizing word with
  | nil =>
    intro part hpart
    unfold splitWords at hpart
    split at hpart
    · cases hpart
    · next hne =>
      obtain rfl := List.mem_singleton.mp hpart
      refine ⟨by simpa using hne, fun c hc => ?_⟩
      exact ⟨hword c (List.mem_reverse.mp hc), .inl (List.mem_reverse.mp hc)⟩
  | cons d s ih =>
    intro part hpart
    unfold splitWords at hpart
    have hnil : ∀ part ∈ splitWords [] s,
        part ≠ [] ∧ ∀ c ∈ part, isSpace c = false ∧ (c ∈ word ∨ c ∈ d :: s) := by
      intro part hpart
      obtain ⟨hne, hchars⟩ := ih [] (by simp) part hpart
      refine ⟨hne, fun c hc => ⟨(hchars c hc).1, .inr (List.mem_cons_of_mem d ?_)⟩⟩
      simpa using (hchars c hc).2
    split at hpart
    · split at hpart
      · exact hnil part hpart
      · next hne =>
        rcases List.mem_cons.mp hpart with rfl | hpart
        · refine ⟨by simpa using hne, fun c hc => ?_⟩
          exact ⟨hword c (List.mem_reverse.mp hc), .inl (List.mem_reverse.mp hc)⟩
        · exact hnil part hpart
    · next hspace =>
      have hword' : ∀ c ∈ d :: word, isSpace c = false := by
        intro c hc
        rcases List.mem_cons.mp hc with rfl | hc
        · simpa using hspace
        · exact hword c hc
      obtain ⟨hne, hchars⟩ := ih (d :: word) hword' part hpart
      refine ⟨hne, fun c hc => ⟨(hchars c hc).1, ?_⟩⟩
      have := (hchars c hc).2
      simp only [List.mem_cons] at this ⊢
      tauto

theorem isChain_of_forall_ne {s : Str} (h : ∀ c ∈ s, c ≠ 32) :
    s.IsChain fun a b => a ≠ 32 ∨ b ≠ 32 := by
  induction s with
  | nil => exact .nil
  | cons c s ih =>
    exact (ih fun d hd => h d (List.mem_cons_of_mem c hd)).cons fun d _ =>
      .inl (h c List.mem_cons_self)

theorem ne_space {c : Nat} (h : isSpace c = false) : c ≠ 32 := by
  rintro rfl
  cases h

/-- Words joined by single spaces, the first character being one of a word. -/
theorem join_spaced {parts : List Str}
    (h : ∀ part ∈ parts, part ≠ [] ∧ ∀ c ∈ part, isSpace c = false) :
    Spaced (join [32] parts) ∧ ∀ c ∈ (join [32] parts).head?, isSpace c = false := by
  induction parts with
  | nil => exact ⟨⟨fun c hc => (nomatch hc), .nil⟩, fun c hc => nomatch hc⟩
  | cons part parts ih =>
    obtain ⟨hne, hchars⟩ := h part List.mem_cons_self
    have hplain := isChain_of_forall_ne fun c hc => ne_space (hchars c hc)
    obtain ⟨d, part', rfl⟩ := List.exists_cons_of_ne_nil hne
    cases parts with
    | nil =>
      refine ⟨⟨fun c hc hs => ?_, hplain⟩, ?_⟩
      · rw [hchars c hc] at hs
        cases hs
      · rintro c ⟨rfl⟩
        exact hchars _ List.mem_cons_self
    | cons next parts =>
      obtain ⟨hrest, hhead⟩ := ih fun part hpart => h part (List.mem_cons_of_mem _ hpart)
      rw [join]
      · refine ⟨⟨fun c hc hs => ?_, ?_⟩, ?_⟩
        · rcases List.mem_append.mp hc with hc | hc
          · rcases List.mem_append.mp hc with hc | hc
            · rw [hchars c hc] at hs
              cases hs
            · exact List.mem_singleton.mp hc
          · exact hrest.space c hc hs
        · refine List.IsChain.append (List.IsChain.append hplain (.singleton 32) ?_) hrest.single ?_
          · intro a ha b _
            exact .inl (ne_space (hchars a (List.mem_of_getLast? ha)))
          · intro a _ b hb
            exact .inr (ne_space (hhead b hb))
        · rintro c ⟨rfl⟩
          exact hchars _ List.mem_cons_self
      · simp

/-! ## The sanitized title -/

theorem trimmed_within (s : Str) : trimmed s <:+: s := trim_infix _ s

theorem trimmed_trimmed (s : Str) : trimmed (trimmed s) = trimmed s := trim_trim _ s

/-- Trimmed text neither begins nor ends with a space or a dot. -/
theorem trimmed_ends (s : Str) :
    (∀ c ∈ (trimmed s).head?, c ≠ 32 ∧ c ≠ 46) ∧ ∀ c ∈ (trimmed s).getLast?, c ≠ 32 ∧ c ≠ 46 := by
  constructor
  · intro c hc
    obtain ⟨t, ht⟩ := List.head?_eq_some_iff.mp hc
    simpa using trim_head ht
  · intro c hc
    have hne : trimmed s ≠ [] := by
      intro hnil
      rw [hnil] at hc
      cases hc
    obtain rfl : (trimmed s).getLast hne = c := by
      rw [List.getLast?_eq_some_getLast hne] at hc
      exact Option.some.inj hc
    have hlast := List.rdropWhile_last_not _ _ hne
    simpa [trimmed] using hlast

section Sanitized

variable {u : UnicodeData} {title : Str}

/-- A character of the sanitized title is a space, or one of the normalized title
that is neither whitespace, nor dropped, nor forbidden. -/
theorem sanitize_char {c : Nat} (hc : c ∈ sanitize u title) :
    c = 32 ∨ (c ∈ u.nfc title ∧ isSpace c = false ∧ u.isDropped c = false ∧ c ∉ forbidden) := by
  have hjoin := (trimmed_within _).subset hc
  by_cases h32 : c = 32
  · exact .inl h32
  · rw [mem_join (by simpa [str] using h32)] at hjoin
    obtain ⟨part, hpart, hcpart⟩ := hjoin
    obtain ⟨-, hchars⟩ := splitWords_parts [] _ (by simp) part hpart
    obtain ⟨hspace, hmem⟩ := hchars c hcpart
    obtain ⟨d, hd, hdc⟩ := List.mem_map.mp (hmem.resolve_left List.not_mem_nil)
    obtain ⟨hnfc, hkept⟩ := List.mem_filter.mp hd
    split at hdc
    · exact absurd hdc.symm h32
    · next hforbidden =>
      subst hdc
      refine .inr ⟨hnfc, hspace, ?_, hforbidden⟩
      rcases Bool.or_eq_true_iff.mp hkept with hkept | hcontrol
      · simpa using hkept
      · -- A tab or a line break is whitespace, and no word has it.
        have hwhite : ∀ d ∈ str "\t\n\r", isSpace d = true := by decide
        rw [hwhite d (of_decide_eq_true hcontrol)] at hspace
        cases hspace

theorem sanitize_spaced (u : UnicodeData) (title : Str) : Spaced (sanitize u title) := by
  have hparts (s : Str) : ∀ part ∈ splitWords [] s, part ≠ [] ∧ ∀ c ∈ part, isSpace c = false := by
    intro part hpart
    obtain ⟨hne, hchars⟩ := splitWords_parts [] s (by simp) part hpart
    exact ⟨hne, fun c hc => (hchars c hc).1⟩
  exact (join_spaced (hparts _)).1.mono (trimmed_within _)

theorem trimmed_sanitize (u : UnicodeData) (title : Str) :
    trimmed (sanitize u title) = sanitize u title := trimmed_trimmed _

theorem sanitize_scalar (hnfc : ∀ s, (∀ c ∈ s, IsScalar c) → ∀ c ∈ u.nfc s, IsScalar c)
    (ht : ∀ c ∈ title, IsScalar c) : ∀ c ∈ sanitize u title, IsScalar c := by
  intro c hc
  rcases sanitize_char hc with rfl | ⟨hmem, -⟩
  · exact ⟨rfl, by decide⟩
  · exact hnfc title ht c hmem

end Sanitized

/-! ## The name -/

/-- Nothing in the stem is dangerous on a file system it may be saved to. -/
structure SafeStem (u : UnicodeData) (stem : Str) : Prop where
  nonempty : stem ≠ []
  allowed : ∀ c ∈ stem, c ∉ forbidden
  kept : ∀ c ∈ stem, u.isDropped c = false
  spaced : Spaced stem
  starts : ∀ c ∈ stem.head?, c ≠ 32 ∧ c ≠ 46
  ends : ∀ c ∈ stem.getLast?, c ≠ 32 ∧ c ≠ 46

theorem encodeUtf8_scalar {s : Str} (h : ∀ c ∈ s, IsScalar c) :
    encodeUtf8 s = .ok (s.flatMap encodeChar) := by
  have hplain : s.any isSurrogate = false := by
    rw [List.any_eq_false]
    intro c hc
    simp [(h c hc).1]
  simp [encodeUtf8, encode, hplain]

theorem encodeUtf8_ok {s : Str} {bytes : List Nat} (h : encodeUtf8 s = .ok bytes) :
    bytes = s.flatMap encodeChar := by
  unfold encodeUtf8 encode at h
  split at h
  · next hsome =>
    split at hsome
    · cases hsome
    · rw [← Except.ok.inj h, ← Option.some.inj hsome]
  · cases h

/-- Cutting keeps the characters that fit. -/
theorem truncateUtf8_scalar {text : Str} (h : ∀ c ∈ text, IsScalar c) (n : Nat) :
    truncateUtf8 text n = .ok (fitting n text) := by
  unfold truncateUtf8
  rw [encodeUtf8_scalar h, Interaction.ok_bind]
  split
  · next hfits => rw [fitting_eq_self (Int.ofNat_le.mp hfits)]
  · rw [Int.toNat_natCast, decodeIgnore_take h]

theorem byteLength_mono {s t : Str} (h : s <:+: t) : byteLength s ≤ byteLength t := by
  obtain ⟨u, v, rfl⟩ := h
  rw [byteLength_append, byteLength_append]
  omega

section Name

variable {u : UnicodeData} {title : Option Str} {path : Str}

/-- The stem before it is checked: what fits of the sanitized title, trimmed. -/
def nameStem (u : UnicodeData) (title : Option Str) (budget : Nat) : Str :=
  trimmed (fitting budget (sanitize u (title.getD [])))

theorem nameStem_within (budget : Nat) : nameStem u title budget <:+: sanitize u (title.getD []) :=
  (trimmed_within _).trans (fitting_isLongest _ _).isPrefix.isInfix

theorem deliveryFilename_eq (hnfc : ∀ s, (∀ c ∈ s, IsScalar c) → ∀ c ∈ u.nfc s, IsScalar c)
    (ht : ∀ c ∈ title.getD [], IsScalar c) {suffixBytes : List Nat}
    (hs : encodeUtf8 (pathSuffix path) = .ok suffixBytes) (hlen : suffixBytes.length ≤ 180) :
    deliveryFilename u title path = .ok
      (if nameStem u title (180 - suffixBytes.length) = [] then pathName path
      else nameStem u title (180 - suffixBytes.length) ++ pathSuffix path) := by
  have hbudget : maxFilenameBytes - suffixBytes.length =
      ((180 - suffixBytes.length : Nat) : Int) := by
    unfold maxFilenameBytes
    omega
  by_cases hnil : nameStem u title (180 - suffixBytes.length) = []
  · rw [if_pos hnil]
    rw [nameStem] at hnil
    simp only [deliveryFilename, hs, Interaction.ok_bind, hbudget,
      truncateUtf8_scalar (sanitize_scalar hnfc ht), hnil]
    rfl
  · rw [if_neg hnil]
    have hne : (trimmed (fitting (180 - suffixBytes.length)
        (sanitize u (title.getD [])))).isEmpty = false := by
      simpa [nameStem] using hnil
    simp only [deliveryFilename, hs, Interaction.ok_bind, hbudget,
      truncateUtf8_scalar (sanitize_scalar hnfc ht), hne]
    rfl

theorem nameStem_safe (hspace : u.isDropped 32 = false) {budget : Nat}
    (hne : nameStem u title budget ≠ []) : SafeStem u (nameStem u title budget) := by
  have hwithin : nameStem u title budget <:+: sanitize u (title.getD []) :=
    nameStem_within budget
  have hsanitized {c : Nat} (hc : c ∈ nameStem u title budget) := sanitize_char (hwithin.subset hc)
  refine ⟨hne, fun c hc => ?_, fun c hc => ?_, (sanitize_spaced u _).mono hwithin,
    (trimmed_ends _).1, (trimmed_ends _).2⟩
  · rcases hsanitized hc with rfl | ⟨-, -, -, hforbidden⟩
    · decide
    · exact hforbidden
  · rcases hsanitized hc with rfl | ⟨-, -, hkept, -⟩
    · exact hspace
    · exact hkept

theorem nameStem_bytes (budget : Nat) : byteLength (nameStem u title budget) ≤ budget :=
  (byteLength_mono (trimmed_within _)).trans (fitting_isLongest _ _).fits

theorem nameStem_of_fits {budget : Nat}
    (h : byteLength (sanitize u (title.getD [])) ≤ budget) :
    nameStem u title budget = sanitize u (title.getD []) := by
  rw [nameStem, fitting_eq_self h, trimmed_sanitize]

end Name

/-- The delivered name: a safe stem with the suffix of the path, in 180 bytes,
or the name of the path when the title leaves nothing. -/
theorem delivered_name_safe (u : UnicodeData)
    (hnfc : ∀ s, (∀ c ∈ s, IsScalar c) → ∀ c ∈ u.nfc s, IsScalar c)
    (hspace : u.isDropped 32 = false) (title : Option Str) (path : Str)
    (ht : ∀ c ∈ title.getD [], IsScalar c) {suffixBytes : List Nat}
    (hs : encodeUtf8 (pathSuffix path) = .ok suffixBytes) (hlen : suffixBytes.length ≤ 180) :
    ∃ stem cut, stem = trimmed cut ∧
      IsLongestFitting (180 - suffixBytes.length) (sanitize u (title.getD [])) cut ∧
      (byteLength (sanitize u (title.getD [])) ≤ 180 - suffixBytes.length →
        stem = sanitize u (title.getD [])) ∧
      (stem = [] → deliveryFilename u title path = .ok (pathName path)) ∧
      (stem ≠ [] → deliveryFilename u title path = .ok (stem ++ pathSuffix path) ∧
        SafeStem u stem ∧
        ∃ bytes, encodeUtf8 (stem ++ pathSuffix path) = .ok bytes ∧ bytes.length ≤ 180) := by
  have hname := deliveryFilename_eq hnfc ht hs hlen
  refine ⟨nameStem u title (180 - suffixBytes.length), _, rfl, fitting_isLongest _ _,
    nameStem_of_fits, fun hnil => ?_, fun hne => ⟨?_, nameStem_safe hspace hne, ?_⟩⟩
  · rw [hname, if_pos hnil]
  · rw [hname, if_neg hne]
  · have hencodable : ∀ c ∈ nameStem u title (180 - suffixBytes.length) ++ pathSuffix path,
        isSurrogate c = false := by
      intro c hc
      rcases List.mem_append.mp hc with hc | hc
      · exact (sanitize_scalar hnfc ht c ((nameStem_within _).subset hc)).1
      · exact (encodeUtf8_ok_iff _).mp ⟨_, hs⟩ c hc
    obtain ⟨bytes, hbytes⟩ := (encodeUtf8_ok_iff _).mpr hencodable
    refine ⟨bytes, hbytes, ?_⟩
    have hstem : byteLength (nameStem u title (180 - suffixBytes.length)) ≤
        180 - suffixBytes.length := nameStem_bytes _
    rw [encodeUtf8_ok hs] at hstem hlen
    rw [encodeUtf8_ok hbytes, List.flatMap_append, List.length_append, encodeUtf8_ok hs]
    unfold byteLength at hstem
    omega

/-- A hundred letters of two bytes each: 88 of them are delivered. -/
theorem delivered_name_safe_cut :
    deliveryFilename plainText (some (List.replicate 100 1081)) (str "/tmp/v.mp4") =
        .ok (List.replicate 88 1081 ++ str ".mp4") ∧
      SafeStem plainText (List.replicate 88 1081) := by
  have hscalar : ∀ c ∈ (some (List.replicate 100 1081)).getD [], IsScalar c := by
    intro c hc
    obtain rfl := List.eq_of_mem_replicate hc
    exact ⟨rfl, by decide⟩
  have hsuffix : encodeUtf8 (pathSuffix (str "/tmp/v.mp4")) = .ok (str ".mp4") := by rfl
  have hcut : deliveryFilename plainText (some (List.replicate 100 1081)) (str "/tmp/v.mp4") =
      .ok (List.replicate 88 1081 ++ str ".mp4") := by decide +kernel
  obtain ⟨stem, -, -, -, -, hnil, hname⟩ := delivered_name_safe plainText (fun _ h => h) rfl
    (some (List.replicate 100 1081)) (str "/tmp/v.mp4") hscalar hsuffix (by decide)
  have hne : stem ≠ [] := by
    intro h
    have hpath := Except.ok.inj (hcut.symm.trans (hnil h))
    exact absurd hpath (by decide +kernel)
  obtain ⟨hdelivered, hsafe, -⟩ := hname hne
  have hstem : List.replicate 88 1081 ++ str ".mp4" = stem ++ str ".mp4" :=
    Except.ok.inj (hcut.symm.trans hdelivered)
  obtain rfl := List.append_cancel_right hstem
  exact ⟨hcut, hsafe⟩

end MediaDownloader
