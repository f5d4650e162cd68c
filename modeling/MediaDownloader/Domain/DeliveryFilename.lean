import MediaDownloader.Lib.Program
import MediaDownloader.Lib.Utf8
import MediaDownloader.Domain.Text

/-!
# delivery_filename

The name a delivered file carries, made of an untrusted title.

* `mem_sanitize`: an unpaired surrogate of the title survives sanitizing;
* `deliveryFilename_ok_iff`: so the name exists exactly when neither title nor
  suffix holds one.
-/

namespace MediaDownloader

open Utf8 Interaction

/-- What `unicodedata` says: `normalize("NFC", ·)` and whether a category is `Cc`
or `Cf`.  Surrogates have category `Cs` and no part in normalization. -/
structure UnicodeData where
  nfc : Str → Str
  isDropped : Nat → Bool
  mem_nfc : ∀ s c, isSurrogate c = true → (c ∈ nfc s ↔ c ∈ s)
  kept : ∀ c, isSurrogate c = true → isDropped c = false

/-! ## Paths -/

/-- `path.name`. -/
def pathName (path : Str) : Str :=
  (((splitOn 47 path).filter fun part => !part.isEmpty && part ≠ str ".").getLast?).getD []

/-- `path.suffix`. -/
def pathSuffix (path : Str) : Str :=
  let name := pathName path
  let (stem, found, extension) := rpartition 46 name
  if found && !stem.isEmpty && !extension.isEmpty then str "." ++ extension else []

/-! ## The file name -/

def maxFilenameBytes : Int := 180

def forbidden : Str := str "/\\:*?\"<>|"

/-- `s.strip(" .")`. -/
def trimmed (s : Str) : Str :=
  (s.dropWhile fun c => c = 32 || c = 46).rdropWhile fun c => c = 32 || c = 46

/-- `s.split()`, after the word `word` read backwards. -/
def splitWords (word : Str) : Str → List Str
  | [] => if word.isEmpty then [] else [word.reverse]
  | c :: s =>
    if isSpace c then
      if word.isEmpty then splitWords [] s else word.reverse :: splitWords [] s
    else splitWords (c :: word) s

/-- `_sanitize`. -/
def sanitize (u : UnicodeData) (title : Str) : Str :=
  let chars := ((u.nfc title).filter fun c => !u.isDropped c || c ∈ str "\t\n\r").map fun c =>
    if c ∈ forbidden then 32 else c
  trimmed (join (str " ") (splitWords [] chars))

def encodeUtf8 (s : Str) : Except Exc (List Nat) :=
  match encode s with
  | some bytes => .ok bytes
  | none => .error (.other (str "UnicodeEncodeError"))

/-- `_truncate_utf8`. -/
def truncateUtf8 (text : Str) (maxBytes : Int) : Except Exc Str := do
  let encoded ← encodeUtf8 text
  if encoded.length ≤ maxBytes then .ok text
  else .ok (decodeIgnore 0 (encoded.take maxBytes.toNat))

def deliveryFilename (u : UnicodeData) (title : Option Str) (path : Str) : Except Exc Str := do
  let suffix := pathSuffix path
  let stem := sanitize u (title.getD [])
  let suffixBytes ← encodeUtf8 suffix
  let budget := maxFilenameBytes - suffixBytes.length
  let stem ← truncateUtf8 stem budget
  let stem := trimmed stem
  if stem.isEmpty then .ok (pathName path) else .ok (stem ++ suffix)

/-! ## Surrogates survive -/

theorem mem_dropWhile {p : Nat → Bool} {c : Nat} (hc : p c = false) (s : Str) :
    c ∈ s.dropWhile p ↔ c ∈ s := by
  induction s with
  | nil => simp
  | cons d s ih =>
    cases hd : p d with
    | false => simp [hd]
    | true =>
      have hne : c ≠ d := by
        rintro rfl
        rw [hc] at hd
        cases hd
      simp [hd, ih, hne]

theorem mem_trimmed {c : Nat} (h : c ≠ 32 ∧ c ≠ 46) (s : Str) : c ∈ trimmed s ↔ c ∈ s := by
  have hc : (decide (c = 32) || decide (c = 46)) = false := by simp [h.1, h.2]
  rw [trimmed, List.rdropWhile, List.mem_reverse, mem_dropWhile hc, List.mem_reverse,
    mem_dropWhile hc]

/-- Splitting loses nothing but the space. -/
theorem mem_splitWords {c : Nat} (hc : isSpace c = false) (word s : Str) :
    (∃ part ∈ splitWords word s, c ∈ part) ↔ c ∈ word ∨ c ∈ s := by
  induction s generalizing word with
  | nil =>
    unfold splitWords
    cases word <;> simp [or_comm]
  | cons d s ih =>
    unfold splitWords
    cases hd : isSpace d with
    | false => simp [ih, or_assoc, or_comm, or_left_comm]
    | true =>
      have hne : c ≠ d := by
        rintro rfl
        rw [hc] at hd
        cases hd
      cases word with
      | nil => simp [ih, hne]
      | cons e word => simp [ih, hne, or_assoc, or_left_comm]

theorem mem_join {c : Nat} {sep : Str} (hc : c ∉ sep) (parts : List Str) :
    c ∈ join sep parts ↔ ∃ part ∈ parts, c ∈ part := by
  induction parts with
  | nil => simp [join]
  | cons part parts ih =>
    cases parts with
    | nil => simp [join]
    | cons part' parts =>
      rw [join, List.mem_append, List.mem_append, ih]
      · simp [hc]
      · simp

theorem surrogate_plain {c : Nat} (hc : isSurrogate c = true) :
    isSpace c = false ∧ c ≠ 32 ∧ c ≠ 46 ∧ c ∉ forbidden := by
  simp only [isSurrogate, Bool.and_eq_true, decide_eq_true_eq] at hc
  obtain ⟨hlow, hhigh⟩ := hc
  refine ⟨?_, by omega, by omega, ?_⟩
  · simp only [isSpace, Bool.or_eq_false_iff, Bool.and_eq_false_iff, decide_eq_false_iff_not,
      beq_eq_false_iff_ne]
    omega
  · intro hmem
    have hsmall : ∀ d ∈ forbidden, d < 128 := by decide
    have := hsmall c hmem
    omega

/-- An unpaired surrogate of the title is in the sanitized title too. -/
theorem mem_sanitize (u : UnicodeData) {c : Nat} (hc : isSurrogate c = true) (title : Str) :
    c ∈ sanitize u title ↔ c ∈ title := by
  obtain ⟨hspace, h32, h46, hforb⟩ := surrogate_plain hc
  have hsep : c ∉ str " " := by simpa [str] using h32
  rw [← u.mem_nfc title c hc]
  simp only [sanitize]
  rw [mem_trimmed ⟨h32, h46⟩, mem_join hsep, mem_splitWords hspace]
  simp only [List.not_mem_nil, false_or, List.mem_map, List.mem_filter]
  constructor
  · rintro ⟨d, ⟨hd, -⟩, he⟩
    split at he
    · exact absurd he.symm h32
    · rw [← he]
      exact hd
  · intro hmem
    exact ⟨c, ⟨hmem, by simp [u.kept c hc]⟩, by simp [hforb]⟩

theorem encodeUtf8_ok_iff (s : Str) :
    (∃ bytes, encodeUtf8 s = .ok bytes) ↔ ∀ c ∈ s, isSurrogate c = false := by
  rw [← encode_eq_some_iff]
  unfold encodeUtf8
  cases encode s <;> simp

/-- No code point of `s` is an unpaired surrogate. -/
def Encodable (s : Str) : Prop := ∀ c ∈ s, isSurrogate c = false

instance (s : Str) : Decidable (Encodable s) :=
  inferInstanceAs (Decidable (∀ c ∈ s, isSurrogate c = false))

theorem encodable_sanitize (u : UnicodeData) (title : Str) :
    Encodable (sanitize u title) ↔ Encodable title := by
  constructor
  · intro h c hc
    by_contra hs
    have hs : isSurrogate c = true := by simpa using hs
    rw [h c ((mem_sanitize u hs title).mpr hc)] at hs
    cases hs
  · intro h c hc
    by_contra hs
    have hs : isSurrogate c = true := by simpa using hs
    rw [h c ((mem_sanitize u hs title).mp hc)] at hs
    cases hs

theorem truncateUtf8_ok_iff (text : Str) (maxBytes : Int) :
    (∃ t, truncateUtf8 text maxBytes = .ok t) ↔ Encodable text := by
  unfold Encodable
  rw [← encodeUtf8_ok_iff]
  unfold truncateUtf8
  constructor
  · rintro ⟨t, h⟩
    obtain ⟨bytes, hbytes, -⟩ := bind_eq_ok.mp h
    exact ⟨bytes, hbytes⟩
  · rintro ⟨bytes, hbytes⟩
    rw [hbytes, ok_bind]
    split
    · exact ⟨_, rfl⟩
    · exact ⟨_, rfl⟩

/-- The name exists exactly when title and suffix can be encoded. -/
theorem deliveryFilename_ok_iff (u : UnicodeData) (title : Option Str) (path : Str) :
    (∃ name, deliveryFilename u title path = .ok name) ↔
      Encodable (title.getD []) ∧ Encodable (pathSuffix path) := by
  rw [← encodable_sanitize u]
  unfold deliveryFilename
  constructor
  · rintro ⟨name, h⟩
    obtain ⟨bytes, hbytes, h⟩ := bind_eq_ok.mp h
    obtain ⟨stem, hstem, -⟩ := bind_eq_ok.mp h
    exact ⟨(truncateUtf8_ok_iff _ _).mp ⟨stem, hstem⟩, (encodeUtf8_ok_iff _).mp ⟨bytes, hbytes⟩⟩
  · rintro ⟨htitle, hsuffix⟩
    obtain ⟨bytes, hbytes⟩ := (encodeUtf8_ok_iff _).mpr hsuffix
    obtain ⟨stem, hstem⟩ := (truncateUtf8_ok_iff _ (maxFilenameBytes - bytes.length)).mpr htitle
    simp only [hbytes, hstem, ok_bind]
    split
    · exact ⟨_, rfl⟩
    · exact ⟨_, rfl⟩

/-- It raises nothing but `UnicodeEncodeError`. -/
theorem deliveryFilename_error {u : UnicodeData} {title : Option Str} {path : Str} {e : Exc}
    (h : deliveryFilename u title path = .error e) : e = .other (str "UnicodeEncodeError") := by
  have hencode : ∀ s e, encodeUtf8 s = .error e → e = .other (str "UnicodeEncodeError") := by
    intro s e he
    unfold encodeUtf8 at he
    cases hs : encode s with
    | some bytes => simp [hs] at he
    | none => simpa [hs, eq_comm] using he
  unfold deliveryFilename at h
  cases hsuffix : encodeUtf8 (pathSuffix path) with
  | error e' =>
    simp only [hsuffix, error_bind, Except.error.injEq] at h
    rw [← h]
    exact hencode _ _ hsuffix
  | ok bytes =>
    simp only [hsuffix, ok_bind, truncateUtf8] at h
    cases hstem : encodeUtf8 (sanitize u (title.getD [])) with
    | error e' =>
      simp only [hstem, error_bind, Except.error.injEq] at h
      rw [← h]
      exact hencode _ _ hstem
    | ok encoded =>
      simp only [hstem, ok_bind] at h
      split at h
      · simp only [ok_bind] at h
        split at h <;> cases h
      · simp only [ok_bind] at h
        split at h <;> cases h

/-- The data for text that is plain already: NFC leaves it alone, and of what is
dropped it holds control characters only. -/
def plainText : UnicodeData where
  nfc := id
  isDropped c := c < 32 || (127 ≤ c && c < 160)
  mem_nfc _ _ _ := Iff.rfl
  kept c hc := by
    simp only [isSurrogate, Bool.and_eq_true, decide_eq_true_eq] at hc
    simp only [Bool.or_eq_false_iff, Bool.and_eq_false_iff, decide_eq_false_iff_not]
    omega

example : deliveryFilename plainText (some (str "AC/DC: \"Back in Black\""))
    (str "/tmp/req/dQw4w9WgXcQ.mp4") = .ok (str "AC DC Back in Black.mp4") := by rfl

end MediaDownloader
