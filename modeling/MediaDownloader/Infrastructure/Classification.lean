import MediaDownloader.Lib.Fragments
import MediaDownloader.Infrastructure.YtDlpDownloader

/-!
# What a message quotes

`classify_error` looks for its fragments anywhere in yt-dlp's message, also in
the id or URL that the message quotes.

* `contains_quote`: a fragment is found in the wording or in what is quoted;
* `rank_quote`: so the first row that matches is the earlier of the two;
* `unmoved_of_ids`: most ids match no row;
* `classification_unmoved_iff`: two quotes are classified alike exactly when no
  row they match comes before the wording's, or their first rows are the same;
* `classification_moved`: the letters `geo` in a video id.
-/

namespace MediaDownloader

/-! ## Messages -/

/-- yt-dlp's messages around what they quote. -/
inductive Wording where
  | media (pre extractor text : Str)
  | unsupported (pre : Str)

/-- `<prefix>[<extractor>] <id>: <text>` or `<prefix>Unsupported URL: <url>`. -/
def Wording.quote : Wording → Str → Str
  | .media pre extractor text, id =>
    pre ++ str "[" ++ extractor ++ str "] " ++ id ++ str ": " ++ text
  | .unsupported pre, url => pre ++ str "Unsupported URL: " ++ url

/-- A character of a media id. -/
def isIdChar (c : Nat) : Bool := isAsciiAlpha c || isAsciiDigit c || c = 45 || c = 95

/-- A media id, or a URL without a photo marker. -/
def Wording.Quotable (u : Unicode) : Wording → Str → Prop
  | .media .., id => ∀ c ∈ id, isIdChar c
  | .unsupported _, url => mentions (photoUrlMarkers ++ photoMsgMarkers) (u.lower url) = false

instance (u : Unicode) : (w : Wording) → (x : Str) → Decidable (w.Quotable u x)
  | .media .., x => inferInstanceAs (Decidable (∀ c ∈ x, isIdChar c))
  | .unsupported _, x =>
    inferInstanceAs (Decidable (mentions (photoUrlMarkers ++ photoMsgMarkers) (u.lower x) = false))

/-- `str.lower`, as far as messages need it.  Only a final sigma depends on the
characters around it, and only up to a character that is neither a letter nor
ignored with letters, such as a space or a bracket. -/
structure Unicode.LowersWords (u : Unicode) : Prop where
  space : ∀ a b, u.lower (a ++ 32 :: b) = u.lower a ++ 32 :: u.lower b
  bracket : ∀ a b, u.lower (a ++ 93 :: b) = u.lower a ++ 93 :: u.lower b
  ascii : ∀ s, (∀ c ∈ s, c < 128) → u.lower s = asciiLower s
  asciiEnd : ∀ a b, (∀ c ∈ b, c < 128) → ∃ a', u.lower (a ++ b) = a' ++ asciiLower b

/-- What keeps a fragment from reaching across the edge of a quote. -/
def Plain (f : Str) : Prop := f ≠ [] ∧ 93 ∉ f ∧ 58 ∉ f ∧ f.head? ≠ some 32

instance (f : Str) : Decidable (Plain f) := inferInstanceAs (Decidable (_ ∧ _ ∧ _ ∧ _))

/-! ## Where a fragment is found -/

theorem contains_iff (f s : Str) : contains f s = true ↔ f <:+: s := by
  simp only [contains, List.any_eq_true, List.mem_tails, List.isPrefixOf_iff_prefix]
  exact ⟨fun ⟨t, hsuf, hpre⟩ => List.infix_iff_prefix_suffix.mpr ⟨t, hpre, hsuf⟩,
    fun h => (List.infix_iff_prefix_suffix.mp h).imp fun _ h => h.symm⟩

section Quotes

variable {u : Unicode} (hu : u.LowersWords) {f x : Str}
include hu

theorem lower_nil : u.lower [] = [] := hu.ascii [] (by simp)

theorem lower_id {x : Str} (hx : ∀ c ∈ x, isIdChar c) :
    u.lower x = asciiLower x ∧ u.lower (x ++ [58]) = asciiLower x ++ [58] := by
  have hascii : ∀ c ∈ x, c < 128 := by
    intro c hc
    have hid := hx c hc
    simp only [isIdChar, isAsciiAlpha, isAsciiUpper, isAsciiDigit, Bool.or_eq_true,
      Bool.and_eq_true, decide_eq_true_eq] at hid
    omega
  refine ⟨hu.ascii x hascii, ?_⟩
  rw [hu.ascii _ (by
    intro c hc
    rcases List.mem_append.mp hc with hc | hc
    · exact hascii c hc
    · rw [List.mem_singleton.mp hc]
      decide)]
  simp [asciiLower, isAsciiUpper]

/-- No fragment with a space is in an id. -/
theorem not_contains_id (hx : ∀ c ∈ x, isIdChar c) (hf : 32 ∈ f) :
    contains f (u.lower x) = false := by
  rw [← Bool.not_eq_true, contains_iff, (lower_id hu hx).1]
  intro h
  obtain ⟨c, hc, hlower⟩ := List.mem_map.mp (h.subset hf)
  have hid := hx c hc
  simp only [isIdChar, isAsciiAlpha, isAsciiUpper, isAsciiDigit, Bool.or_eq_true,
    Bool.and_eq_true, decide_eq_true_eq] at hid hlower
  split at hlower <;> omega

/-- Around an id stand a bracket, a space and a colon. -/
theorem infix_media (hf : Plain f) (pre extractor text : Str) (hx : ∀ c ∈ x, isIdChar c) :
    f <:+: u.lower ((Wording.media pre extractor text).quote x) ↔
      (f <:+: u.lower (pre ++ str "[" ++ extractor) ∨ f <:+: u.lower text) ∨
        f <:+: u.lower x := by
  obtain ⟨-, hbracket, hcolon, hspace⟩ := hf
  obtain ⟨hid, hidcolon⟩ := lower_id hu hx
  have hquote : (Wording.media pre extractor text).quote x =
      (pre ++ str "[" ++ extractor) ++ 93 :: ([] ++ 32 :: ((x ++ [58]) ++ 32 :: text)) := by
    simp [Wording.quote, str]
  have hlower : u.lower ((Wording.media pre extractor text).quote x) =
      u.lower (pre ++ str "[" ++ extractor) ++ 93 :: 32 ::
        (u.lower x ++ 58 :: 32 :: u.lower text) := by
    rw [hquote, hu.bracket, hu.space, hu.space, hidcolon, hid, lower_nil hu]
    simp
  rw [hlower, Fragments.infix_append_cons hbracket, Fragments.infix_cons_of_head hspace,
    Fragments.infix_append_cons hcolon, Fragments.infix_cons_of_head hspace]
  exact or_assoc.symm.trans or_right_comm

/-- Before a URL stand a colon and a space, and the words themselves. -/
theorem lower_unsupported (pre : Str) :
    ∃ a, ∀ x, u.lower ((Wording.unsupported pre).quote x) =
      (a ++ str "unsupported url") ++ 58 :: 32 :: u.lower x := by
  obtain ⟨a, ha⟩ := hu.asciiEnd pre (str "Unsupported URL:") (by decide)
  refine ⟨a, fun x => ?_⟩
  have hquote : (Wording.unsupported pre).quote x =
      (pre ++ str "Unsupported URL:") ++ 32 :: x := by
    simp [Wording.quote, str]
  rw [hquote, hu.space, ha, show asciiLower (str "Unsupported URL:") =
    str "unsupported url" ++ [58] from by decide]
  simp

/-- A fragment is found in the wording or in what is quoted. -/
theorem contains_quote (w : Wording) (hf : Plain f) (hx : w.Quotable u x) :
    contains f (u.lower (w.quote x)) =
      (contains f (u.lower (w.quote [])) || contains f (u.lower x)) := by
  rw [Bool.eq_iff_iff, Bool.or_eq_true, contains_iff, contains_iff, contains_iff]
  have hnil : ¬ f <:+: u.lower [] := by
    rw [lower_nil hu, List.infix_nil]
    exact hf.1
  cases w with
  | media pre extractor text =>
    rw [infix_media hu hf pre extractor text hx,
      infix_media hu hf pre extractor text (x := []) (by simp)]
    simp only [hnil, or_false]
  | unsupported pre =>
    obtain ⟨a, ha⟩ := lower_unsupported hu pre
    obtain ⟨-, -, hcolon, hspace⟩ := hf
    rw [ha, ha, Fragments.infix_append_cons hcolon, Fragments.infix_append_cons hcolon,
      Fragments.infix_cons_of_head hspace, Fragments.infix_cons_of_head hspace]
    simp only [hnil, or_false]

theorem mentions_quote (w : Wording) {fragments : List String}
    (hf : ∀ f ∈ fragments, Plain (str f)) (hx : w.Quotable u x) :
    mentions fragments (u.lower (w.quote x)) =
      (mentions fragments (u.lower (w.quote [])) || mentions fragments (u.lower x)) := by
  induction fragments with
  | nil => rfl
  | cons f fragments ih =>
    have htail := ih fun g hg => hf g (List.mem_cons_of_mem _ hg)
    simp only [mentions, List.any_cons] at htail ⊢
    rw [htail, contains_quote hu w (hf f List.mem_cons_self) hx]
    simp only [Bool.or_assoc, Bool.or_left_comm]

/-- Whether a message says `unsupported url` is up to its wording. -/
theorem unsupported_quote (w : Wording) (hx : w.Quotable u x) :
    contains (str "unsupported url") (u.lower (w.quote x)) =
      contains (str "unsupported url") (u.lower (w.quote [])) := by
  rw [contains_quote hu w (by decide) hx]
  cases w with
  | media pre extractor text =>
    rw [not_contains_id hu hx (by decide), Bool.or_false]
  | unsupported pre =>
    obtain ⟨a, ha⟩ := lower_unsupported hu pre
    have hyes : contains (str "unsupported url") (u.lower ((Wording.unsupported pre).quote [])) =
        true := by
      rw [contains_iff, ha]
      exact List.infix_append_of_infix_left List.infix_append_right
    rw [hyes, Bool.true_or]

end Quotes

/-! ## Rows -/

/-- The first row of the table that a text matches.  Where the message says
`unsupported url`, photo words count as unsupported media. -/
def rank (unsupported photo : Bool) (text : Str) : Nat :=
  signatures.findIdx fun row => mentions row.1 text ||
    (decide (row.2 = .unsupportedMedia) &&
      (unsupported && (photo || mentions photoMsgMarkers text)))

/-- The class for a row; past the last one it depends on `unsupported url`. -/
def verdict (unsupported : Bool) (row : Nat) : Exc :=
  match signatures[row]? with
  | some entry => .extraction entry.2
  | none => if unsupported then .unsupportedURL [] else .extraction .extractionFailed

theorem findIdx_unsupportedMedia (photo : Bool) :
    (signatures.findIdx fun row => decide (row.2 = .unsupportedMedia) && photo) =
      if photo then 4 else 5 := by
  cases photo <;> decide

theorem rank_le (unsupported photo : Bool) (text : Str) : rank unsupported photo text ≤ 5 :=
  List.findIdx_le_length

/-- The class is that of the first row. -/
theorem classifyError_eq (u : Unicode) (message url : Str) :
    classifyError u message url =
      verdict (contains (str "unsupported url") (u.lower message))
        (rank (contains (str "unsupported url") (u.lower message))
          (mentions photoUrlMarkers (u.lower url)) (u.lower message)) := by
  simp only [classifyError, rank, Fragments.findIdx_or, findIdx_unsupportedMedia,
    List.find?_eq_getElem?_findIdx]
  have hle : (signatures.findIdx fun row => mentions row.1 (u.lower message)) ≤ 5 :=
    List.findIdx_le_length
  generalize (signatures.findIdx fun row => mentions row.1 (u.lower message)) = i at hle ⊢
  generalize mentions photoMsgMarkers (u.lower message) = words
  generalize mentions photoUrlMarkers (u.lower url) = path
  generalize contains (str "unsupported url") (u.lower message) = unsupported
  rcases hle.lt_or_eq with hlt | rfl
  · -- The last row is the fifth, so photo words come no earlier.
    have hmin : min i (if (unsupported && (path || words)) = true then 4 else 5) = i := by
      split <;> omega
    have hrow : i < signatures.length := hlt
    rw [hmin, verdict, List.getElem?_eq_getElem hrow]
  · cases unsupported <;> cases path <;> cases words <;> rfl

/-- Rows have different classes. -/
theorem verdict_inj (unsupported : Bool) {i j : Nat} (hi : i ≤ 5) (hj : j ≤ 5) :
    verdict unsupported i = verdict unsupported j ↔ i = j := by
  refine ⟨?_, fun h => h ▸ rfl⟩
  have hall : ∀ b : Bool, ∀ i < 6, ∀ j < 6, verdict b i = verdict b j → i = j := by decide
  exact hall unsupported i (by omega) j (by omega)

/-- The fragments without a space. -/
def idFragments : List String := ["private", "followers", "age-restricted", "geo", "slideshow"]

/-- No fragment of the table reaches across the edge of a quote, and only those
few fit into an id. -/
theorem signatures_plain : ∀ row ∈ signatures, ∀ f ∈ row.1,
    Plain (str f) ∧ (f ∈ idFragments ∨ 32 ∈ str f) := by
  decide +kernel

/-- The first row of a message is the wording's or the quote's, whichever is earlier. -/
theorem rank_quote {u : Unicode} (hu : u.LowersWords) (w : Wording) {x : Str}
    (hx : w.Quotable u x) (unsupported photo : Bool) :
    rank unsupported photo (u.lower (w.quote x)) =
      min (rank unsupported photo (u.lower (w.quote []))) (rank unsupported false (u.lower x)) := by
  have hrows (row) (hrow : row ∈ signatures) (f) (hf : f ∈ row.1) : Plain (str f) :=
    (signatures_plain row hrow f hf).1
  have hphoto : ∀ f ∈ photoMsgMarkers, Plain (str f) := by decide
  unfold rank
  rw [← Fragments.findIdx_or]
  refine Fragments.findIdx_congr fun row hrow => ?_
  rw [mentions_quote hu w (hrows row hrow) hx, mentions_quote hu w hphoto hx]
  generalize decide (row.2 = .unsupportedMedia) = media
  cases media <;> cases unsupported <;> simp [Bool.or_assoc, Bool.or_left_comm]

/-- Neither quote matches a row before the wording's, or both match the same row first. -/
def Unmoved (u : Unicode) (w : Wording) (url x y : Str) : Prop :=
  let unsupported := contains (str "unsupported url") (u.lower (w.quote []))
  let wording := rank unsupported (mentions photoUrlMarkers (u.lower url)) (u.lower (w.quote []))
  let quoted text := rank unsupported false (u.lower text)
  (wording ≤ quoted x ∧ wording ≤ quoted y) ∨ quoted x = quoted y

/-- An id with none of these matches no row. -/
theorem rank_id {u : Unicode} (hu : u.LowersWords) {x : Str} (hx : ∀ c ∈ x, isIdChar c)
    (h : mentions idFragments (u.lower x) = false) (unsupported : Bool) :
    rank unsupported false (u.lower x) = 5 := by
  have hnone : ∀ fragments : List String,
      (∀ f ∈ fragments, f ∈ idFragments ∨ 32 ∈ str f) → mentions fragments (u.lower x) = false := by
    intro fragments hcases
    rw [mentions, List.any_eq_false] at h ⊢
    intro f hf
    rcases hcases f hf with hid | hspace
    · exact h f hid
    · rw [not_contains_id hu hx hspace]
      decide
  have hrows (row) (hrow : row ∈ signatures) (f) (hf : f ∈ row.1) :
      f ∈ idFragments ∨ 32 ∈ str f :=
    (signatures_plain row hrow f hf).2
  refine List.findIdx_eq_length_of_false fun row hrow => ?_
  rw [hnone row.1 (hrows row hrow), hnone photoMsgMarkers (by decide)]
  simp

/-- So such ids never move the class. -/
theorem unmoved_of_ids {u : Unicode} (hu : u.LowersWords) (w : Wording) (url : Str) {x y : Str}
    (hx : ∀ c ∈ x, isIdChar c) (hy : ∀ c ∈ y, isIdChar c)
    (hxf : mentions idFragments (u.lower x) = false)
    (hyf : mentions idFragments (u.lower y) = false) : Unmoved u w url x y :=
  .inr ((rank_id hu hx hxf _).trans (rank_id hu hy hyf _).symm)

/-- Two quotes are classified alike exactly when neither moves the class the wording
has, or they move it to the same one. -/
theorem classification_unmoved_iff (u : Unicode) (w : Wording) (url x y : Str)
    (hu : u.LowersWords) (hx : w.Quotable u x) (hy : w.Quotable u y) :
    classifyError u (w.quote x) url = classifyError u (w.quote y) url ↔
      Unmoved u w url x y := by
  rw [classifyError_eq, classifyError_eq, unsupported_quote hu w hx, unsupported_quote hu w hy,
    verdict_inj _ (rank_le _ _ _) (rank_le _ _ _), rank_quote hu w hx, rank_quote hu w hy]
  unfold Unmoved
  dsimp only
  omega

/-- Lowering ASCII letters lowers words. -/
theorem asciiLower_lowersWords (nfkc : Str → Str) : Unicode.LowersWords ⟨asciiLower, nfkc⟩ where
  space a b := by simp [asciiLower, isAsciiUpper]
  bracket a b := by simp [asciiLower, isAsciiUpper]
  ascii _ _ := rfl
  asciiEnd a b _ := ⟨asciiLower a, by simp [asciiLower]⟩

/-- Two ids on a page that could not be read. -/
theorem classification_unmoved_iff_youtube :
    classifyError ⟨asciiLower, id⟩ (str "ERROR: [youtube] dQw4w9WgXcQ: Some error") (str "u") =
      classifyError ⟨asciiLower, id⟩ (str "ERROR: [youtube] jNQXAC9IVRw: Some error") (str "u") :=
  (classification_unmoved_iff ⟨asciiLower, id⟩
    (.media (str "ERROR: ") (str "youtube") (str "Some error")) (str "u") (str "dQw4w9WgXcQ")
    (str "jNQXAC9IVRw") (asciiLower_lowersWords id) (by decide) (by decide)).mpr
    (unmoved_of_ids (asciiLower_lowersWords id) _ _ (by decide) (by decide) (by decide +kernel)
      (by decide +kernel))

/-- An id with `geo` in it makes a page that could not be read a blocked one. -/
theorem classification_moved :
    ¬ ∀ (u : Unicode) (w : Wording) (url x y : Str), u.LowersWords → w.Quotable u x →
      w.Quotable u y → classifyError u (w.quote x) url = classifyError u (w.quote y) url := by
  intro h
  have hsame := h ⟨asciiLower, id⟩ (.media (str "ERROR: ") (str "youtube") (str "Some error"))
    (str "u") (str "dQw4w9WgXcQ") (str "dQwGEO9WgXc") (asciiLower_lowersWords id) (by decide)
    (by decide)
  revert hsame
  decide +kernel

end MediaDownloader
