import MediaDownloader.Lib.Splitting
import MediaDownloader.Domain.UrlValidation

/-!
# Domain matching by labels

The allowlist compares strings; what it means is a comparison of label lists.

* `hostMatches_iff`: a domain matches exactly when its labels end the host's;
* `allowlist_iff`: the decision on a URL that parses, in terms of labels.
-/

namespace MediaDownloader

/-- A configured domain as it is compared. -/
def normalizedDomain (u : Unicode) (domain : Str) : Str := (u.lower domain).dropWhile (· == 46)

/-- The host of a parsed URL as it is compared. -/
def normalizedHost (u : Unicode) (parsed : ParseResult) : Str :=
  (u.lower (parsed.hostname u)).rdropWhile (· == 46)

def labels (name : Str) : List Str := splitOn 46 name

/-- The domain's labels end the host's. -/
def LabelSuffix (u : Unicode) (hostname domain : Str) : Prop :=
  labels (normalizedDomain u domain) <:+ labels hostname

instance (u : Unicode) (hostname domain : Str) : Decidable (LabelSuffix u hostname domain) :=
  inferInstanceAs (Decidable (_ <:+ _))

theorem splitOn_eq (c : Nat) (s : Str) : splitOn c s = s.splitOn c := by
  induction s with
  | nil => rfl
  | cons x s ih =>
    rw [List.splitOn_cons_eq_if_modifyHead, splitOn, ih]
    by_cases hx : x = c
    · simp [hx]
    · obtain ⟨part, parts, hparts⟩ := List.exists_cons_of_ne_nil (List.splitOn_ne_nil c s)
      simp [hx, hparts]

theorem hostMatches_iff (u : Unicode) (hostname domain : Str) :
    hostMatches u hostname domain = true ↔ LabelSuffix u hostname domain := by
  unfold LabelSuffix labels
  rw [splitOn_eq, splitOn_eq, Splitting.splitOn_suffix_iff]
  simp only [hostMatches, endsWith, normalizedDomain, Bool.or_eq_true, beq_iff_eq,
    List.isSuffixOf_iff_suffix]

/-- Glued to a domain without a dot, a text makes another domain. -/
theorem not_labelSuffix_glued (u : Unicode) (domain : Str) {text : Str} (hne : text ≠ [])
    (hdot : 46 ∉ text) : ¬ LabelSuffix u (text ++ normalizedDomain u domain) domain := by
  unfold LabelSuffix labels
  rw [splitOn_eq, splitOn_eq, Splitting.splitOn_suffix_iff]
  rintro (heq | ⟨rest, hrest⟩)
  · exact hne (List.append_left_eq_self.mp heq)
  · have htext : rest ++ [46] = text := by
      have hglued : rest ++ [46] ++ normalizedDomain u domain =
          text ++ normalizedDomain u domain := by
        simpa using hrest
      exact List.append_cancel_right hglued
    exact hdot (by rw [← htext]; simp)

/-- The URL passes the domain check. -/
def Allowlisted (u : Unicode) (raw : Str) (allowed blocked : List Str) : Prop :=
  ∃ url, validateUrlAgainstAllowlist u raw allowed blocked = .ok url

section Parsed

variable {u : Unicode} {raw : Str} {parsed : ParseResult}

theorem validateUrl_parsed_iff (hp : urlparse u (strip raw) = .ok parsed) :
    (∃ url, validateUrl u raw = .ok url) ↔
      (parsed.scheme = str "http" ∨ parsed.scheme = str "https") ∧ parsed.netloc ≠ [] := by
  have hempty (h : strip raw = []) : parsed.netloc = [] := by
    rw [h] at hp
    have hnil : urlparse u [] = .ok ⟨[], []⟩ := rfl
    rw [hnil] at hp
    cases hp
    rfl
  unfold validateUrl
  simp only [hp]
  split
  · next h =>
    have := hempty (List.isEmpty_iff.mp h)
    simp [this]
  · split
    · next h =>
      simp only [reduceCtorEq, exists_const, false_iff, not_and]
      rintro (hs | hs)
      · exact absurd hs h.1
      · exact absurd hs h.2
    · next h =>
      have hscheme : parsed.scheme = str "http" ∨ parsed.scheme = str "https" := by
        by_contra hno
        exact h (not_or.mp hno)
      split
      · next hnet => simp [List.isEmpty_iff.mp hnet]
      · next hnet =>
        have hne : parsed.netloc ≠ [] := fun h => hnet (List.isEmpty_iff.mpr h)
        simp [hscheme, hne]

theorem allowlisted_iff_hostAllowed (hp : urlparse u (strip raw) = .ok parsed)
    (allowed blocked : List Str) :
    Allowlisted u raw allowed blocked ↔
      (∃ url, validateUrl u raw = .ok url) ∧
        hostAllowed u allowed blocked (normalizedHost u parsed) = true := by
  unfold Allowlisted validateUrlAgainstAllowlist
  cases hv : validateUrl u raw with
  | error e => simp
  | ok url =>
    rw [validateUrl_ok hv]
    simp only [hp]
    split
    · next h => simpa [normalizedHost] using h
    · next h => simpa [normalizedHost] using h

theorem hostAllowed_iff (u : Unicode) (allowed blocked : List Str) (hostname : Str) :
    hostAllowed u allowed blocked hostname = true ↔
      (∀ domain ∈ blocked, ¬ LabelSuffix u hostname domain) ∧
        (allowed = [] ∨ ∃ domain ∈ allowed, LabelSuffix u hostname domain) := by
  simp only [hostAllowed, Bool.and_eq_true, Bool.not_eq_true', List.any_eq_false,
    Bool.or_eq_true, List.isEmpty_iff, List.any_eq_true, hostMatches_iff]

/-- The domain check accepts exactly by labels; so blocking more never accepts,
allowing more never rejects, and no part of a label counts. -/
theorem allowlist_iff (hp : urlparse u (strip raw) = .ok parsed) (allowed blocked : List Str) :
    (Allowlisted u raw allowed blocked ↔
      ((parsed.scheme = str "http" ∨ parsed.scheme = str "https") ∧ parsed.netloc ≠ []) ∧
        (∀ domain ∈ blocked, ¬ LabelSuffix u (normalizedHost u parsed) domain) ∧
        (allowed = [] ∨ ∃ domain ∈ allowed, LabelSuffix u (normalizedHost u parsed) domain)) ∧
      (∀ domain, Allowlisted u raw allowed (domain :: blocked) → Allowlisted u raw allowed blocked) ∧
      (∀ domain, allowed ≠ [] → Allowlisted u raw allowed blocked →
        Allowlisted u raw (domain :: allowed) blocked) ∧
      ∀ domain text, text ≠ [] → 46 ∉ text →
        ¬ LabelSuffix u (text ++ normalizedDomain u domain) domain := by
  have hiff (allowed blocked : List Str) := (allowlisted_iff_hostAllowed hp allowed blocked).trans
    (and_congr (validateUrl_parsed_iff hp) (hostAllowed_iff u allowed blocked (normalizedHost u parsed)))
  refine ⟨hiff allowed blocked, fun domain h => ?_, fun domain hne h => ?_,
    fun domain _ => not_labelSuffix_glued u domain⟩
  · obtain ⟨hvalid, hblocked, hallowed⟩ := (hiff _ _).mp h
    exact (hiff _ _).mpr
      ⟨hvalid, fun d hd => hblocked d (List.mem_cons_of_mem domain hd), hallowed⟩
  · obtain ⟨hvalid, hblocked, hallowed⟩ := (hiff _ _).mp h
    obtain ⟨d, hd, hmatch⟩ := hallowed.resolve_left hne
    exact (hiff _ _).mpr
      ⟨hvalid, hblocked, .inr ⟨d, List.mem_cons_of_mem domain hd, hmatch⟩⟩

end Parsed

/-- A subdomain in capitals, with a trailing dot, of an allowed domain with a leading one. -/
theorem allowlist_iff_youtube :
    Allowlisted ⟨asciiLower, id⟩ (str "https://WWW.YouTube.com./watch") [str ".youtube.com"]
      [str "music.youtube.com"] := by
  have hp : urlparse ⟨asciiLower, id⟩ (strip (str "https://WWW.YouTube.com./watch")) =
      .ok ⟨str "https", str "WWW.YouTube.com."⟩ := by rfl
  exact (allowlist_iff hp _ _).1.mpr ⟨by decide, by decide, by decide⟩

end MediaDownloader
