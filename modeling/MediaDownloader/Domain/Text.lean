import Mathlib.Data.List.DropRight
import MediaDownloader.Domain.Exceptions

/-!
# Python `str`

The methods the code calls, on code points.  What depends on the interpreter's
Unicode tables is a field of `Unicode`.

* `strip_strip`: `s.strip()` is a fixed point of `strip`.
-/

namespace MediaDownloader

/-- The interpreter's Unicode tables, as far as the code uses them:
`str.lower` and `unicodedata.normalize("NFKC", ·)`. -/
structure Unicode where
  lower : Str → Str
  nfkc : Str → Str

/-! ## Characters -/

/-- `str.isspace` on one character. -/
def isSpace (c : Nat) : Bool :=
  (9 ≤ c && c ≤ 13) || (28 ≤ c && c ≤ 32) || c == 0x85 || c == 0xA0 || c == 0x1680 ||
    (0x2000 ≤ c && c ≤ 0x200A) || c == 0x2028 || c == 0x2029 || c == 0x202F || c == 0x205F ||
    c == 0x3000

def isAsciiUpper (c : Nat) : Bool := 65 ≤ c && c ≤ 90

def isAsciiAlpha (c : Nat) : Bool := isAsciiUpper c || (97 ≤ c && c ≤ 122)

def isAsciiDigit (c : Nat) : Bool := 48 ≤ c && c ≤ 57

def isHexDigit (c : Nat) : Bool := isAsciiDigit c || (65 ≤ c && c ≤ 70) || (97 ≤ c && c ≤ 102)

/-- `str.lower` on ASCII text. -/
def asciiLower (s : Str) : Str := s.map fun c => if isAsciiUpper c then c + 32 else c

/-! ## Methods -/

/-- `s.strip()`. -/
def strip (s : Str) : Str := (s.dropWhile isSpace).rdropWhile isSpace

def startsWith (p s : Str) : Bool := p.isPrefixOf s

def endsWith (p s : Str) : Bool := p.isSuffixOf s

/-- `sub in s`. -/
def contains (sub s : Str) : Bool := s.tails.any fun t => sub.isPrefixOf t

/-- `s.partition(c)`: before, whether `c` occurs, after its first occurrence. -/
def partition (c : Nat) (s : Str) : Str × Bool × Str :=
  (s.takeWhile (· ≠ c), decide (c ∈ s), (s.dropWhile (· ≠ c)).tail)

/-- `s.rpartition(c)`: without `c` everything is in the last part. -/
def rpartition (c : Nat) (s : Str) : Str × Bool × Str :=
  (((s.reverse.dropWhile (· ≠ c)).tail).reverse, decide (c ∈ s),
    (s.reverse.takeWhile (· ≠ c)).reverse)

/-- `s.split(c)`. -/
def splitOn (c : Nat) : Str → List Str
  | [] => [[]]
  | x :: s =>
    if x = c then [] :: splitOn c s
    else
      match splitOn c s with
      | [] => [[x]]
      | part :: parts => (x :: part) :: parts

/-- `s.split(maxsplit=1)`. -/
def splitWords1 (s : Str) : List Str :=
  let s := s.dropWhile isSpace
  let word := s.takeWhile (fun c => !isSpace c)
  let rest := (s.dropWhile (fun c => !isSpace c)).dropWhile isSpace
  if s.isEmpty then [] else if rest.isEmpty then [word] else [word, rest]

/-- `s.replace(c, "")`. -/
def removeChar (c : Nat) (s : Str) : Str := s.filter (· ≠ c)

/-- `sep.join(parts)`. -/
def join (sep : Str) : List Str → Str
  | [] => []
  | [s] => s
  | s :: parts => s ++ sep ++ join sep parts

/-- `s <= s'` on strings: by code points. -/
def strLe : Str → Str → Bool
  | [], _ => true
  | _ :: _, [] => false
  | a :: s, b :: s' => a < b || (a == b && strLe s s')

/-- `str(n)`. -/
def intStr (n : Int) : Str := str (toString n)

/-- `html.escape(s)`. -/
def htmlEscape (s : Str) : Str :=
  s.flatMap fun c =>
    if c = 38 then str "&amp;"
    else if c = 60 then str "&lt;"
    else if c = 62 then str "&gt;"
    else if c = 34 then str "&quot;"
    else if c = 39 then str "&#x27;"
    else [c]

/-! ## Stripped text -/

section Trimming

variable {p : Nat → Bool} {s : Str}

/-- Trimmed text does not begin with what is trimmed. -/
theorem trim_head {c : Nat} {t : Str} (h : (s.dropWhile p).rdropWhile p = c :: t) :
    p c = false := by
  obtain ⟨v, hv⟩ := List.rdropWhile_prefix p (s.dropWhile p)
  rw [h, List.cons_append] at hv
  have hc := List.head?_dropWhile_not p s
  rw [← hv] at hc
  simpa using hc

theorem trim_trim (p : Nat → Bool) (s : Str) :
    (((s.dropWhile p).rdropWhile p).dropWhile p).rdropWhile p = (s.dropWhile p).rdropWhile p := by
  generalize hs : (s.dropWhile p).rdropWhile p = t
  have ht : t.dropWhile p = t := by
    cases t with
    | nil => rfl
    | cons c t => simp [trim_head hs]
  rw [ht, ← hs]
  exact List.rdropWhile_idempotent p _

theorem trim_infix (p : Nat → Bool) (s : Str) : (s.dropWhile p).rdropWhile p <:+: s :=
  (List.rdropWhile_prefix p _).isInfix.trans (List.dropWhile_suffix p).isInfix

end Trimming

/-- Stripping stripped text changes nothing. -/
theorem strip_strip (s : Str) : strip (strip s) = strip s := trim_trim isSpace s

example : strip (str "  a b ") = str "a b" := by decide

end MediaDownloader
