import MediaDownloader.Domain.Exceptions

/-!
# JSON values

What `json.loads` makes of a text.  An `object` lists each key once.
-/

namespace MediaDownloader

/-- A Python float; finite values are their rational value. -/
inductive PyFloat where
  | finite (q : Rat)
  | posInf
  | negInf
  | nan
  deriving DecidableEq

inductive Json where
  | null
  | bool (b : Bool)
  | int (n : Int)
  | float (x : PyFloat)
  | string (s : Str)
  | array (xs : List Json)
  | object (fields : List (Str × Json))

namespace Json

def lookup (key : Str) : List (Str × Json) → Option Json
  | [] => none
  | (k, v) :: fields => if k = key then some v else lookup key fields

/-- `data[key]`: a `KeyError` on a dict without the key, a `TypeError` on
anything that is no dict. -/
def item (data : Json) (key : Str) : Except Exc Json :=
  match data with
  | object fields =>
    match lookup key fields with
    | some v => .ok v
    | none => .error (.other (str "KeyError"))
  | _ => .error (.other (str "TypeError"))

end Json

/-- A stored value as a reader finds it: bytes that are no UTF-8, or a text
together with what `json.loads` does on it. -/
inductive Entry where
  | notUtf8
  | text (loads : Except Exc Json)

end MediaDownloader
