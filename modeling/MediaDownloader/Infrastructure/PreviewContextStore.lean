import MediaDownloader.Application.Ports

/-!
# RedisPreviewContextStore

Preview contexts as JSON under a token, with the expiry left to Redis.

* `decode_encode`: what was saved is read back.
-/

namespace MediaDownloader

open Interaction

namespace PreviewContextStore

def keyPrefix : Str := str "umd:preview:"

/-- `_encode`, as `json.loads` reads it back. -/
def encode (context : PreviewContext) : Entry :=
  .text (.ok (.object
    [(str "url", .string context.url), (str "extractor_key", .string context.extractorKey),
      (str "max_compatible_short_side",
        match context.maxCompatibleShortSide with
        | none => .null
        | some side => .int side)]))

/-- Caught by `except (ValueError, KeyError, TypeError)`. -/
def isUnreadable : Exc → Bool
  | .other name => name == str "ValueError" || name == str "JSONDecodeError" ||
      name == str "KeyError" || name == str "TypeError"
  | _ => false

/-- The `try` block of `_decode`; a `bool` is an `int`. -/
def readContext (data : Json) : Except Exc PreviewContext := do
  let side ← data.item (str "max_compatible_short_side")
  let url ← data.item (str "url")
  let extractorKey ← data.item (str "extractor_key")
  match url, extractorKey with
  | .string url, .string extractorKey =>
    match side with
    | .null => .ok ⟨url, extractorKey, none⟩
    | .int n => .ok ⟨url, extractorKey, some n⟩
    | .bool b => .ok ⟨url, extractorKey, some (if b then 1 else 0)⟩
    | _ => .error (.other (str "TypeError"))
  | _, _ => .error (.other (str "TypeError"))

/-- `_decode`: bytes that are no UTF-8 raise before the `try`. -/
def decode : Option Entry → Except Exc (Option PreviewContext)
  | none => .ok none
  | some .notUtf8 => .error (.other (str "UnicodeDecodeError"))
  | some (.text loads) =>
    match (do readContext (← loads)) with
    | .ok context => .ok (some context)
    | .error e => if isUnreadable e then .ok none else .error e

def save (ttlSeconds : Int) (context : PreviewContext) : Job Str := do
  let token ← port .uuid4Hex
  port (.redisSet (keyPrefix ++ token) (encode context) ttlSeconds)
  pure token

def get (token : Str) : Job (Option PreviewContext) := do
  let value ← port (.redisGet (keyPrefix ++ token))
  Act.lift (decode value)

def delete (token : Str) : Job Unit := port (.redisDelete (keyPrefix ++ token))

/-- The atomic claim. -/
def pop (token : Str) : Job (Option PreviewContext) := do
  let value ← port (.redisGetdel (keyPrefix ++ token))
  Act.lift (decode value)

/-- What was saved is read back. -/
theorem decode_encode (context : PreviewContext) :
    decode (some (encode context)) = .ok (some context) := by
  obtain ⟨url, extractorKey, side⟩ := context
  cases side with
  | none => rfl
  | some side => rfl

theorem encode_injective {context context' : PreviewContext} (h : encode context = encode context') :
    context = context' := by
  have hd := decode_encode context
  rw [h, decode_encode] at hd
  cases hd
  rfl

end PreviewContextStore

end MediaDownloader
