import MediaDownloader.Lib.Utf8
import MediaDownloader.Telegram.Handlers

/-!
# Unreadable preview entries

Whatever bytes another writer has left under a token.  How `json.loads` reads a
text is a parameter, with what it can raise.

* `readContext_ok_iff`, `readContext_error`: the checks on what was loaded;
* `decode_answers`, `decodable_of_ok`: `_decode` raises on bytes that are no UTF-8
  and when `json.loads` runs out of recursion, and on nothing else;
* `unreadable_iff`: so for the store and the three handlers;
* `not_utf8_raises`: one byte.
-/

namespace MediaDownloader

open Interaction

namespace PreviewContextStore

def jsonDecodeError : Exc := .other (str "JSONDecodeError")
def recursionError : Exc := .other (str "RecursionError")

/-- `json.loads`: a text that is no JSON, a number of too many digits, and
nesting beyond the interpreter's limit raise. -/
structure JsonLoads where
  loads : Str → Except Exc Json
  raises : ∀ text e, loads text = .error e →
    e = jsonDecodeError ∨ e = Exc.valueError ∨ e = recursionError

/-- The stored bytes, as `_decode` finds them. -/
def entryOf (j : JsonLoads) (bytes : List Nat) : Entry :=
  match Utf8.decode 0 bytes with
  | none => .notUtf8
  | some text => .text (j.loads text)

/-! ## What an entry holds -/

/-- The bytes are the UTF-8 of the text. -/
def Spells (bytes : List Nat) (text : Str) : Prop :=
  (∀ c ∈ text, Utf8.IsScalar c) ∧ text.flatMap Utf8.encodeChar = bytes

/-- An integer or `null`; a `bool` is an `int`. -/
inductive IsSide : Json → Option Int → Prop
  | null : IsSide .null none
  | int (n : Int) : IsSide (.int n) (some n)
  | bool (b : Bool) : IsSide (.bool b) (some (if b then 1 else 0))

/-- An object with the fields of the context, in their types. -/
structure HasFields (data : Json) (context : PreviewContext) : Prop where
  object : ∃ fields, data = .object fields ∧
    Json.lookup (str "url") fields = some (.string context.url) ∧
    Json.lookup (str "extractor_key") fields = some (.string context.extractorKey) ∧
    ∃ side, Json.lookup (str "max_compatible_short_side") fields = some side ∧
      IsSide side context.maxCompatibleShortSide

/-- What is stored is UTF-8 of JSON with the fields of the context. -/
def Holds (j : JsonLoads) (stored : Option (List Nat)) (context : PreviewContext) : Prop :=
  ∃ bytes text data, stored = some bytes ∧ Spells bytes text ∧ j.loads text = .ok data ∧
    HasFields data context

/-! ## The checks -/

theorem item_ok_iff (data : Json) (key : Str) (v : Json) :
    data.item key = .ok v ↔ ∃ fields, data = .object fields ∧ Json.lookup key fields = some v := by
  cases data with
  | object fields =>
    simp only [Json.item, Json.object.injEq, exists_eq_left']
    cases Json.lookup key fields <;> simp
  | _ => simp [Json.item]

theorem item_error {data : Json} {key : Str} {e : Exc} (h : data.item key = .error e) :
    isUnreadable e = true := by
  cases data with
  | object fields =>
    simp only [Json.item] at h
    cases hv : Json.lookup key fields with
    | none =>
      rw [hv] at h
      cases h
      decide
    | some v =>
      rw [hv] at h
      cases h
  | _ =>
    cases h
    decide

theorem readContext_ok_iff (data : Json) (context : PreviewContext) :
    readContext data = .ok context ↔ HasFields data context := by
  constructor
  · intro h
    obtain ⟨side, hsideItem, hrest⟩ := bind_eq_ok.mp h
    obtain ⟨url, hurlItem, hrest⟩ := bind_eq_ok.mp hrest
    obtain ⟨extractorKey, hkeyItem, hchecks⟩ := bind_eq_ok.mp hrest
    obtain ⟨fields, rfl, hside⟩ := (item_ok_iff ..).mp hsideItem
    obtain ⟨_, ⟨⟩, hurl⟩ := (item_ok_iff ..).mp hurlItem
    obtain ⟨_, ⟨⟩, hkey⟩ := (item_ok_iff ..).mp hkeyItem
    cases url with
    | string url =>
      cases extractorKey with
      | string extractorKey =>
        cases side with
        | null =>
          cases hchecks
          exact ⟨fields, rfl, hurl, hkey, _, hside, .null⟩
        | int n =>
          cases hchecks
          exact ⟨fields, rfl, hurl, hkey, _, hside, .int n⟩
        | bool b =>
          cases hchecks
          exact ⟨fields, rfl, hurl, hkey, _, hside, .bool b⟩
        | _ => cases hchecks
      | _ => cases hchecks
    | _ => cases hchecks
  · rintro ⟨fields, rfl, hurl, hkey, side, hside, hint⟩
    obtain ⟨url, extractorKey, number⟩ := context
    cases hint <;> simp [readContext, Json.item, hurl, hkey, hside]

/-- A check that fails raises what is caught. -/
theorem readContext_error {data : Json} {e : Exc} (h : readContext data = .error e) :
    isUnreadable e = true := by
  unfold readContext at h
  cases hside : data.item (str "max_compatible_short_side") with
  | error e' =>
    rw [hside] at h
    cases h
    exact item_error hside
  | ok side =>
    cases hurl : data.item (str "url") with
    | error e' =>
      rw [hside, hurl] at h
      cases h
      exact item_error hurl
    | ok url =>
      cases hkey : data.item (str "extractor_key") with
      | error e' =>
        rw [hside, hurl, hkey] at h
        cases h
        exact item_error hkey
      | ok extractorKey =>
        rw [hside, hurl, hkey] at h
        simp only [ok_bind] at h
        split at h
        · split at h <;> cases h
          decide
        · cases h
          decide

/-! ## `_decode` -/

/-- No bytes, or UTF-8 that `json.loads` reads without running out of recursion. -/
def Decodable (j : JsonLoads) (stored : Option (List Nat)) : Prop :=
  ∀ bytes, stored = some bytes → ∃ text, Spells bytes text ∧ j.loads text ≠ .error recursionError

section Decode

variable {j : JsonLoads}

theorem decode_notUtf8 {bytes : List Nat} (h : ∀ text, ¬ Spells bytes text) :
    decode (some (entryOf j bytes)) = .error (.other (str "UnicodeDecodeError")) := by
  cases hutf8 : Utf8.decode 0 bytes with
  | none => simp only [entryOf, hutf8, decode]
  | some text => exact absurd ((Utf8.decode_eq_some_iff bytes text).mp hutf8) (h text)

theorem entryOf_spells {bytes : List Nat} {text : Str} (h : Spells bytes text) :
    entryOf j bytes = .text (j.loads text) := by
  rw [entryOf, (Utf8.decode_eq_some_iff bytes text).mpr h]

/-- Without recursion trouble the answer is the context, if the text holds one. -/
theorem decode_loads {bytes : List Nat} {text : Str} (h : Spells bytes text)
    (hloads : j.loads text ≠ .error recursionError) :
    ∃ answer, decode (some (entryOf j bytes)) = .ok answer ∧ ∀ context, answer = some context ↔
      ∃ data, j.loads text = .ok data ∧ HasFields data context := by
  rw [entryOf_spells h]
  cases hdata : j.loads text with
  | error e =>
    have hcaught : isUnreadable e = true := by
      rcases j.raises text e hdata with rfl | rfl | rfl
      · decide
      · decide
      · exact absurd hdata hloads
    refine ⟨none, ?_, fun context => ?_⟩
    · simp only [decode, error_bind, if_pos hcaught]
    · simp
  | ok data =>
    cases hread : readContext data with
    | error e =>
      refine ⟨none, ?_, fun context => ?_⟩
      · simp only [decode, ok_bind, hread, if_pos (readContext_error hread)]
      · simp [← readContext_ok_iff, hread]
    | ok context =>
      refine ⟨some context, ?_, fun context' => ?_⟩
      · simp only [decode, ok_bind, hread]
      · simp [← readContext_ok_iff, hread]

/-- What is read is what is stored. -/
def Answers (j : JsonLoads) (stored : Option (List Nat)) (answer : Option PreviewContext) : Prop :=
  ∀ context, answer = some context ↔ Holds j stored context

theorem Spells.unique {bytes : List Nat} {text text' : Str} (h : Spells bytes text)
    (h' : Spells bytes text') : text = text' := by
  have hsome := (Utf8.decode_eq_some_iff bytes text).mpr h
  rw [(Utf8.decode_eq_some_iff bytes text').mpr h'] at hsome
  cases hsome
  rfl

theorem decode_answers {stored : Option (List Nat)} (h : Decodable j stored) :
    ∃ answer, decode (stored.map (entryOf j)) = .ok answer ∧ Answers j stored answer := by
  cases stored with
  | none => exact ⟨none, rfl, fun context => by simp [Holds]⟩
  | some bytes =>
    obtain ⟨text, hspells, hloads⟩ := h bytes rfl
    obtain ⟨answer, hanswer, hiff⟩ := decode_loads hspells hloads
    refine ⟨answer, hanswer, fun context => (hiff context).trans ?_⟩
    constructor
    · rintro ⟨data, hdata, hfields⟩
      exact ⟨bytes, text, data, rfl, hspells, hdata, hfields⟩
    · rintro ⟨_, text', data, ⟨⟩, hspells', hdata, hfields⟩
      rw [← hspells.unique hspells'] at hdata
      exact ⟨data, hdata, hfields⟩

theorem decodable_of_ok {stored : Option (List Nat)} {answer : Option PreviewContext}
    (h : decode (stored.map (entryOf j)) = .ok answer) : Decodable j stored := by
  rintro bytes rfl
  by_cases hutf8 : ∃ text, Spells bytes text
  · obtain ⟨text, hspells⟩ := hutf8
    refine ⟨text, hspells, fun hloads => ?_⟩
    have huncaught : isUnreadable recursionError = false := by decide
    rw [Option.map_some, entryOf_spells hspells, hloads] at h
    simp [decode, huncaught] at h
  · rw [Option.map_some, decode_notUtf8 (not_exists.mp hutf8)] at h
    cases h

end Decode

/-! ## The store and the handlers -/

/-- `get` and `pop` return the context that is stored, or `None`; a tap where none
is stored gets the stale-preview alert. -/
structure ReadsAsExpired (j : JsonLoads) (stored : Option (List Nat)) : Prop where
  get : ∀ token, ∃ answer, Runs (get token)
    [⟨.redisGet (keyPrefix ++ token), .ok (stored.map (entryOf j))⟩] (.ok answer) ∧
      Answers j stored answer
  pop : ∀ token, ∃ answer, Runs (pop token)
    [⟨.redisGetdel (keyPrefix ++ token), .ok (stored.map (entryOf j))⟩] (.ok answer) ∧
      Answers j stored answer
  quality : (∀ context, ¬ Holds j stored context) →
    ∀ (bot : Bot) (i18n : I18n) (callback : CallbackQuery),
      Steps (Handler.handleOpenQualityPicker bot i18n callback)
        [⟨.redisGet (keyPrefix ++ (callback.data.getD []).drop cbQualityPrefix.length),
          .ok (stored.map (entryOf j))⟩] (alertWith (i18n.get "flow-preview-stale" []))
  back : (∀ context, ¬ Holds j stored context) →
    ∀ (bot : Bot) (i18n : I18n) (callback : CallbackQuery),
      Steps (Handler.handleBackToFormat bot i18n callback)
        [⟨.redisGet (keyPrefix ++ (callback.data.getD []).drop cbBackPrefix.length),
          .ok (stored.map (entryOf j))⟩] (alertWith (i18n.get "flow-preview-stale" []))
  confirm : (∀ context, ¬ Holds j stored context) →
    ∀ (bot : Bot) (i18n : I18n) (callback : CallbackQuery),
      Steps (Handler.handleConfirmDownload bot i18n callback)
        [⟨.redisGetdel (keyPrefix ++ (parseConfirmCallback (callback.data.getD [])).1),
          .ok (stored.map (entryOf j))⟩] (alertWith (i18n.get "flow-preview-stale" []))

section Taps

variable {α : Type} {entry : Option Entry} {answer : Option PreviewContext}

/-- After the read, the program goes on with what was decoded. -/
theorem get_bind (token : Str) (f : Option PreviewContext → Job α)
    (h : decode entry = .ok answer) :
    Steps (get token >>= f : Job α) [⟨.redisGet (keyPrefix ++ token), .ok entry⟩] (f answer) := by
  have hrest : f answer = (Act.lift (decode entry) >>= f : Job α) := by
    rw [h]
    rfl
  rw [hrest]
  exact .call (.done _)

theorem pop_bind (token : Str) (f : Option PreviewContext → Job α)
    (h : decode entry = .ok answer) :
    Steps (pop token >>= f : Job α) [⟨.redisGetdel (keyPrefix ++ token), .ok entry⟩] (f answer) := by
  have hrest : f answer = (Act.lift (decode entry) >>= f : Job α) := by
    rw [h]
    rfl
  rw [hrest]
  exact .call (.done _)

theorem get_runs (token : Str) (r : Except Exc (Option PreviewContext)) :
    Runs (get token) [⟨.redisGet (keyPrefix ++ token), .ok entry⟩] r ↔ decode entry = r := by
  constructor
  · intro h
    obtain ⟨k, hk, hrest⟩ := h.uncons
    cases hk
    cases hrest
    rfl
  · rintro rfl
    exact .call (.done _)

theorem pop_runs (token : Str) (r : Except Exc (Option PreviewContext)) :
    Runs (pop token) [⟨.redisGetdel (keyPrefix ++ token), .ok entry⟩] r ↔ decode entry = r := by
  constructor
  · intro h
    obtain ⟨k, hk, hrest⟩ := h.uncons
    cases hk
    cases hrest
    rfl
  · rintro rfl
    exact .call (.done _)

end Taps

/-- What is stored reads as a context or as expired exactly when it can be decoded. -/
theorem unreadable_iff (j : JsonLoads) (stored : Option (List Nat)) :
    ReadsAsExpired j stored ↔ Decodable j stored := by
  constructor
  · intro h
    obtain ⟨answer, hruns, -⟩ := h.get []
    exact decodable_of_ok ((get_runs _ _).mp hruns)
  · intro h
    obtain ⟨answer, hanswer, hiff⟩ := decode_answers h
    have hnone (hno : ∀ context, ¬ Holds j stored context) :
        decode (stored.map (entryOf j)) = .ok none := by
      cases answer with
      | none => exact hanswer
      | some context => exact absurd ((hiff context).mp rfl) (hno context)
    exact
      { get := fun token => ⟨answer, (get_runs token _).mpr hanswer, hiff⟩
        pop := fun token => ⟨answer, (pop_runs token _).mpr hanswer, hiff⟩
        quality := fun hno bot i18n callback => get_bind _ _ (hnone hno)
        back := fun hno bot i18n callback => get_bind _ _ (hnone hno)
        confirm := fun hno bot i18n callback => pop_bind _ _ (hnone hno) }

/-- A reader of the one text `null`. -/
def loadsNull : JsonLoads where
  loads text := if text = str "null" then .ok .null else .error jsonDecodeError
  raises text e h := by
    by_cases hnull : text = str "null"
    · rw [if_pos hnull] at h
      cases h
    · rw [if_neg hnull] at h
      cases h
      exact .inl rfl

/-- The byte `0xFF` is no UTF-8, and `get` raises. -/
theorem not_utf8_raises : ¬ ∀ (j : JsonLoads) (stored : Option (List Nat)),
    ReadsAsExpired j stored := by
  intro hall
  obtain ⟨answer, hruns, -⟩ := (hall loadsNull (some [0xFF])).get (str "t")
  have hraises : decode (some (entryOf loadsNull [0xFF])) =
      .error (.other (str "UnicodeDecodeError")) := by rfl
  have hanswer := (get_runs _ _).mp hruns
  rw [Option.map_some, hraises] at hanswer
  cases hanswer

end PreviewContextStore

end MediaDownloader
