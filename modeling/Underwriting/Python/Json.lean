import Underwriting.Python.Rounding

/-!
# JSON values

The values that `json.dumps` writes and `json.loads` reads back, and that a Pydantic
model dumps to in JSON mode. A serialised document is represented by its value;
objects keep their keys in order. Whole numbers and floats are kept apart because
they are printed differently.
-/

namespace Python

inductive Json where
  | null
  | bool (b : Bool)
  | int (i : ℤ)
  | float (q : ℚ)
  | str (s : String)
  | arr (items : List Json)
  | obj (entries : List (String × Json))

namespace Json

/-- The value of the first entry with a key. -/
def lookup : List (String × Json) → String → Option Json
  | [], _ => none
  | (k, v) :: entries, key => if k = key then some v else lookup entries key

/-- `d.get(key)`; `none` also when the value is not an object. -/
def get? : Json → String → Option Json
  | obj entries, key => lookup entries key
  | _, _ => none

/-- `bool(value)`. -/
def truthy : Json → Bool
  | null => false
  | bool b => b
  | int i => i ≠ 0
  | float q => q ≠ 0
  | str s => s ≠ ""
  | arr items => !items.isEmpty
  | obj entries => !entries.isEmpty

/-! ## Writing -/

/-- The text of a float: its decimal expansion, which is finite for every float. -/
def floatText (q : ℚ) : String :=
  let sign := if q < 0 then "-" else ""
  let n := q.num.natAbs
  match (List.range (q.den.log2 + 1)).find? fun k => 10 ^ k % q.den == 0 with
  | some k =>
      let digits := n * (10 ^ k / q.den)
      let frac := if k = 0 then ['0'] else padDigits k (digits % 10 ^ k)
      sign ++ Nat.repr (digits / 10 ^ k) ++ "." ++ String.ofList frac
  | none => sign ++ Nat.repr n ++ "/" ++ Nat.repr q.den

/-- Four lower-case hexadecimal digits of a UTF-16 code unit. -/
def hex4 (n : ℕ) : String :=
  String.ofList ([4096, 256, 16, 1].map fun d => Nat.digitChar (n / d % 16))

/-- One character inside a JSON string; outside ASCII it is escaped by code unit. -/
def escapeChar (c : Char) : String :=
  match c with
  | '"' => "\\\""
  | '\\' => "\\\\"
  | '\n' => "\\n"
  | '\r' => "\\r"
  | '\t' => "\\t"
  | c =>
      if c.toNat = 8 then "\\b"
      else if c.toNat = 12 then "\\f"
      else if 32 ≤ c.toNat ∧ c.toNat < 127 then String.ofList [c]
      else if c.toNat < 65536 then "\\u" ++ hex4 c.toNat
      else
        "\\u" ++ hex4 (55296 + (c.toNat - 65536) / 1024) ++
          "\\u" ++ hex4 (56320 + (c.toNat - 65536) % 1024)

def quote (s : String) : String :=
  "\"" ++ String.join (s.toList.map escapeChar) ++ "\""

mutual

/-- `json.dumps`. -/
def dumps : Json → String
  | null => "null"
  | bool b => if b then "true" else "false"
  | int i => toString i
  | float q => floatText q
  | str s => quote s
  | arr items => "[" ++ ", ".intercalate (dumpsItems items) ++ "]"
  | obj entries => "\x7b" ++ ", ".intercalate (dumpsEntries entries) ++ "\x7d"

def dumpsItems : List Json → List String
  | [] => []
  | j :: items => dumps j :: dumpsItems items

def dumpsEntries : List (String × Json) → List String
  | [] => []
  | (key, j) :: entries => (quote key ++ ": " ++ dumps j) :: dumpsEntries entries

end

example : dumps (obj [("dti", float 0.4), ("notes", str "a\"b\n"), ("flags", arr [null])]) =
    "\x7b\"dti\": 0.4, \"notes\": \"a\\\"b\\n\", \"flags\": [null]\x7d" := by
  decide +kernel

/-! ## Reading a value at an expected type -/

def asBool : Json → Option Bool
  | bool b => some b
  | _ => none

def asInt : Json → Option ℤ
  | int i => some i
  | _ => none

def asFloat : Json → Option ℚ
  | int i => some i
  | float q => some q
  | _ => none

def asStr : Json → Option String
  | str s => some s
  | _ => none

/-- A value of an optional type, where `null` stands for an absent one. -/
def asOption {α : Type} (dec : Json → Option α) : Json → Option (Option α)
  | null => some none
  | j => (dec j).map some

def asList {α : Type} (dec : Json → Option α) : Json → Option (List α)
  | arr items => items.mapM dec
  | _ => none

/-- The dump of an optional value. -/
def ofOption {α : Type} (enc : α → Json) : Option α → Json
  | none => null
  | some a => enc a

def ofStrings (ss : List String) : Json := arr (ss.map str)

theorem ofOption_float_injective : Function.Injective (ofOption float) := by
  intro q q' h
  cases q <;> cases q' <;> simp_all [ofOption]

theorem ofStrings_injective : Function.Injective ofStrings := fun _ _ h =>
  List.map_injective_iff.2 (fun _ _ => Json.str.inj) (Json.arr.inj h)

theorem mapM_map_of_decode {α β : Type} {enc : α → β} {dec : β → Option α}
    (h : ∀ a, dec (enc a) = some a) (as : List α) : (as.map enc).mapM dec = some as := by
  induction as with
  | nil => rfl
  | cons a as ih => simp [h, ih]

@[simp] theorem asList_arr_map {α : Type} {enc : α → Json} {dec : Json → Option α}
    (h : ∀ a, dec (enc a) = some a) (as : List α) :
    asList dec (arr (as.map enc)) = some as :=
  mapM_map_of_decode h as

@[simp] theorem asList_ofStrings (ss : List String) : asList asStr (ofStrings ss) = some ss :=
  @mapM_map_of_decode String Json str asStr (fun _ => rfl) ss

@[simp] theorem asOption_ofOption_str (s : Option String) :
    asOption asStr (ofOption str s) = some s := by
  cases s <;> rfl

end Json

end Python
