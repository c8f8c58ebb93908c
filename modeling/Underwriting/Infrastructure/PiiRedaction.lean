import Underwriting.Python.Json
import Underwriting.Python.Regex

/-!
# PII redaction

Four patterns are substituted one after another in every string, and the value under
a sensitive key is replaced as a whole. Lists inside lists are passed through.
-/

namespace Underwriting

open Python Python.Regex

def redacted : String := "***REDACTED***"

private def oneOf (s : String) (c : Char) : Bool := s.toList.contains c

private def asciiLetter (c : Char) : Bool := c.isAlpha

def emailPattern : Regex :=
  seq (plus fun c => c.isAlphanum || oneOf "._%+-" c) <| seq (char '@') <|
    seq (plus fun c => c.isAlphanum || oneOf ".-" c) <| seq (char '.') <|
    seq (times (set asciiLetter) 2) (star asciiLetter)

def ssnPattern (u : Unicode) : Regex :=
  let d := set (isDigit u)
  seq (boundary u) <| seq (times d 3) <| seq (char '-') <| seq (times d 2) <|
    seq (char '-') <| seq (times d 4) (boundary u)

def phonePattern (u : Unicode) : Regex :=
  let d := set (isDigit u)
  let sep := opt (set fun c => oneOf "-." c || isSpace c)
  seq (boundary u) <| seq (opt (seq (opt (char '+')) (seq (char '1') sep))) <|
    seq (opt (char '(')) <| seq (times d 3) <| seq (opt (char ')')) <| seq sep <|
    seq (times d 3) <| seq sep <| seq (times d 4) (boundary u)

def cardNumberPattern (u : Unicode) : Regex :=
  let d := seq (set (isDigit u)) (opt (set (oneOf " -")))
  seq (boundary u) <| seq (times d 13) <| seq (upTo d 3) (boundary u)

def piiPatterns (u : Unicode) : List Regex :=
  [emailPattern, ssnPattern u, phonePattern u, cardNumberPattern u]

def sensitiveKeys : List String :=
  ["applicant_full_name", "ssn", "social_security_number", "email", "phone", "phone_number",
    "address", "employer_name", "reviewer_id"]

def redactText (u : Unicode) (text : String) : String :=
  if text = "" then text
  else
    String.ofList <| (piiPatterns u).foldl (fun s pattern => sub pattern redacted.toList s)
      text.toList

mutual

/-- `redact_mapping(entries, extra_sensitive_keys=extra)`. -/
def redactMapping (u : Unicode) (extra : List String) :
    List (String × Json) → List (String × Json)
  | [] => []
  | (key, value) :: entries =>
      (key, if u.lower key ∈ sensitiveKeys ++ extra then .str redacted
        else redactValue u extra value) :: redactMapping u extra entries

def redactValue (u : Unicode) (extra : List String) : Json → Json
  | .obj entries => .obj (redactMapping u extra entries)
  | .arr items => .arr (redactItems u extra items)
  | .str s => .str (redactText u s)
  | value => value

def redactItems (u : Unicode) (extra : List String) : List Json → List Json
  | [] => []
  | .obj entries :: items => .obj (redactMapping u extra entries) :: redactItems u extra items
  | .str s :: items => .str (redactText u s) :: redactItems u extra items
  | value :: items => value :: redactItems u extra items

end

example : redactText .ascii "mail a.b@c.org or 555-123-4567" =
    "mail ***REDACTED*** or ***REDACTED***" := by decide +kernel

end Underwriting
