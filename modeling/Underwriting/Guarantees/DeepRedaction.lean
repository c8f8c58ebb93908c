import Underwriting.Infrastructure.PiiRedaction

/-!
# Redaction at any depth

A mapping is redacted through mappings and through lists of mappings and of strings. A list
inside a list is handed on as it is, and an extra key is only found when it is written in
lower case, since the key of an entry is turned to lower case and the extra key is not. So
the result is what it should be exactly when nothing has to be redacted in a list inside a
list and no entry is missed because of the letter case of an extra key.
-/

namespace Underwriting

open Python

section Redaction

variable (u : Unicode) (extra : List String)

/-- The key is a sensitive one up to letter case. -/
def SensitiveKey (key : String) : Prop :=
  ∃ k ∈ sensitiveKeys ++ extra, u.lower key = k ∨ u.lower key = u.lower k

instance (key : String) : Decidable (SensitiveKey u extra key) :=
  inferInstanceAs (Decidable (∃ k ∈ sensitiveKeys ++ extra, _))

theorem sensitiveKey_of_mem {key : String} (h : u.lower key ∈ sensitiveKeys ++ extra) :
    SensitiveKey u extra key :=
  ⟨_, h, .inl rfl⟩

/-! ## What the result should be -/

mutual

/-- At any depth the value under a sensitive key is the placeholder, and every other string is
redacted. -/
def deepMapping : List (String × Json) → List (String × Json)
  | [] => []
  | (key, value) :: entries =>
      (key, if SensitiveKey u extra key then .str redacted else deepValue value) ::
        deepMapping entries

def deepValue : Json → Json
  | .obj entries => .obj (deepMapping entries)
  | .arr items => .arr (deepItems items)
  | .str s => .str (redactText u s)
  | value => value

def deepItems : List Json → List Json
  | [] => []
  | item :: items => deepValue item :: deepItems items

end

mutual

/-- Nothing in the value has to be redacted. -/
def Harmless : Json → Prop
  | .obj entries => HarmlessEntries entries
  | .arr items => HarmlessItems items
  | .str s => redactText u s = s
  | _ => True

def HarmlessEntries : List (String × Json) → Prop
  | [] => True
  | (key, value) :: entries =>
      (if SensitiveKey u extra key then value = .str redacted else Harmless value) ∧
        HarmlessEntries entries

def HarmlessItems : List Json → Prop
  | [] => True
  | item :: items => Harmless item ∧ HarmlessItems items

end

/-! ## What is reached -/

mutual

/-- Lists inside lists are harmless, and the letter case of the extra keys makes no
difference. -/
def Covered : Json → Prop
  | .obj entries => CoveredEntries entries
  | .arr items => CoveredItems items
  | _ => True

def CoveredEntries : List (String × Json) → Prop
  | [] => True
  | (key, value) :: entries =>
      (if u.lower key ∈ sensitiveKeys ++ extra then True
        else if SensitiveKey u extra key then ∃ s, value = .str s ∧ redactText u s = redacted
        else Covered value) ∧ CoveredEntries entries

def CoveredItems : List Json → Prop
  | [] => True
  | .arr items :: rest => HarmlessItems u extra items ∧ CoveredItems rest
  | item :: rest => Covered item ∧ CoveredItems rest

end

mutual

theorem deepMapping_eq_self_iff : ∀ entries : List (String × Json),
    deepMapping u extra entries = entries ↔ HarmlessEntries u extra entries
  | [] => by simp [deepMapping, HarmlessEntries]
  | (key, value) :: entries => by
      rw [deepMapping, HarmlessEntries, List.cons.injEq, deepMapping_eq_self_iff entries,
        Prod.mk.injEq, eq_self_iff_true, true_and]
      split_ifs with hsensitive
      · rw [eq_comm]
      · rw [deepValue_eq_self_iff value]

theorem deepValue_eq_self_iff : ∀ value : Json,
    deepValue u extra value = value ↔ Harmless u extra value
  | .obj entries => by
      rw [deepValue, Harmless, Json.obj.injEq, deepMapping_eq_self_iff entries]
  | .arr items => by rw [deepValue, Harmless, Json.arr.injEq, deepItems_eq_self_iff items]
  | .str s => by rw [deepValue, Harmless, Json.str.injEq]
  | .null | .bool _ | .int _ | .float _ => by simp [deepValue, Harmless]

theorem deepItems_eq_self_iff : ∀ items : List Json,
    deepItems u extra items = items ↔ HarmlessItems u extra items
  | [] => by simp [deepItems, HarmlessItems]
  | item :: items => by
      rw [deepItems, HarmlessItems, List.cons.injEq, deepValue_eq_self_iff item,
        deepItems_eq_self_iff items]

end

/-- Only a string can turn into the placeholder. -/
theorem redactValue_eq_redacted_iff (value : Json) :
    redactValue u extra value = .str redacted ↔
      ∃ s, value = .str s ∧ redactText u s = redacted := by
  cases value with
  | str s => simp [redactValue]
  | null => simp [redactValue]
  | bool b => simp [redactValue]
  | int i => simp [redactValue]
  | float q => simp [redactValue]
  | arr items => simp [redactValue]
  | obj entries => simp [redactValue]

mutual

theorem redactMapping_eq_deepMapping_iff : ∀ entries : List (String × Json),
    redactMapping u extra entries = deepMapping u extra entries ↔
      CoveredEntries u extra entries
  | [] => by simp [redactMapping, deepMapping, CoveredEntries]
  | (key, value) :: entries => by
      rw [redactMapping, deepMapping, CoveredEntries, List.cons.injEq,
        redactMapping_eq_deepMapping_iff entries, Prod.mk.injEq, eq_self_iff_true, true_and]
      by_cases hfound : u.lower key ∈ sensitiveKeys ++ extra
      · rw [if_pos hfound, if_pos hfound, if_pos (sensitiveKey_of_mem u extra hfound),
          eq_self_iff_true]
      · rw [if_neg hfound, if_neg hfound]
        split_ifs with hsensitive
        · rw [redactValue_eq_redacted_iff]
        · rw [redactValue_eq_deepValue_iff value]

theorem redactValue_eq_deepValue_iff : ∀ value : Json,
    redactValue u extra value = deepValue u extra value ↔ Covered u extra value
  | .obj entries => by
      rw [redactValue, deepValue, Covered, Json.obj.injEq, redactMapping_eq_deepMapping_iff entries]
  | .arr items => by
      rw [redactValue, deepValue, Covered, Json.arr.injEq, redactItems_eq_deepItems_iff items]
  | .str _ | .null | .bool _ | .int _ | .float _ => by simp [redactValue, deepValue, Covered]

theorem redactItems_eq_deepItems_iff : ∀ items : List Json,
    redactItems u extra items = deepItems u extra items ↔ CoveredItems u extra items
  | [] => by simp [redactItems, deepItems, CoveredItems]
  | .arr inner :: items => by
      simp only [redactItems, deepItems, CoveredItems, List.cons.injEq, deepValue, Json.arr.injEq,
        redactItems_eq_deepItems_iff items]
      rw [eq_comm, deepItems_eq_self_iff]
  | .obj entries :: items => by
      simp only [redactItems, deepItems, CoveredItems, List.cons.injEq, deepValue, Json.obj.injEq,
        Covered, redactItems_eq_deepItems_iff items, redactMapping_eq_deepMapping_iff entries]
  | .str _ :: items | .null :: items | .bool _ :: items | .int _ :: items | .float _ :: items => by
      simp only [redactItems, deepItems, CoveredItems, List.cons.injEq, deepValue, Covered,
        true_and, redactItems_eq_deepItems_iff items]

end

theorem deep_redaction_iff (data : List (String × Json)) :
    redactMapping u extra data = deepMapping u extra data ↔ CoveredEntries u extra data :=
  redactMapping_eq_deepMapping_iff u extra data

end Redaction

/-- An address in a list inside a list stays readable, and so does the value under an extra
key that is not written in lower case. -/
theorem nested_address_not_redacted :
    redactMapping .ascii [] [("notes", .arr [.arr [.str "jane.doe@example.com"]])] ≠
        deepMapping .ascii [] [("notes", .arr [.arr [.str "jane.doe@example.com"]])] ∧
      redactMapping .ascii ["Passport"] [("Passport", .str "X1234567")] ≠
        deepMapping .ascii ["Passport"] [("Passport", .str "X1234567")] := by
  have haddress : redactText .ascii "jane.doe@example.com" ≠ "jane.doe@example.com" := by
    decide
  have hnumber : redactText .ascii "X1234567" ≠ redacted := by
    decide
  have hnotes : ¬ SensitiveKey .ascii [] "notes" := by
    decide
  have hpassport : SensitiveKey .ascii ["Passport"] "Passport" := by
    decide
  have hmissed : Unicode.ascii.lower "Passport" ∉ sensitiveKeys ++ ["Passport"] := by
    decide
  constructor
  · rw [Ne, redactMapping_eq_deepMapping_iff, CoveredEntries,
      if_neg fun hmem => hnotes (sensitiveKey_of_mem _ _ hmem), if_neg hnotes]
    intro hcovered
    exact haddress hcovered.1.1.1
  · rw [Ne, redactMapping_eq_deepMapping_iff, CoveredEntries, if_neg hmissed, if_pos hpassport]
    rintro ⟨⟨s, hs, hredacted⟩, -⟩
    rw [← Json.str.inj hs] at hredacted
    exact hnumber hredacted

end Underwriting
