import Underwriting.Guarantees.Redaction

/-!
# Redaction keeps the structure

Redaction replaces strings by strings and the values under sensitive keys by a string, and
nothing else: no entry and no item is dropped, moved or added at any depth, and numbers,
booleans and nulls that are not under a sensitive key are handed on. A mapping that has been
redacted is left alone by the next redaction, because the placeholder under a sensitive key is
replaced by itself and every other string is clean.
-/

namespace Underwriting

open Python

section Structure

variable (u : Unicode) (extra : List String)

mutual

/-- The two values differ at most in their strings and under sensitive keys. -/
def SameStructure : Json → Json → Prop
  | .obj entries, .obj entries' => SameEntries entries entries'
  | .arr items, .arr items' => SameItems items items'
  | .str _, .str _ => True
  | .null, .null => True
  | .bool b, .bool b' => b = b'
  | .int i, .int i' => i = i'
  | .float q, .float q' => q = q'
  | _, _ => False

/-- The same keys in the same order, and the same structure under each that is not sensitive. -/
def SameEntries : List (String × Json) → List (String × Json) → Prop
  | [], [] => True
  | (key, value) :: entries, (key', value') :: entries' =>
      key = key' ∧ (u.lower key ∉ sensitiveKeys ++ extra → SameStructure value value') ∧
        SameEntries entries entries'
  | _, _ => False

/-- The same number of items, and the same structure in each place. -/
def SameItems : List Json → List Json → Prop
  | [], [] => True
  | item :: items, item' :: items' => SameStructure item item' ∧ SameItems items items'
  | _, _ => False

end

mutual

/-- What is handed on as it is has the same structure. -/
theorem sameStructure_refl : ∀ value : Json, SameStructure u extra value value
  | .obj entries => by
      rw [SameStructure]
      exact sameEntries_refl entries
  | .arr items => by
      rw [SameStructure]
      exact sameItems_refl items
  | .str _ | .null | .bool _ | .int _ | .float _ => by simp [SameStructure]

theorem sameEntries_refl : ∀ entries : List (String × Json), SameEntries u extra entries entries
  | [] => by simp [SameEntries]
  | (key, value) :: entries => by
      rw [SameEntries]
      exact ⟨rfl, fun _ => sameStructure_refl value, sameEntries_refl entries⟩

theorem sameItems_refl : ∀ items : List Json, SameItems u extra items items
  | [] => by simp [SameItems]
  | item :: items => by
      rw [SameItems]
      exact ⟨sameStructure_refl item, sameItems_refl items⟩

end

mutual

theorem sameEntries_redactMapping : ∀ entries : List (String × Json),
    SameEntries u extra entries (redactMapping u extra entries)
  | [] => by simp [redactMapping, SameEntries]
  | (key, value) :: entries => by
      rw [redactMapping, SameEntries]
      refine ⟨rfl, ?_, sameEntries_redactMapping entries⟩
      intro hkey
      rw [if_neg hkey]
      exact sameStructure_redactValue value

theorem sameStructure_redactValue : ∀ value : Json,
    SameStructure u extra value (redactValue u extra value)
  | .obj entries => by
      rw [redactValue, SameStructure]
      exact sameEntries_redactMapping entries
  | .arr items => by
      rw [redactValue, SameStructure]
      exact sameItems_redactItems items
  | .str _ | .null | .bool _ | .int _ | .float _ => by simp [redactValue, SameStructure]

theorem sameItems_redactItems : ∀ items : List Json,
    SameItems u extra items (redactItems u extra items)
  | [] => by simp [redactItems, SameItems]
  | .obj entries :: items => by
      rw [redactItems, SameItems, SameStructure]
      exact ⟨sameEntries_redactMapping entries, sameItems_redactItems items⟩
  | .arr inner :: items => by
      simp only [redactItems, SameItems]
      exact ⟨sameStructure_refl u extra (.arr inner), sameItems_redactItems items⟩
  | .str _ :: items | .null :: items | .bool _ :: items | .int _ :: items | .float _ :: items => by
      simpa [redactItems, SameItems, SameStructure] using sameItems_redactItems items

end

/-! ## Redacting twice -/

theorem redactText_redactText (text : String) :
    redactText u (redactText u text) = redactText u text :=
  redactText_of_clean u (clean_redactText u text)

mutual

theorem redactMapping_redactMapping : ∀ entries : List (String × Json),
    redactMapping u extra (redactMapping u extra entries) = redactMapping u extra entries
  | [] => by simp [redactMapping]
  | (key, value) :: entries => by
      rw [redactMapping, redactMapping, redactMapping_redactMapping entries]
      by_cases hkey : u.lower key ∈ sensitiveKeys ++ extra
      · rw [if_pos hkey, if_pos hkey]
      · rw [if_neg hkey, if_neg hkey, redactValue_redactValue value]

theorem redactValue_redactValue : ∀ value : Json,
    redactValue u extra (redactValue u extra value) = redactValue u extra value
  | .obj entries => by rw [redactValue, redactValue, redactMapping_redactMapping entries]
  | .arr items => by rw [redactValue, redactValue, redactItems_redactItems items]
  | .str s => by rw [redactValue, redactValue, redactText_redactText]
  | .null | .bool _ | .int _ | .float _ => by simp [redactValue]

theorem redactItems_redactItems : ∀ items : List Json,
    redactItems u extra (redactItems u extra items) = redactItems u extra items
  | [] => by simp [redactItems]
  | .obj entries :: items => by
      rw [redactItems, redactItems, redactMapping_redactMapping entries,
        redactItems_redactItems items]
  | .str s :: items => by
      rw [redactItems, redactItems, redactText_redactText, redactItems_redactItems items]
  | .arr _ :: items | .null :: items | .bool _ :: items | .int _ :: items | .float _ :: items => by
      simp [redactItems, redactItems_redactItems items]

end

theorem redaction_keeps_structure (data : List (String × Json)) :
    SameEntries u extra data (redactMapping u extra data) ∧
      redactMapping u extra (redactMapping u extra data) = redactMapping u extra data :=
  ⟨sameEntries_redactMapping u extra data, redactMapping_redactMapping u extra data⟩

end Structure

end Underwriting
