import Underwriting.Infrastructure.Runtime

/-!
# Logging configuration

The handler on the root logger writes one JSON object for each record. Its filter puts the
correlation id of the running request on the record, in place of an extra entry of that name.
The formatter writes the level, the logger and the message, copies the entries of the record,
and writes the level and the logger once more under the keys that queries use. The time is
left out.

An entry named like an attribute of the record would make the logging call itself raise, and
one named like a key of the formatter would be overwritten. `Plain` records have neither: their
lines hold every entry as it was given, `lookup_addFields_extra`, and the correlation id of
the request, `lookup_addFields_correlationId`.
-/

namespace Python.Json

/-- `d[key] = value`. -/
def setItem : List (String × Json) → String → Json → List (String × Json)
  | [], key, v => [(key, v)]
  | (k, w) :: entries, key, v =>
      if k = key then (k, v) :: entries else (k, w) :: setItem entries key v

theorem lookup_setItem_self (d : List (String × Json)) (key : String) (v : Json) :
    lookup (setItem d key v) key = some v := by
  induction d with
  | nil => simp [setItem, lookup]
  | cons entry d ih =>
      obtain ⟨k, w⟩ := entry
      by_cases h : k = key <;> simp [setItem, lookup, h, ih]

theorem lookup_setItem_of_ne {key key' : String} (h : key' ≠ key) (d : List (String × Json))
    (v : Json) : lookup (setItem d key v) key' = lookup d key' := by
  induction d with
  | nil => simp [setItem, lookup, h.symm]
  | cons entry d ih =>
      obtain ⟨k, w⟩ := entry
      by_cases hk : k = key
      · simp [setItem, lookup, hk, h.symm]
      · simp [setItem, lookup, hk, ih]

theorem map_fst_setItem_subset (d : List (String × Json)) (key : String) (v : Json) :
    (setItem d key v).map Prod.fst ⊆ key :: d.map Prod.fst := by
  induction d with
  | nil => simp [setItem]
  | cons entry d ih =>
      obtain ⟨k, w⟩ := entry
      by_cases hk : k = key
      · simp [setItem, hk]
      · simp only [setItem, hk, if_false, List.map_cons]
        intro x hx
        rcases List.mem_cons.1 hx with rfl | hx
        · simp
        · rcases List.mem_cons.1 (ih hx) with rfl | hx
          · simp
          · simp [hx]

theorem mem_of_lookup {d : List (String × Json)} {key : String} {v : Json}
    (h : lookup d key = some v) : key ∈ d.map Prod.fst := by
  induction d with
  | nil => cases h
  | cons entry d ih =>
      obtain ⟨k, w⟩ := entry
      by_cases hk : k = key
      · simp [hk]
      · rw [lookup, if_neg hk] at h
        exact List.mem_cons_of_mem _ (ih h)

end Python.Json

namespace Underwriting

open Python Json

/-- The attributes of a `LogRecord`, which the formatter does not copy. -/
def recordAttributes : List String :=
  ["name", "msg", "args", "levelname", "levelno", "pathname", "filename", "module", "exc_info",
    "exc_text", "stack_info", "lineno", "funcName", "created", "msecs", "relativeCreated",
    "thread", "threadName", "processName", "process", "message", "asctime"]

/-- The keys that the formatter writes after the entries of the record. -/
def formatterKeys : List String := ["timestamp", "level", "logger"]

/-- `CorrelationIdFilter.filter`, where `correlation_id_var` holds `context`. -/
def CorrelationIdFilter.filter (context : Option String) (extra : List (String × Json)) :
    List (String × Json) :=
  setItem extra "correlation_id" (.ofOption .str context)

/-- The formatter skips attributes of the record and private names. -/
def skipsEntry (key : String) : Bool := key ∈ recordAttributes ∨ key.toList.head? = some '_'

/-- `merge_record_extra`. -/
def mergeRecordExtra (target : List (String × Json)) (entries : List (String × Json)) :
    List (String × Json) :=
  entries.foldl (fun d entry => if skipsEntry entry.1 then d else setItem d entry.1 entry.2) target

/-- `_JsonFormatter.add_fields` for a record that the filter has seen. -/
def addFields (context : Option String) (record : LogRecord) : List (String × Json) :=
  let logRecord := mergeRecordExtra [("levelname", .str record.level), ("name", .str record.logger),
    ("message", .str record.message)] (CorrelationIdFilter.filter context record.extra)
  setItem (setItem logRecord "level" (.str record.level)) "logger" (.str record.logger)

/-- A line of the log: a record, and what `correlation_id_var` holds when it is written. -/
structure LogLine where
  context : Option String
  record : LogRecord

def LogLine.entries (line : LogLine) : List (String × Json) := addFields line.context line.record

/-! ## What a line holds -/

/-- The names of the extra entries, each given once, mean nothing to the record and the
formatter. -/
structure Plain (record : LogRecord) : Prop where
  nodup : (record.extra.map Prod.fst).Nodup
  free : ∀ key ∈ record.extra.map Prod.fst, skipsEntry key = false ∧ key ∉ formatterKeys

theorem lookup_mergeRecordExtra_of_not_mem {entries : List (String × Json)} {key : String}
    (h : key ∉ entries.map Prod.fst) (target : List (String × Json)) :
    lookup (mergeRecordExtra target entries) key = lookup target key := by
  induction entries generalizing target with
  | nil => rfl
  | cons entry entries ih =>
      rw [List.map_cons, List.mem_cons, not_or] at h
      rw [mergeRecordExtra, List.foldl_cons, ← mergeRecordExtra, ih h.2]
      split
      · rfl
      · exact lookup_setItem_of_ne h.1 _ _

/-- An entry that the formatter does not skip is there with its value. -/
theorem lookup_mergeRecordExtra {entries : List (String × Json)} {key : String}
    (hnodup : (entries.map Prod.fst).Nodup) (hkey : skipsEntry key = false) {v : Json}
    (hv : lookup entries key = some v) (target : List (String × Json)) :
    lookup (mergeRecordExtra target entries) key = some v := by
  induction entries generalizing target with
  | nil => cases hv
  | cons entry entries ih =>
      obtain ⟨k, w⟩ := entry
      rw [List.map_cons, List.nodup_cons] at hnodup
      rw [mergeRecordExtra, List.foldl_cons, ← mergeRecordExtra]
      by_cases hk : k = key
      · subst hk
        rw [lookup, if_pos rfl] at hv
        rw [lookup_mergeRecordExtra_of_not_mem hnodup.1, hkey, ← hv]
        exact lookup_setItem_self _ _ _
      · rw [lookup, if_neg hk] at hv
        exact ih hnodup.2 hv _

section Line

variable {record : LogRecord} (h : Plain record) (context : Option String)

theorem CorrelationIdFilter.nodup_filter {extra : List (String × Json)}
    (h : (extra.map Prod.fst).Nodup) : ((filter context extra).map Prod.fst).Nodup := by
  rw [filter]
  induction extra with
  | nil => simp [setItem]
  | cons entry extra ih =>
      obtain ⟨k, w⟩ := entry
      rw [List.map_cons, List.nodup_cons] at h
      by_cases hk : k = "correlation_id"
      · simpa [setItem, hk] using h
      · rw [setItem, if_neg hk, List.map_cons, List.nodup_cons]
        refine ⟨fun hmem => ?_, ih h.2⟩
        rcases List.mem_cons.1 (map_fst_setItem_subset _ _ _ hmem) with heq | hmem
        · exact hk heq
        · exact h.1 hmem

include h

/-- Every line is found under the id of its request, whatever the record says itself. -/
theorem lookup_addFields_correlationId :
    lookup (addFields context record) "correlation_id" = some (.ofOption .str context) := by
  rw [addFields, lookup_setItem_of_ne (by decide), lookup_setItem_of_ne (by decide)]
  exact lookup_mergeRecordExtra (CorrelationIdFilter.nodup_filter context h.nodup) (by decide)
    (lookup_setItem_self _ _ _) _

/-- And every other entry is written as it was given. -/
theorem lookup_addFields_extra {key : String} {v : Json} (hne : key ≠ "correlation_id")
    (hv : lookup record.extra key = some v) : lookup (addFields context record) key = some v := by
  obtain ⟨hskip, hkeys⟩ := h.free key (mem_of_lookup hv)
  simp only [formatterKeys, List.mem_cons, not_or] at hkeys
  rw [addFields, lookup_setItem_of_ne hkeys.2.2.1, lookup_setItem_of_ne hkeys.2.1]
  refine lookup_mergeRecordExtra (CorrelationIdFilter.nodup_filter context h.nodup) hskip ?_ _
  rw [CorrelationIdFilter.filter, lookup_setItem_of_ne hne]
  exact hv

end Line

end Underwriting
