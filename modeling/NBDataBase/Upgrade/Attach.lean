import NBDataBase.Sql.Literal

/-!
# Upgrade — the text of `ATTACH`

`upgradeDatabase:` splices the path and the secret key into the text of its `ATTACH` statement,
between quotes and without escaping.  SQLite reads them back through its string literals.

* `attachSQL`: the text; `parseAttach`: the path and key SQLite reads from a text.
* `parseAttach_plain`: a path and a key without a quote are read back as they are.
* `parseAttach_path`, `parseAttach_key`: whatever else SQLite reads, it is not them.
-/

namespace NBDataBase
open Sql

def attachSQL (path secretkey : String) : String :=
  "ATTACH DATABASE '" ++ (path ++ ("' AS encrypted KEY '" ++ (secretkey ++ "';")))

/-- The path and key of `ATTACH DATABASE '…' AS encrypted KEY '…';`, as SQLite reads them.
Any other text is a syntax error. -/
def parseAttach (sql : String) : Option (String × String) := do
  let cs ← after "ATTACH DATABASE '".toList sql.toList
  let path ← literal cs
  let cs ← after " AS encrypted KEY '".toList path.2
  let key ← literal cs
  if key.2 = ";".toList then some (String.ofList path.1, String.ofList key.1) else none

theorem attachSQL_toList (path key : String) :
    (attachSQL path key).toList = "ATTACH DATABASE '".toList ++
      (path.toList ++ '\'' :: (" AS encrypted KEY '".toList ++
        (key.toList ++ '\'' :: ";".toList))) := by
  have hmid : "' AS encrypted KEY '".toList = '\'' :: " AS encrypted KEY '".toList := by decide
  have hend : "';".toList = '\'' :: ";".toList := by decide
  unfold attachSQL
  simp only [String.toList_append, hmid, hend, List.cons_append]

/-- A path and a key without a quote are read back. -/
theorem parseAttach_plain {path key : String} (hp : Plain path.toList) (hk : Plain key.toList) :
    parseAttach (attachSQL path key) = some (path, key) := by
  have hpath := literal_plain hp (r := " AS encrypted KEY '".toList ++
    (key.toList ++ '\'' :: ";".toList)) (by simp)
  have hkey := literal_plain hk (r := ";".toList) (by simp)
  simp only [parseAttach, attachSQL_toList, after_append, hpath, hkey, Option.bind_eq_bind,
    Option.bind_some, if_true, String.ofList_toList]

/-- What was read, when something was. -/
theorem parseAttach_eq_some {path key p k : String}
    (h : parseAttach (attachSQL path key) = some (p, k)) :
    ∃ r, literal (path.toList ++ '\'' :: (" AS encrypted KEY '".toList ++
          (key.toList ++ '\'' :: ";".toList))) =
        some (p.toList, " AS encrypted KEY '".toList ++ r) ∧
      literal r = some (k.toList, ";".toList) := by
  simp only [parseAttach, attachSQL_toList, after_append, Option.bind_eq_bind,
    Option.bind_some, Option.bind_eq_some_iff] at h
  obtain ⟨⟨x, r₁⟩, hx, r₂, hr₂, ⟨y, r₃⟩, hy, h⟩ := h
  split at h
  · obtain ⟨rfl, rfl⟩ := Prod.mk.inj (Option.some.inj h)
    refine ⟨r₂, ?_, ?_⟩
    · rw [hx, String.toList_ofList]
      exact congrArg (fun r => some (x, r)) (after_eq_some hr₂)
    · rw [hy, String.toList_ofList]
      exact congrArg (fun r => some (y, r)) ‹_›
  · simp at h

/-- A path with a quote is not read back, and after a path without one comes the key. -/
theorem parseAttach_path {path key p k : String}
    (h : parseAttach (attachSQL path key) = some (p, k)) (hp : p = path) :
    Plain path.toList ∧
      literal (key.toList ++ '\'' :: ";".toList) = some (k.toList, ";".toList) := by
  obtain ⟨r, hpath, hkey⟩ := parseAttach_eq_some h
  subst hp
  obtain ⟨hplain, hr⟩ := literal_self (by simp) hpath
  have hr' : r = key.toList ++ '\'' :: ";".toList := List.append_cancel_left hr
  exact ⟨hplain, hr' ▸ hkey⟩

/-- A key with a quote is not read back, and the key read is not empty. -/
theorem parseAttach_key {path key p k : String}
    (h : parseAttach (attachSQL path key) = some (p, k)) (hp : p = path) :
    (k = key → Plain key.toList) ∧ (key ≠ "" → k ≠ "") := by
  obtain ⟨-, hkey⟩ := parseAttach_path h hp
  refine ⟨fun e => ?_, fun hne e => hne ?_⟩
  · subst e
    exact (literal_self (by simp) hkey).1
  · subst e
    have he := literal_eq_some hkey
    simpa [escape] using he

end NBDataBase
