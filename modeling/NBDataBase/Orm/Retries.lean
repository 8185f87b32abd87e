import NBDataBase.Lib.Retried
import NBDataBase.Orm.Store

/-!
# Orm — calls that are repeated

A caller that does not know whether a save arrived makes it again.

* `updatedRow_twice`, `updatedRow_stored`: an upsert of a model that archives no field, again.
* `retries_harmless`: calls that are repeated before another one of their key leave the rows that
  they leave when none is, and each repetition is answered as the call was.
-/

namespace NBDataBase
open Sql (fold Db Table Row Value)

variable {R : Runtime} {T : String} {cls : ModelClass} {m : Model} {tbl : Table} {db : Db}

/-! ### An update again -/

section Updated

variable (h : m.cls.Valid T) (hst : Storable m)

include hst in
/-- An update sets the column of a field that has a value, or leaves the column. -/
theorem updatedRow_cases (R : Runtime) (tbl : Table) (c : String) :
    (∃ p ∈ fieldProperties m, ∃ v, m.value p.column = some v ∧ fold p.column = c) ∨
      ∀ r, updatedRow R tbl m r c = r c := by
  by_cases hset : ∃ e ∈ updateBindings m (properties m.cls.chain), fold e.1 = c
  · obtain ⟨e, he, rfl⟩ := hset
    obtain ⟨p, hp, hcolumn, hv⟩ := (mem_updateBindings_fields hst).mp he
    exact .inl ⟨p, hp, e.2, hv, by rw [hcolumn]⟩
  · refine .inr fun r => Sql.assign_other (fun s hs hc => hset ?_) r
    obtain ⟨e, he, rfl⟩ := List.mem_map.mp hs
    exact ⟨e, he, hc⟩

include h hst

theorem updatedRow_twice (r : Row) :
    updatedRow R tbl m (updatedRow R tbl m r) = updatedRow R tbl m r := by
  funext c
  rcases updatedRow_cases hst R tbl c with ⟨p, hp, v, hv, rfl⟩ | hkept
  · rw [updatedRow_value h hst hp hv, updatedRow_value h hst hp hv]
  · exact hkept _

/-- An update of what the insert stored changes nothing, if no field is archived. -/
theorem updatedRow_stored (hplain : ∀ p ∈ fieldProperties m, ¬ Archived m p) :
    updatedRow R tbl m (storedRow R tbl m) = storedRow R tbl m := by
  funext c
  rcases updatedRow_cases hst R tbl c with ⟨p, hp, v, hv, rfl⟩ | hkept
  · exact updatedRow_plain h hst hp hv (hplain p hp) _
  · exact hkept _

end Updated

/-! ### Runs -/

/-- An upsert again leaves what it left. -/
def Repeatable (c : RowCall × Model) : Prop :=
  c.1 = .saveToDBUseUpdate → ∀ p ∈ fieldProperties c.2, ¬ Archived c.2 p

theorem callOf_idempotent (h : cls.Valid T) {c : RowCall × Model} (hc : c.1.Allowed R cls c.2)
    (hplain : Repeatable c) : (callOf R tbl c).command.Idempotent := by
  obtain ⟨call, m⟩ := c
  obtain rfl := hc.cls
  cases call with
  | saveToDBUseUpdate =>
      exact ⟨updatedRow_stored h hc.storable (hplain rfl), updatedRow_twice h hc.storable⟩
  | saveToDB => trivial
  | saveToDBUseReplace => trivial
  | deleteToDB => trivial
  | isExistsFromDB => trivial

/-- The calls about the rows with a key, each with its answer. -/
def answeredAt (R : Runtime) (tbl : Table) (k : List Value) (calls : List (RowCall × Model))
    (answers : List Bool) : List ((RowCall × Model) × Bool) :=
  (calls.zip answers).filter fun e => rowKey R tbl e.1.2 = k

theorem Refines.answeredAt_eq {calls : List (RowCall × Model)} {answers : List Bool}
    {rows : List Row} (h : Refines R tbl calls answers rows) (k : List Value) :
    answeredAt R tbl k calls answers =
      Keyed.answered (callOf R tbl) (callsAt R tbl k calls) tbl.store := by
  have hlocal : (Keyed.answered (callOf R tbl) calls tbl.store).filter
      (fun e => (callOf R tbl e.1).key = k) = Keyed.answered (callOf R tbl)
        (calls.filter fun c => (callOf R tbl c).key = k) tbl.store := Keyed.answered_local calls rfl
  rw [answeredAt, h.answers]
  exact hlocal

/-- **Repeated calls do no harm**: when every key sees its calls in their order, each once or more
times, the rows are the same up to order, and each repetition is answered as the call was. -/
theorem retries_harmless (h : Keyable cls T) {calls calls' : List (RowCall × Model)}
    (hcalls : ∀ c ∈ calls, c.1.Allowed R cls c.2) (hplain : ∀ c ∈ calls, Repeatable c)
    (htbl : TableOf cls tbl) (hdb : db (fold T) = some tbl)
    (hretried : ∀ k, Retried (callsAt R tbl k calls) (callsAt R tbl k calls')) :
    ∃ answers answers' rows rows',
      runCalls R calls db =
        (.ok answers, Function.update db (fold T) (some { tbl with rows := rows })) ∧
      runCalls R calls' db =
        (.ok answers', Function.update db (fold T) (some { tbl with rows := rows' })) ∧
      rows.Perm rows' ∧
      ∀ k, Retried (answeredAt R tbl k calls answers) (answeredAt R tbl k calls' answers') := by
  have hcalls' : ∀ c ∈ calls', c.1.Allowed R cls c.2 := by
    intro c hc
    have hmem : c ∈ callsAt R tbl (rowKey R tbl c.2) calls' :=
      List.mem_filter.mpr ⟨hc, by simp⟩
    exact hcalls c (List.mem_filter.mp ((hretried _).mem_iff.mpr hmem)).1
  have hidem : ∀ c ∈ calls, (callOf R tbl c).command.Idempotent := fun c hc =>
    callOf_idempotent h.valid (hcalls c hc) (hplain c hc)
  have hkeys : ∀ k, Retried (Keyed.ofKey k (calls.map (callOf R tbl)))
      (Keyed.ofKey k (calls'.map (callOf R tbl))) := by
    intro k
    rw [ofKey_calls, ofKey_calls]
    exact (hretried k).map _
  obtain ⟨answers, rows, href, hrun⟩ := runCalls_run h hcalls htbl hdb
  obtain ⟨answers', rows', href', hrun'⟩ := runCalls_run h hcalls' htbl hdb
  refine ⟨answers, answers', rows, rows', hrun, hrun', ?_, fun k => ?_⟩
  · refine Keyed.perm_of_view href.distinct href'.distinct ?_
      (href.keyless.trans href'.keyless.symm)
    have hrun := Keyed.run_retried (List.forall_mem_map.mpr hidem) hkeys tbl.store
    exact href.store.trans (hrun.symm.trans href'.store.symm)
  · rw [href.answeredAt_eq, href'.answeredAt_eq]
    exact Keyed.answered_retried (fun c hc => hidem c (List.mem_filter.mp hc).1) (hretried k) _

/-- Two users are saved, and one of them is looked for and deleted. -/
def savedOnce : List (RowCall × Model) :=
  [(.saveToDBUseUpdate, reader "1" (some "Ann")), (.saveToDB, reader "2" none),
    (.isExistsFromDB, reader "2" none), (.deleteToDB, reader "2" none)]

/-- The same, with a save of the first that is made again between the others. -/
def savedAgain : List (RowCall × Model) :=
  [(.saveToDBUseUpdate, reader "1" (some "Ann")), (.saveToDB, reader "2" none),
    (.saveToDBUseUpdate, reader "1" (some "Ann")), (.isExistsFromDB, reader "2" none),
    (.deleteToDB, reader "2" none), (.deleteToDB, reader "2" none)]

theorem users_saved_again : ∃ answers answers' rows rows',
    runCalls demoRuntime savedOnce (tableDb "tb_users" noUsers) =
        (.ok answers, Function.update (tableDb "tb_users" noUsers) (fold "tb_users")
          (some { noUsers with rows := rows })) ∧
      runCalls demoRuntime savedAgain (tableDb "tb_users" noUsers) =
        (.ok answers', Function.update (tableDb "tb_users" noUsers) (fold "tb_users")
          (some { noUsers with rows := rows' })) ∧
      rows.Perm rows' ∧
      ∀ k, Retried (answeredAt demoRuntime noUsers k savedOnce answers)
        (answeredAt demoRuntime noUsers k savedAgain answers') := by
  refine retries_harmless userClass_keyable (by simp [savedOnce, reader_allowed]) ?_
    (created_tableOf userClass_valid) (tableDb_self _ _) fun k => ?_
  · have hplain : ∀ p ∈ fieldProperties (reader "1" (some "Ann")),
        ¬ Archived (reader "1" (some "Ann")) p := fun p hp =>
      reader_plain _ _ (mem_fieldProperties.mp hp).1
    simpa [savedOnce, Repeatable] using hplain
  · have hann : rowKey demoRuntime noUsers (reader "1" (some "Ann")) = [.text "1"] := by
      decide +kernel
    have hnone : rowKey demoRuntime noUsers (reader "2" none) = [.text "2"] := by decide +kernel
    by_cases hfirst : [Value.text "1"] = k
    · subst hfirst
      simpa [callsAt, savedOnce, savedAgain, hann, hnone] using Retried.cons _ 1 .nil
    · by_cases hsecond : [Value.text "2"] = k
      · subst hsecond
        simpa [callsAt, savedOnce, savedAgain, hann, hnone] using
          Retried.cons _ 0 (.cons _ 0 (.cons _ 1 .nil))
      · simpa [callsAt, savedOnce, savedAgain, hann, hnone, hfirst, hsecond] using Retried.nil

end NBDataBase
