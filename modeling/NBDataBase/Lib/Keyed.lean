import Mathlib.Data.List.Induction
import Mathlib.Data.List.Pairwise
import Mathlib.Data.List.Perm.Basic
import Mathlib.Logic.Function.Basic

/-!
# Keyed — records with keys

A map from keys to records, the commands on it, and lists of records that stand for such maps.  A
record without a key is in no map, and stays where it is.

* `Store`, `Command`, `Call`: a map, what is asked of one of its keys, and of which.
* `run`, `trace`: calls one after another; the map that they leave, and what they answer.
* `run_local`, `trace_local`: a key sees the calls of that key, and no others.
* `present_run`: whether a record is there is decided by the last call that is no `find`.
* `view`: the map of a list of records.  `Command.onRows`: a command on a list;
  `view_onRows`: it is the command on the map.
* `perm_of_view`: two lists that stand for one map are the same up to order.
* `Contents`: the map with the records that have no key; changes of many records on it.
-/

namespace Keyed

variable {κ ρ : Type} [DecidableEq κ]

/-! ### The map -/

/-- At most one record for a key. -/
abbrev Store (κ ρ : Type) := κ → Option ρ

/-- What is asked of a key. -/
inductive Command (ρ : Type) where
  /-- Put the record, unless there is one. -/
  | insert (r : ρ)
  /-- Put the record in the place of any. -/
  | replace (r : ρ)
  /-- Change the record, if there is one. -/
  | modify (f : ρ → ρ)
  /-- Change the record, or put this one. -/
  | merge (f : ρ → ρ) (r : ρ)
  | erase
  | find

namespace Command

/-- What is at the key afterwards. -/
def after : Command ρ → Option ρ → Option ρ
  | insert r, o => o.or (some r)
  | replace r, _ => some r
  | modify f, o => o.map f
  | merge f r, o => some (o.elim r f)
  | erase, _ => none
  | find, o => o

/-- A `find` tells whether a record is there. -/
def answer : Command ρ → Option ρ → Bool
  | find, o => o.isSome
  | _, _ => true

/-- Whether a record is there afterwards, if the command decides it. -/
def leaves : Command ρ → Option Bool
  | insert _ | replace _ | merge _ _ => some true
  | erase => some false
  | modify _ | find => none

theorem isSome_after (c : Command ρ) (o : Option ρ) :
    (c.after o).isSome = c.leaves.getD o.isSome := by
  cases c <;> cases o <;> rfl

end Command

/-- A command on a key. -/
structure Call (κ ρ : Type) where
  key : κ
  command : Command ρ

namespace Call

def step (c : Call κ ρ) (s : Store κ ρ) : Store κ ρ :=
  Function.update s c.key (c.command.after (s c.key))

def answer (c : Call κ ρ) (s : Store κ ρ) : Bool := c.command.answer (s c.key)

theorem step_self {c : Call κ ρ} {k : κ} (h : c.key = k) (s : Store κ ρ) :
    c.step s k = c.command.after (s k) := by
  subst h
  exact Function.update_self ..

theorem step_other {c : Call κ ρ} {k : κ} (h : c.key ≠ k) (s : Store κ ρ) : c.step s k = s k :=
  Function.update_of_ne (Ne.symm h) _ _

end Call

/-- The map that calls leave. -/
def run (cs : List (Call κ ρ)) (s : Store κ ρ) : Store κ ρ := cs.foldl (fun s c => c.step s) s

/-- The calls with their answers. -/
def trace : List (Call κ ρ) → Store κ ρ → List (Call κ ρ × Bool)
  | [], _ => []
  | c :: cs, s => (c, c.answer s) :: trace cs (c.step s)

/-- The calls of a key. -/
def ofKey (k : κ) (cs : List (Call κ ρ)) : List (Call κ ρ) := cs.filter fun c => c.key = k

variable {s s' : Store κ ρ} {k : κ} {cs cs' : List (Call κ ρ)}

/-- **A key sees its own calls**: the others do not change what is there. -/
theorem run_local (cs : List (Call κ ρ)) (s : Store κ ρ) (k : κ) :
    run cs s k = (ofKey k cs).foldl (fun o c => c.command.after o) (s k) := by
  induction cs generalizing s with
  | nil => rfl
  | cons c cs ih =>
      rw [run, List.foldl_cons, ofKey]
      refine (ih (c.step s)).trans ?_
      by_cases hc : c.key = k
      · rw [List.filter_cons_of_pos (by simpa using hc), List.foldl_cons, Call.step_self hc]
        rfl
      · rw [List.filter_cons_of_neg (by simpa using hc), Call.step_other hc]
        rfl

/-- **The answers at a key** are those of its own calls alone. -/
theorem trace_local (cs : List (Call κ ρ)) (h : s k = s' k) :
    (trace cs s).filter (fun e => e.1.key = k) = trace (ofKey k cs) s' := by
  induction cs generalizing s s' with
  | nil => rfl
  | cons c cs ih =>
      rw [trace, ofKey]
      by_cases hc : c.key = k
      · rw [List.filter_cons_of_pos (by simpa using hc),
          List.filter_cons_of_pos (by simpa using hc),
          trace, Call.answer, Call.answer, hc, h]
        refine congrArg _ (ih ?_)
        rw [Call.step_self hc, Call.step_self hc, h]
      · rw [List.filter_cons_of_neg (by simpa using hc),
          List.filter_cons_of_neg (by simpa using hc)]
        exact ih ((Call.step_other hc s).trans h)

/-- The trace is the calls beside the answers. -/
theorem zip_trace (cs : List (Call κ ρ)) (s : Store κ ρ) :
    cs.zip ((trace cs s).map (·.2)) = trace cs s := by
  induction cs generalizing s with
  | nil => rfl
  | cons c cs ih => rw [trace, List.map_cons, List.zip_cons_cons, ih]

/-- Calls in another order leave the same map, if each key sees the same. -/
theorem run_congr (h : ∀ k, ofKey k cs = ofKey k cs') (s : Store κ ρ) : run cs s = run cs' s := by
  funext k
  rw [run_local, run_local, h]

theorem trace_congr (h : ∀ k, ofKey k cs = ofKey k cs') (s : Store κ ρ) (k : κ) :
    (trace cs s).filter (fun e => e.1.key = k) = (trace cs' s).filter fun e => e.1.key = k := by
  rw [trace_local cs rfl, trace_local cs' rfl, h]

/-- Whether the calls leave a record at a key. -/
def present (k : κ) (cs : List (Call κ ρ)) (before : Bool) : Bool :=
  (((ofKey k cs).filterMap fun c => c.command.leaves).getLast?).getD before

/-- **A record is there** as the last call of its key that is no `find` decides. -/
theorem present_run (cs : List (Call κ ρ)) (s : Store κ ρ) (k : κ) :
    (run cs s k).isSome = present k cs (s k).isSome := by
  rw [run_local, present]
  generalize ofKey k cs = cs
  induction cs using List.reverseRecOn with
  | nil => rfl
  | append_singleton cs c ih =>
      rw [List.foldl_append, List.foldl_cons, List.foldl_nil, Command.isSome_after, ih,
        List.filterMap_append]
      cases hc : c.command.leaves with
      | none => simp [hc]
      | some b => simp [hc]

/-! ### Lists of records -/

variable (key : ρ → Option κ)

/-- The map of a list. -/
def view (rows : List ρ) : Store κ ρ := fun k => rows.find? fun r => key r = some k

/-- No two records have one key. -/
def Distinct (rows : List ρ) : Prop := rows.Pairwise fun r r' => ∀ k, key r = some k →
    key r' ≠ some k

/-- The records without a key. -/
def keyless (rows : List ρ) : List ρ := rows.filter fun r => (key r).isNone

namespace Command

/-- A command on a list. -/
def onRows (k : κ) : Command ρ → List ρ → List ρ
  | insert r, rows => if (view key rows k).isSome then rows else rows ++ [r]
  | replace r, rows => rows.filter (fun x => key x ≠ some k) ++ [r]
  | modify f, rows => rows.map fun x => if key x = some k then f x else x
  | merge f r, rows =>
      if (view key rows k).isSome then rows.map fun x => if key x = some k then f x else x
      else rows ++ [r]
  | erase, rows => rows.filter fun x => key x ≠ some k
  | find, rows => rows

/-- What the command puts at the key has it. -/
def Fits (k : κ) : Command ρ → Prop
  | insert r | replace r => key r = some k
  | modify f => ∀ x, key x = some k → key (f x) = some k
  | merge f r => key r = some k ∧ ∀ x, key x = some k → key (f x) = some k
  | erase | find => True

end Command

variable {key} {rows rows' : List ρ} {c : Command ρ} {r : ρ}

theorem view_isSome : (view key rows k).isSome = true ↔ ∃ r ∈ rows, key r = some k := by
  simp [view, List.find?_isSome]

theorem view_append (rows rows' : List ρ) (k : κ) :
    view key (rows ++ rows') k = (view key rows k).or (view key rows' k) :=
  List.find?_append

theorem view_singleton (hr : key r = some k) : view key [r] = Function.update (fun _ => none) k
    (some r) := by
  funext j
  by_cases hj : j = k
  · subst hj
    simp [view, hr]
  · rw [Function.update_of_ne hj]
    simpa [view, hr] using Ne.symm hj

theorem view_erased (rows : List ρ) (k : κ) :
    view key (rows.filter fun x => key x ≠ some k) = Function.update (view key rows) k none := by
  funext j
  by_cases hj : j = k
  · subst hj
    rw [Function.update_self]
    exact List.find?_eq_none.mpr fun x hx => by simpa using (List.mem_filter.mp hx).2
  · rw [Function.update_of_ne hj, view, view, List.find?_filter]
    congr 1
    funext x
    by_cases hx : key x = some j
    · simp [hx, hj]
    · simp [hx]

/-- A change that keeps a key keeps all. -/
theorem key_changed {f : ρ → ρ} (hf : ∀ x, key x = some k → key (f x) = some k) (x : ρ) :
    key (if key x = some k then f x else x) = key x := by
  split
  · rename_i hx
    rw [hf x hx, hx]
  · rfl

theorem view_changed {f : ρ → ρ} (hf : ∀ x, key x = some k → key (f x) = some k) (rows : List ρ) :
    view key (rows.map fun x => if key x = some k then f x else x) =
      Function.update (view key rows) k ((view key rows k).map f) := by
  have hkey := key_changed hf
  funext j
  rw [view, List.find?_map, Function.comp_def]
  simp only [hkey]
  by_cases hj : j = k
  · subst hj
    rw [Function.update_self]
    cases hfind : view key rows j with
    | none =>
        rw [view] at hfind
        rw [hfind]
        rfl
    | some x =>
        have hx : key x = some j := by simpa using List.find?_some hfind
        rw [view] at hfind
        rw [hfind, Option.map_some, Option.map_some, if_pos hx]
  · rw [Function.update_of_ne hj]
    cases hfind : view key rows j with
    | none =>
        rw [view] at hfind
        rw [hfind]
        rfl
    | some x =>
        have hx : key x = some j := by simpa using List.find?_some hfind
        rw [view] at hfind
        rw [hfind, Option.map_some, if_neg (by rw [hx]; simpa using hj)]

/-- **A command on a list** is the command on its map. -/
theorem view_onRows (hc : c.Fits key k) (rows : List ρ) :
    view key (c.onRows key k rows) = Function.update (view key rows) k
      (c.after (view key rows k)) := by
  have hput : ∀ r, key r = some k → view key rows k = none →
      view key (rows ++ [r]) = Function.update (view key rows) k (some r) := by
    intro r hr hnone
    funext j
    rw [view_append, view_singleton hr]
    by_cases hj : j = k
    · subst hj
      rw [Function.update_self, Function.update_self, hnone, Option.none_or]
    · rw [Function.update_of_ne hj, Function.update_of_ne hj, Option.or_none]
  cases c with
  | insert r =>
      cases hview : view key rows k with
      | none => simpa [Command.onRows, hview, Command.after] using hput r hc hview
      | some x =>
          simp only [Command.onRows, hview, Option.isSome_some, if_true, Command.after,
            Option.some_or]
          rw [← hview, Function.update_eq_self]
  | replace r =>
      funext j
      rw [Command.onRows, view_append, view_erased, view_singleton hc]
      by_cases hj : j = k
      · subst hj
        simp [Command.after]
      · simp [Function.update_of_ne hj]
  | modify f => exact view_changed hc rows
  | merge f r =>
      cases hview : view key rows k with
      | none => simpa [Command.onRows, hview, Command.after] using hput r hc.1 hview
      | some x =>
          simp only [Command.onRows, hview, Option.isSome_some, if_true, Command.after,
            Option.elim_some]
          rw [view_changed hc.2, hview, Option.map_some]
  | erase => exact view_erased rows k
  | find => exact (Function.update_eq_self k (view key rows)).symm

/-- A command keeps keys distinct. -/
theorem distinct_onRows (hc : c.Fits key k) (h : Distinct key rows) :
    Distinct key (c.onRows key k rows) := by
  have hput : ∀ r, key r = some k → ∀ xs : List ρ, Distinct key xs →
      (∀ x ∈ xs, key x ≠ some k) → Distinct key (xs ++ [r]) := by
    intro r hr xs hxs hfree
    refine List.pairwise_append.mpr ⟨hxs, List.pairwise_singleton _ _, fun x hx y hy j hj => ?_⟩
    rw [List.mem_singleton.mp hy, hr]
    rintro ⟨⟩
    exact hfree x hx hj
  have hnone : ¬ (view key rows k).isSome = true → ∀ x ∈ rows, key x ≠ some k :=
    fun hno x hx hkey => hno (view_isSome.mpr ⟨x, hx, hkey⟩)
  have hfiltered : Distinct key (rows.filter fun x => key x ≠ some k) := List.Pairwise.filter _ h
  have hgone : ∀ x ∈ rows.filter (fun x => key x ≠ some k), key x ≠ some k := fun x hx => by
    simpa using (List.mem_filter.mp hx).2
  have hchanged : ∀ f : ρ → ρ, (∀ x, key x = some k → key (f x) = some k) →
      Distinct key (rows.map fun x => if key x = some k then f x else x) := by
    intro f hf
    refine List.pairwise_map.mpr (h.imp fun {x y} hxy j hj => ?_)
    rw [key_changed hf] at hj ⊢
    exact hxy j hj
  cases c with
  | insert r =>
      rw [Command.onRows]
      split
      · exact h
      · rename_i hno
        exact hput r hc rows h (hnone hno)
  | replace r => exact hput r hc _ hfiltered hgone
  | modify f => exact hchanged f hc
  | merge f r =>
      rw [Command.onRows]
      split
      · exact hchanged f hc.2
      · rename_i hno
        exact hput r hc.1 rows h (hnone hno)
  | erase => exact hfiltered
  | find => exact h

/-- A command leaves the records without a key. -/
theorem keyless_onRows (hc : c.Fits key k) (rows : List ρ) :
    keyless key (c.onRows key k rows) = keyless key rows := by
  have hput : ∀ r, key r = some k → ∀ xs : List ρ, keyless key (xs ++ [r]) = keyless key xs := by
    intro r hr xs
    simp [keyless, hr]
  have hfiltered : keyless key (rows.filter fun x => key x ≠ some k) = keyless key rows := by
    rw [keyless, keyless, List.filter_filter]
    refine List.filter_congr fun x _ => ?_
    cases key x <;> simp
  have hchanged : ∀ f : ρ → ρ, (∀ x, key x = some k → key (f x) = some k) →
      keyless key (rows.map fun x => if key x = some k then f x else x) = keyless key rows := by
    intro f hf
    rw [keyless, keyless, List.filter_map, Function.comp_def]
    simp only [key_changed hf]
    refine (List.map_congr_left fun x hx => ?_).trans (List.map_id _)
    have hx := (List.mem_filter.mp hx).2
    rw [if_neg fun hkey => by simp [hkey] at hx, id]
  cases c with
  | insert r =>
      rw [Command.onRows]
      split
      · rfl
      · exact hput r hc rows
  | replace r => exact (hput r hc _).trans hfiltered
  | modify f => exact hchanged f hc
  | merge f r =>
      rw [Command.onRows]
      split
      · exact hchanged f hc.2
      · exact hput r hc.1 rows
  | erase => exact hfiltered
  | find => rfl

/-- The record of a key is the one that the map has. -/
theorem mem_of_view (h : Distinct key rows) (hr : key r = some k) :
    r ∈ rows ↔ view key rows k = some r := by
  constructor
  · intro hmem
    obtain ⟨x, hx⟩ := Option.isSome_iff_exists.mp (view_isSome.mpr ⟨r, hmem, hr⟩)
    have hxkey : key x = some k := by simpa using List.find?_some hx
    rw [hx]
    by_contra hne
    have : Std.Symm fun x y => ∀ k, key x = some k → key y ≠ some k :=
      ⟨fun x y hxy k hy hx => hxy k hx hy⟩
    exact List.Pairwise.forall h (List.mem_of_find?_eq_some hx) hmem (fun e => hne (by rw [e])) k
      hxkey hr
  · exact fun hview => List.mem_of_find?_eq_some hview

/-- **Lists that stand for one map**, with the same records without a key, are the same up to
order. -/
theorem perm_of_view (h : Distinct key rows) (h' : Distinct key rows')
    (hview : view key rows = view key rows') (hkeyless : keyless key rows = keyless key rows') :
    rows.Perm rows' := by
  have hnodup : ∀ {xs : List ρ}, Distinct key xs → (xs.filter fun r => !(key r).isNone).Nodup := by
    intro xs hxs
    refine List.Pairwise.imp_of_mem (fun {x y} hx _ hxy e => ?_) (List.Pairwise.filter _ hxs)
    obtain ⟨k, hk⟩ : ∃ k, key x = some k :=
      Option.isSome_iff_exists.mp (by simpa using (List.mem_filter.mp hx).2)
    exact hxy k hk (e ▸ hk)
  have hmem : (rows.filter fun r => !(key r).isNone).Perm
      (rows'.filter fun r => !(key r).isNone) := by
    refine (List.perm_ext_iff_of_nodup (hnodup h) (hnodup h')).mpr fun r => ?_
    rw [List.mem_filter, List.mem_filter]
    refine and_congr_left fun hr => ?_
    obtain ⟨k, hk⟩ : ∃ k, key r = some k := Option.isSome_iff_exists.mp (by simpa using hr)
    rw [mem_of_view h hk, mem_of_view h' hk, hview]
  refine (List.filter_append_perm (fun r => (key r).isNone) rows).symm.trans
    (.trans ?_ (List.filter_append_perm (fun r => (key r).isNone) rows'))
  exact (List.Perm.of_eq hkeyless).append hmem

/-! ### Changes of many records -/

/-- What a list holds: the map of its records with a key, and those without one. -/
@[ext] structure Contents (κ ρ : Type) where
  store : Store κ ρ
  rest : List ρ

variable (key) in
def contents (rows : List ρ) : Contents κ ρ := ⟨view key rows, keyless key rows⟩

namespace Contents

/-- A command on a key. -/
def call (c : Call κ ρ) (x : Contents κ ρ) : Contents κ ρ := ⟨c.step x.store, x.rest⟩

/-- Keep the records for which `p` holds. -/
def keep (p : ρ → Bool) (x : Contents κ ρ) : Contents κ ρ :=
  ⟨fun k => (x.store k).filter p, x.rest.filter p⟩

/-- Change every record. -/
def change (f : ρ → ρ) (x : Contents κ ρ) : Contents κ ρ :=
  ⟨fun k => (x.store k).map f, x.rest.map f⟩

end Contents

theorem contents_onRows (hc : c.Fits key k) (rows : List ρ) :
    contents key (c.onRows key k rows) = (contents key rows).call ⟨k, c⟩ :=
  Contents.ext (view_onRows hc rows) (keyless_onRows hc rows)

omit [DecidableEq κ] in
theorem Distinct.filter (h : Distinct key rows) (p : ρ → Bool) :
    Distinct key (rows.filter p) := List.Pairwise.filter p h

omit [DecidableEq κ] in
theorem Distinct.map (h : Distinct key rows) {f : ρ → ρ} (hf : ∀ r, key (f r) = key r) :
    Distinct key (rows.map f) := by
  refine List.pairwise_map.mpr (h.imp fun {x y} hxy j hj => ?_)
  rw [hf] at hj ⊢
  exact hxy j hj

/-- Records that are kept. -/
theorem contents_filter (h : Distinct key rows) (p : ρ → Bool) :
    contents key (rows.filter p) = (contents key rows).keep p := by
  refine Contents.ext (funext fun k => Option.ext fun r => ?_) ?_
  · show view key (rows.filter p) k = some r ↔ (view key rows k).filter p = some r
    rw [Option.filter_eq_some_iff]
    constructor
    · intro hr
      have hkey : key r = some k := by simpa using List.find?_some hr
      have hmem := (mem_of_view (h.filter p) hkey).mpr hr
      exact ⟨(mem_of_view h hkey).mp (List.mem_filter.mp hmem).1, (List.mem_filter.mp hmem).2⟩
    · rintro ⟨hr, hp⟩
      have hkey : key r = some k := by simpa using List.find?_some hr
      exact (mem_of_view (h.filter p) hkey).mp
        (List.mem_filter.mpr ⟨(mem_of_view h hkey).mpr hr, hp⟩)
  · show keyless key (rows.filter p) = (keyless key rows).filter p
    rw [keyless, keyless, List.filter_filter, List.filter_filter]
    exact List.filter_congr fun r _ => Bool.and_comm _ _

/-- Records that are changed, but for their keys. -/
theorem contents_map {f : ρ → ρ} (hf : ∀ r, key (f r) = key r) (rows : List ρ) :
    contents key (rows.map f) = (contents key rows).change f := by
  refine Contents.ext (funext fun k => ?_) ?_
  · show view key (rows.map f) k = (view key rows k).map f
    rw [view, List.find?_map, Function.comp_def]
    simp only [hf]
    rfl
  · show keyless key (rows.map f) = (keyless key rows).map f
    rw [keyless, List.filter_map, Function.comp_def]
    simp only [hf]
    rfl

end Keyed
