import NBDataBase.Orm.Builders

/-!
# Orm — the markers of a property name

Whether `FMColumnNameFromPropertyName` strips the markers of a property name and nothing else.

* `propertyName`: a name made of markers and a bare name.
* `NamesColumn`: its column is the bare name behind an underscore, and it is a primary key when the
  marker of one is there.
* `passes_state`: one deletion removes its marker wherever it stands.  `passes_damaged`: unless the
  bare name completes one with the underscore before it, which leaves it damaged for good.
* `namesColumn_iff`: a name names its column exactly when no marker begins with that underscore.
-/

namespace NBDataBase
open Occurrences

/-! ### Names with markers -/

inductive Marker where
  | pk
  | notnull
  | dfltValue
  deriving DecidableEq, Repr

namespace Marker

/-- `kNBPrimaryKey_Identify`, `kNBNotnull_Identify`, `kNBDflt_value_Identify`. -/
def identify : Marker → String
  | pk => primaryKeyIdentify
  | notnull => notnullIdentify
  | dfltValue => dfltValueIdentify

def text (m : Marker) : List Char := m.identify.toList

/-- Which deletion is that of the marker. -/
def turn : Marker → ℕ
  | pk => 0
  | notnull => 1
  | dfltValue => 2

end Marker

/-- The markers in a row. -/
def markersText (ms : List Marker) : List Char := ms.flatMap Marker.text

/-- A property name: markers and a bare name. -/
def propertyName (ms : List Marker) (bare : String) : String :=
  String.ofList (markersText ms) ++ bare

/-- The name is not empty, and no marker stands in it, in any case. -/
structure Bare (bare : String) : Prop where
  ne : bare ≠ ""
  free : ∀ m : Marker, ¬ Occurs Char.toLower m.text bare.toList

/-- The column is the bare name behind an underscore, which is where its instance variable is found,
and the property is a primary key when it has the marker. -/
structure NamesColumn (ms : List Marker) (bare : String) : Prop where
  column : columnNameFromPropertyName (propertyName ms bare) = "_" ++ bare
  primaryKey : isPrimaryKey (propertyName ms bare) = true ↔ .pk ∈ ms
  found : ∀ chain iv, getInstanceVariable chain ("_" ++ bare) = some iv →
    getInstanceVariable chain (columnNameFromPropertyName (propertyName ms bare)) = some iv

/-- With an underscore before it the bare name does not start with a marker before its last
character, unless the last marker left for that deletion is the same; and not with `_pk_` in this
case, unless there is no marker or that one is among them. -/
structure Seamless (ms : List Marker) (bare : String) : Prop where
  column : ∀ m : Marker, Starts Char.toLower m.text ('_' :: bare.toList.dropLast) →
    (ms.filter fun l => m.turn ≤ l.turn).getLast? = some m
  primaryKey : Starts id Marker.pk.text ('_' :: bare.toList) → ms = [] ∨ .pk ∈ ms

example : columnNameFromPropertyName (propertyName [.pk, .notnull] "userId") = "_userId" := by
  decide

/-! ### The deletions -/

/-- One deletion. -/
def strip (m : Marker) (s : List Char) : List Char := replaced Char.toLower m.text [] 0 s

/-- Deletions in turn. -/
def passes (ms : List Marker) (s : List Char) : List Char := ms.foldl (fun s m => strip m s) s

theorem removeMarker_concat (m : Marker) (s : List Char) (z : Char) :
    removeMarker m.identify (s ++ [z]) = strip m s ++ [z] := by
  rw [removeMarker, List.dropLast_concat, List.getLast?_concat, replaceOccurrences_eq]
  rfl

/-- The last character of a name stays. -/
theorem columnNameFromPropertyName_concat {p : String} {s : List Char} {z : Char}
    (h : '_' :: p.toList = s ++ [z]) : columnNameFromPropertyName p =
      String.ofList (passes [.pk, .notnull, .dfltValue] s ++ [z]) := by
  have hpk := removeMarker_concat .pk s z
  have hnotnull := removeMarker_concat .notnull (strip .pk s) z
  have hdflt := removeMarker_concat .dfltValue (strip .notnull (strip .pk s)) z
  simp only [Marker.identify] at hpk hnotnull hdflt
  rw [columnNameFromPropertyName, h, hpk, hnotnull, hdflt]
  rfl

/-! ### The texts of the markers -/

theorem Marker.text_ne (m : Marker) : m.text ≠ [] := by
  cases m <;> decide

theorem Marker.text_concat (m : Marker) : m.text = m.text.dropLast ++ ['_'] := by
  cases m <;> decide

theorem Marker.text_cons (m : Marker) : ∃ cs, m.text = '_' :: cs := by
  cases m <;> exact ⟨_, rfl⟩

/-- No marker starts in another one, but perhaps at its last underscore. -/
theorem Marker.text_run {m l : Marker} (h : l ≠ m) :
    (l.text.dropLast ++ ['_']).IsChain (Apart Char.toLower m.text) ∧
      (l.text.dropLast ++ ['_']).IsChain (Apart id m.text) := by
  cases m <;> cases l <;> first | exact absurd rfl h | decide

/-- Two underscores start no marker. -/
theorem Marker.text_underscores (m : Marker) :
    Apart Char.toLower m.text '_' '_' ∧ Apart id m.text '_' '_' := by
  cases m <;> decide

/-! ### One deletion -/

section Strip

variable {m l : Marker} {ms : List Marker} {c : List Char}

theorem strip_text (m : Marker) (s : List Char) : strip m (m.text ++ s) = strip m s := by
  rw [strip, replaced_starts m.text_ne rfl]
  rfl

theorem strip_other (h : l ≠ m) (s : List Char) :
    strip m (l.text ++ s) = l.text.dropLast ++ strip m ('_' :: s) := by
  rw [l.text_concat, List.append_assoc, List.singleton_append, List.dropLast_concat]
  exact replaced_run (Marker.text_run h).1

theorem strip_seam (h : Starts Char.toLower m.text ('_' :: c)) :
    strip m ('_' :: c) = strip m (c.drop (m.text.length - 1)) := by
  rw [strip, replaced, if_pos ⟨m.text_ne, h⟩, replaced_skip]
  rfl

theorem markersText_cons (l : Marker) (ms : List Marker) :
    markersText (l :: ms) = l.text ++ markersText ms := rfl

/-- Behind an underscore markers start none. -/
theorem not_starts_markers (f : Char → Char) (h : Apart f m.text '_' '_') (hne : ms ≠ [])
    (c : List Char) : ¬ Starts f m.text ('_' :: (markersText ms ++ c)) := by
  obtain ⟨l, ms, rfl⟩ := List.exists_cons_of_ne_nil hne
  obtain ⟨cs, hcs⟩ := l.text_cons
  rw [markersText_cons, hcs]
  exact h.not_starts _

/-- **A deletion removes its marker** from a row of markers, unless what follows them completes one
with the last underscore. -/
theorem strip_markers (h : Starts Char.toLower m.text ('_' :: c) → ms = [] ∨ ms.getLast? = some m) :
    strip m (markersText ms ++ c) = markersText (ms.filter (· ≠ m)) ++ strip m c := by
  induction ms with
  | nil => rfl
  | cons l ms ih =>
      have hrest : Starts Char.toLower m.text ('_' :: c) → ms = [] ∨ ms.getLast? = some m := by
        intro hstarts
        have hlast := (h hstarts).resolve_left (List.cons_ne_nil l ms)
        cases ms with
        | nil => exact .inl rfl
        | cons k ms => exact .inr (by rwa [List.getLast?_cons_cons] at hlast)
      have ih := ih hrest
      rw [markersText_cons, List.append_assoc]
      by_cases hl : l = m
      · subst hl
        rw [strip_text, ih, List.filter_cons_of_neg (by simp)]
      · have hnot : ¬ Starts Char.toLower m.text ('_' :: (markersText ms ++ c)) := by
          by_cases hnil : ms = []
          · subst hnil
            intro hstarts
            rcases h hstarts with hnone | hlast
            · cases hnone
            · exact hl (Option.some.inj hlast)
          · exact not_starts_markers _ m.text_underscores.1 hnil c
        have hkeep : strip m ('_' :: (markersText ms ++ c)) =
          '_' :: strip m (markersText ms ++ c) :=
          replaced_cons hnot
        have hconcat := l.text_concat
        rw [strip_other hl, hkeep, ih, List.filter_cons_of_pos (by simpa using hl),
          markersText_cons,
          List.append_assoc]
        conv_rhs => rw [hconcat]
        simp

/-- The same behind the underscore of the column. -/
theorem strip_lead (h : Starts Char.toLower m.text ('_' :: c) → ms.getLast? = some m) :
    strip m ('_' :: (markersText ms ++ c)) =
      '_' :: (markersText (ms.filter (· ≠ m)) ++ strip m c) := by
  have hnot : ¬ Starts Char.toLower m.text ('_' :: (markersText ms ++ c)) := by
    by_cases hnil : ms = []
    · subst hnil
      intro hstarts
      cases h hstarts
    · exact not_starts_markers _ m.text_underscores.1 hnil c
  rw [← strip_markers fun hstarts => .inr (h hstarts)]
  exact replaced_cons hnot

/-- The last marker of a row loses its underscore to what follows. -/
theorem strip_damage (h : Starts Char.toLower m.text ('_' :: c)) (hl : l ≠ m) :
    strip m ('_' :: (markersText (ms ++ [l]) ++ c)) =
      '_' :: (markersText (ms.filter (· ≠ m)) ++
        (l.text.dropLast ++ strip m (c.drop (m.text.length - 1)))) := by
  obtain ⟨cs, hcs⟩ := l.text_cons
  have hsplit : markersText (ms ++ [l]) ++ c = markersText ms ++ (l.text ++ c) := by
    simp [markersText]
  have hlead : ¬ Starts Char.toLower m.text ('_' :: (l.text ++ c)) := by
    rw [hcs]
    exact m.text_underscores.1.not_starts _
  rw [hsplit, strip_lead fun hstarts => absurd hstarts hlead, strip_other hl, strip_seam h]

/-- A damaged marker stays, unless what is behind it heals it. -/
theorem strip_damaged (hc : ¬ Occurs Char.toLower m.text c) (h : l = m → c.head? ≠ some '_') :
    strip m (l.text.dropLast ++ c) = l.text.dropLast ++ c := by
  refine replaced_of_free ?_
  -- its last letter is no underscore, so that an occurrence starts before it or behind it
  have hletter : ∃ w e, l.text.dropLast = '_' :: (w ++ [e]) ∧ e.toLower ≠ '_' ∧
      ((w ++ [e]).IsChain (Apart Char.toLower m.text)) ∧
      (l ≠ m → ('_' :: (w ++ [e])).IsChain (Apart Char.toLower m.text)) := by
    cases l with
    | pk => exact ⟨['p'], 'k', rfl, by decide, by cases m <;> decide, by cases m <;> decide⟩
    | notnull =>
        exact ⟨['n', 'o', 't', 'n', 'u', 'l'], 'l', rfl, by decide, by cases m <;> decide,
          by cases m <;> decide⟩
    | dfltValue =>
        exact ⟨['d', 'f', 'l', 't', '_', 'v', 'a', 'l', 'u'], 'e', rfl, by decide,
          by cases m <;> decide, by cases m <;> decide⟩
  obtain ⟨w, e, htext, he, hrun, hother⟩ := hletter
  obtain ⟨cs, hcs⟩ := m.text_cons
  have hend : ¬ Occurs Char.toLower m.text (e :: c) := by
    rw [occurs_cons]
    refine not_or.mpr ⟨?_, hc⟩
    rintro ⟨rest, hrest⟩
    rw [hcs] at hrest
    exact he (List.cons.inj hrest).1.symm
  have hsplit : l.text.dropLast ++ c = '_' :: (w ++ e :: c) := by
    rw [htext, List.cons_append, List.append_assoc, List.singleton_append]
  rw [hsplit, occurs_cons, occurs_run hrun]
  refine not_or.mpr ⟨fun hstarts => ?_, hend⟩
  by_cases hl : l = m
  · subst hl
    -- it would start with the whole marker
    have hlast : ∃ d, c.head? = some d ∧ d.toLower = '_' := by
      rw [← hsplit, Starts, l.text_concat, List.map_append, List.dropLast_concat, List.map_append,
        List.prefix_append_right_inj] at hstarts
      cases c with
      | nil => exact absurd hstarts (by decide)
      | cons d c =>
          obtain ⟨rest, hrest⟩ := hstarts
          exact ⟨d, rfl, (List.cons.inj hrest).1.symm⟩
    obtain ⟨d, hd, hlower⟩ := hlast
    exact h rfl (toLower_eq (d := '_') (by decide) hlower ▸ hd)
  · have hmore := hother hl
    cases w with
    | nil => exact (List.isChain_cons_cons.mp hmore).1.not_starts _ hstarts
    | cons a w => exact (List.isChain_cons_cons.mp hmore).1.not_starts _ hstarts

end Strip

/-! ### All deletions -/

section Passes

variable {ps ms : List Marker} {c : List Char} {N : ℕ}

theorem strip_free {m : Marker} (h : ¬ Occurs Char.toLower m.text c) : strip m c = c :=
  replaced_of_free h

theorem free_drop {m : Marker} (h : ¬ Occurs Char.toLower m.text c) (n : ℕ) :
    ¬ Occurs Char.toLower m.text (c.drop n) :=
  fun hc => h (hc.of_suffix (List.drop_suffix n c))

theorem passes_length (ps : List Marker) (s : List Char) : (passes ps s).length ≤ s.length := by
  induction ps generalizing s with
  | nil => exact Nat.le_refl _
  | cons m ps ih =>
      have hstrip : (strip m s).length ≤ s.length :=
        length_replaced_le m.text_ne (Nat.zero_le _) s
      exact (ih (strip m s)).trans hstrip

/-- What a deletion does to a row that it damages. -/
theorem strip_breaks {m : Marker} (hfree : ¬ Occurs Char.toLower m.text c)
    (h : Starts Char.toLower m.text ('_' :: c)) (hlast : ms.getLast? ≠ some m) :
    strip m ('_' :: (markersText ms ++ c)) = c.drop (m.text.length - 1) ∨
      ∃ (ms' : List Marker) (l : Marker), (∀ k ∈ ms', k ∈ ms) ∧
        strip m ('_' :: (markersText ms ++ c)) =
        '_' :: (markersText (ms'.filter (· ≠ m)) ++
          (l.text.dropLast ++ c.drop (m.text.length - 1))) := by
  cases ms using List.reverseRecOn with
  | nil =>
      refine .inl ?_
      rw [markersText, List.flatMap_nil, List.nil_append, strip_seam h,
        strip_free (free_drop hfree _)]
  | append_singleton ms l =>
      have hl : l ≠ m := fun heq => hlast (by rw [heq, List.getLast?_concat])
      refine .inr ⟨ms, l, fun k hk => List.mem_append_left _ hk, ?_⟩
      rw [strip_damage h hl, strip_free (free_drop hfree _)]

/-- Too short for the bare name and its underscore, or with two underscores at the start. -/
def Damaged (N : ℕ) (s : List Char) : Prop := s.length ≤ N + 1 ∨ ['_', '_'] <+: s

/-- What the deletions leave of markers and a short rest is damaged, and so is what they leave of a
damaged marker. -/
theorem passes_damaged (ps : List Marker) :
    (∀ ms c, (∀ l ∈ ms, l ∈ ps) → (∀ m : Marker, ¬ Occurs Char.toLower m.text c) →
      c.length ≤ N → Damaged N (passes ps ('_' :: (markersText ms ++ c)))) ∧
    ∀ ms (l : Marker) c, (∀ l ∈ ms, l ∈ ps) → (∀ m : Marker, ¬ Occurs Char.toLower m.text c) →
      c.length ≤ N → Damaged N (passes ps ('_' :: (markersText ms ++ (l.text.dropLast ++ c)))) := by
  induction ps with
  | nil =>
      have hnone : ∀ ms : List Marker, (∀ l ∈ ms, l ∈ []) → ms = [] :=
        fun ms h => List.eq_nil_iff_forall_not_mem.mpr fun l hl => List.not_mem_nil (h l hl)
      refine ⟨fun ms c hms _ hlen => ?_, fun ms l c hms _ _ => ?_⟩
      · rw [hnone ms hms]
        exact .inl (Nat.succ_le_succ hlen)
      · rw [hnone ms hms]
        refine .inr ?_
        cases l <;> exact ⟨_, rfl⟩
  | cons m ps ih =>
      obtain ⟨ihrest, ihbroken⟩ := ih
      have hleft : ∀ ms : List Marker, (∀ l ∈ ms, l ∈ m :: ps) →
          ∀ l ∈ ms.filter (· ≠ m), l ∈ ps := by
        intro ms hms l hl
        obtain ⟨hl, hne⟩ := List.mem_filter.mp hl
        exact (List.mem_cons.mp (hms l hl)).resolve_left (by simpa using hne)
      refine ⟨fun ms c hms hfree hlen => ?_, fun ms l c hms hfree hlen => ?_⟩
      · by_cases hseam : Starts Char.toLower m.text ('_' :: c) → ms.getLast? = some m
        · have hstrip := strip_lead hseam
          rw [strip_free (hfree m)] at hstrip
          show Damaged N (passes ps (strip m _))
          rw [hstrip]
          exact ihrest _ c (hleft ms hms) hfree hlen
        · obtain ⟨hstarts, hlast⟩ := Classical.not_imp.mp hseam
          show Damaged N (passes ps (strip m _))
          have hshort : (c.drop (m.text.length - 1)).length ≤ N := by
            rw [List.length_drop]
            omega
          rcases strip_breaks (hfree m) hstarts hlast with hbare | ⟨ms', l, hsub, hbroken⟩
          · rw [hbare]
            exact .inl ((passes_length ps _).trans (hshort.trans (Nat.le_succ N)))
          · rw [hbroken]
            exact ihbroken _ l _ (hleft ms' fun k hk => hms k (hsub k hk))
              (fun k => free_drop (hfree k) _) hshort
      · have hlead : ¬ Starts Char.toLower m.text ('_' :: (l.text.dropLast ++ c)) := by
          cases l <;> exact m.text_underscores.1.not_starts _
        have hstrip : strip m ('_' :: (markersText ms ++ (l.text.dropLast ++ c))) = _ :=
          strip_lead fun hstarts => absurd hstarts hlead
        show Damaged N (passes ps (strip m _))
        rw [hstrip]
        by_cases hheal : l = m ∧ c.head? = some '_'
        · obtain ⟨rfl, hhead⟩ := hheal
          obtain ⟨d, rfl⟩ := List.head?_eq_some_iff.mp hhead
          have hd : ∀ k : Marker, ¬ Occurs Char.toLower k.text d := fun k => free_drop (hfree k) 1
          have hheal : strip l (l.text.dropLast ++ '_' :: d) = d := by
            rw [List.append_cons, ← l.text_concat, strip_text, strip_free (hd l)]
          rw [hheal]
          exact ihrest _ d (hleft ms hms) hd ((Nat.le_succ _).trans hlen)
        · rw [strip_damaged (hfree m) fun hl hc => hheal ⟨hl, hc⟩]
          exact ihbroken _ l c (hleft ms hms) hfree hlen

/-- No deletion damages the row. -/
def Intact : List Marker → List Marker → List Char → Prop
  | [], _, _ => True
  | m :: ps, ms, c =>
      (Starts Char.toLower m.text ('_' :: c) → ms.getLast? = some m) ∧
        Intact ps (ms.filter (· ≠ m)) c

/-- **The deletions leave the bare name behind its underscore** exactly when none damages it. -/
theorem passes_eq_iff (hfree : ∀ m : Marker, ¬ Occurs Char.toLower m.text c)
    (hms : ∀ l ∈ ms, l ∈ ps) :
    passes ps ('_' :: (markersText ms ++ c)) = '_' :: c ↔ Intact ps ms c := by
  induction ps generalizing ms with
  | nil =>
      have hnone : ms = [] :=
        List.eq_nil_iff_forall_not_mem.mpr fun l hl => List.not_mem_nil (hms l hl)
      rw [hnone]
      exact iff_of_true rfl trivial
  | cons m ps ih =>
      have hleft : ∀ l ∈ ms.filter (· ≠ m), l ∈ ps := by
        intro l hl
        obtain ⟨hl, hne⟩ := List.mem_filter.mp hl
        exact (List.mem_cons.mp (hms l hl)).resolve_left (by simpa using hne)
      by_cases hseam : Starts Char.toLower m.text ('_' :: c) → ms.getLast? = some m
      · have hstrip := strip_lead hseam
        rw [strip_free (hfree m)] at hstrip
        show passes ps (strip m _) = _ ↔ _
        rw [hstrip, ih hleft]
        exact (and_iff_right hseam).symm
      · refine iff_of_false (fun heq => ?_) fun hkept => hseam hkept.1
        obtain ⟨hstarts, hlast⟩ := Classical.not_imp.mp hseam
        have hlong : 1 < m.text.length := by cases m <;> decide
        have hne : c ≠ [] := by
          rintro rfl
          cases m <;> exact absurd hstarts (by decide)
        have hpos := List.length_pos_iff.mpr hne
        have hshort : (c.drop (m.text.length - 1)).length ≤ c.length - 1 := by
          rw [List.length_drop]
          omega
        have hdamaged : Damaged (c.length - 1)
          (passes ps (strip m ('_' :: (markersText ms ++ c)))) := by
          rcases strip_breaks (hfree m) hstarts hlast with hbare | ⟨ms', l, hsub, hbroken⟩
          · rw [hbare]
            exact .inl ((passes_length ps _).trans (hshort.trans (Nat.le_succ _)))
          · rw [hbroken]
            refine (passes_damaged ps).2 _ l _ (fun k hk => ?_)
              (fun k => free_drop (hfree k) _) hshort
            obtain ⟨hk, hkm⟩ := List.mem_filter.mp hk
            exact hleft k (List.mem_filter.mpr ⟨hsub k hk, hkm⟩)
        have heq : passes ps (strip m ('_' :: (markersText ms ++ c))) = '_' :: c := heq
        rw [heq] at hdamaged
        rcases hdamaged with hlen | ⟨rest, hrest⟩
        · rw [List.length_cons] at hlen
          omega
        · rw [← (List.cons.inj hrest).2] at hstarts
          exact m.text_underscores.1.not_starts rest hstarts

end Passes

/-! ### Column and primary key -/

section Named

variable {ms : List Marker} {bare : String}

theorem toList_propertyName (ms : List Marker) (bare : String) :
    (propertyName ms bare).toList = markersText ms ++ bare.toList := by
  rw [propertyName, String.toList_append, String.toList_ofList]

/-- Where the marker of a primary key is found. -/
theorem occurs_markers {c : List Char} (hfree : ¬ Occurs id Marker.pk.text c) :
    Occurs id Marker.pk.text (markersText ms ++ c) ↔
      .pk ∈ ms ∨ (ms ≠ [] ∧ Starts id Marker.pk.text ('_' :: c)) := by
  induction ms with
  | nil => exact iff_of_false hfree (by simp)
  | cons l ms ih =>
      rw [markersText_cons, List.append_assoc]
      by_cases hl : l = .pk
      · subst hl
        refine iff_of_true (Occurs.append_right ?_ _) (.inl List.mem_cons_self)
        exact List.infix_rfl
      · have hrun := occurs_run (s := markersText ms ++ c) (Marker.text_run hl).2
        rw [List.append_cons, ← l.text_concat, occurs_cons, ih] at hrun
        rw [hrun]
        by_cases hnil : ms = []
        · subst hnil
          simp [markersText, Ne.symm hl]
        · have hnot := not_starts_markers id (m := .pk) (by decide) hnil c
          simp [hnot, hnil, Ne.symm hl]

theorem isPrimaryKey_propertyName (hb : Bare bare) :
    isPrimaryKey (propertyName ms bare) = true ↔
      .pk ∈ ms ∨ (ms ≠ [] ∧ Starts id Marker.pk.text ('_' :: bare.toList)) := by
  have hfree : ¬ Occurs id Marker.pk.text bare.toList := by
    intro h
    refine hb.free .pk ?_
    have hmap := List.IsInfix.map Char.toLower h
    rwa [List.map_id, List.map_id] at hmap
  rw [← occurs_markers hfree, ← toList_propertyName, isPrimaryKey, hasSubstring, decide_eq_true_iff,
    Occurs, List.map_id, List.map_id]
  rfl

/-- The deletions damage nothing exactly when no marker begins with the underscore. -/
theorem intact_iff {c : List Char} : Intact [.pk, .notnull, .dfltValue] ms c ↔
    ∀ m : Marker, Starts Char.toLower m.text ('_' :: c) →
      (ms.filter fun l => m.turn ≤ l.turn).getLast? = some m := by
  have hall : (ms.filter fun l => Marker.turn .pk ≤ l.turn) = ms :=
    List.filter_eq_self.mpr fun l _ => by cases l <;> decide
  have hnotnull : (ms.filter fun l => Marker.turn .notnull ≤ l.turn) = ms.filter (· ≠ .pk) :=
    List.filter_congr fun l _ => by cases l <;> decide
  have hdflt : (ms.filter fun l => Marker.turn .dfltValue ≤ l.turn) =
      (ms.filter (· ≠ .pk)).filter (· ≠ .notnull) := by
    rw [List.filter_filter]
    exact List.filter_congr fun l _ => by cases l <;> decide
  constructor
  · rintro ⟨hpk, hnn, hdv, -⟩ m h
    cases m with
    | pk => rw [hall]; exact hpk h
    | notnull => rw [hnotnull]; exact hnn h
    | dfltValue => rw [hdflt]; exact hdv h
  · intro h
    refine ⟨fun hs => ?_, fun hs => ?_, fun hs => ?_, trivial⟩
    · rw [← hall]
      exact h .pk hs
    · rw [← hnotnull]
      exact h .notnull hs
    · rw [← hdflt]
      exact h .dfltValue hs

theorem columnName_iff (hb : Bare bare) :
    columnNameFromPropertyName (propertyName ms bare) = "_" ++ bare ↔
      Intact [.pk, .notnull, .dfltValue] ms bare.toList.dropLast := by
  have hne : bare.toList ≠ [] := by simpa using hb.ne
  have hlast := List.dropLast_append_getLast hne
  have hname : '_' :: (propertyName ms bare).toList =
      ('_' :: (markersText ms ++ bare.toList.dropLast)) ++ [bare.toList.getLast hne] := by
    rw [toList_propertyName, List.cons_append, List.append_assoc, hlast]
  have hunderscore : "_" = String.ofList ['_'] := by decide
  have hcolumn : "_" ++ bare = String.ofList
      (('_' :: bare.toList.dropLast) ++ [bare.toList.getLast hne]) := by
    rw [List.cons_append, hlast, hunderscore, ← String.ofList_toList (s := bare),
      ← String.ofList_append, String.toList_ofList]
    rfl
  have hfree : ∀ m : Marker, ¬ Occurs Char.toLower m.text bare.toList.dropLast := by
    intro m h
    have hall := h.append_right [bare.toList.getLast hne]
    rw [hlast] at hall
    exact hb.free m hall
  have hmem : ∀ l ∈ ms, l ∈ [Marker.pk, .notnull, .dfltValue] := by
    intro l _
    cases l <;> decide
  rw [columnNameFromPropertyName_concat hname, hcolumn, ← passes_eq_iff hfree hmem,
    String.ofList_inj, List.append_left_inj]

/-- **A property name names its column** exactly when no marker begins with the underscore before
the bare name, and then different bare names name different columns. -/
theorem namesColumn_iff (ms : List Marker) (bare : String) (hb : Bare bare) :
    (NamesColumn ms bare ↔ Seamless ms bare) ∧
      ∀ ms' bare', Bare bare' → Seamless ms bare → Seamless ms' bare' → bare ≠ bare' →
        columnNameFromPropertyName (propertyName ms bare) ≠
          columnNameFromPropertyName (propertyName ms' bare') := by
  have hcolumn : ∀ {ms bare}, Bare bare → Seamless ms bare →
      columnNameFromPropertyName (propertyName ms bare) = "_" ++ bare :=
    fun hb h => (columnName_iff hb).mpr (intact_iff.mpr h.column)
  have hkey : isPrimaryKey (propertyName ms bare) = true ↔ _ := isPrimaryKey_propertyName hb
  refine ⟨⟨fun h => ⟨?_, fun hstarts => ?_⟩, fun h => ⟨hcolumn hb h, ?_, ?_⟩⟩, ?_⟩
  · exact intact_iff.mp ((columnName_iff hb).mp h.column)
  · by_contra hnone
    obtain ⟨hne, hpk⟩ := not_or.mp hnone
    exact hpk (h.primaryKey.mp (hkey.mpr (.inr ⟨hne, hstarts⟩)))
  · rw [hkey]
    refine ⟨fun hfound => ?_, .inl⟩
    rcases hfound with hpk | ⟨hne, hstarts⟩
    · exact hpk
    · exact (h.primaryKey hstarts).resolve_left hne
  · intro chain iv hiv
    rwa [hcolumn hb h]
  · intro ms' bare' hb' h h' hne heq
    rw [hcolumn hb h, hcolumn hb' h'] at heq
    have hlists := congrArg String.toList heq
    rw [String.toList_append, String.toList_append] at hlists
    exact hne (String.toList_inj.mp (List.append_cancel_left hlists))

end Named

theorem bookId_bare : Bare "bookId" where
  ne := by decide
  free m := by cases m <;> decide +kernel

/-- The key of a book has the column of its instance variable. -/
theorem bookId_namesColumn : NamesColumn [.pk] "bookId" :=
  (namesColumn_iff [.pk] "bookId" bookId_bare).1.mpr
    ⟨fun m => by cases m <;> decide +kernel, by decide +kernel⟩

theorem pk_id_bare : Bare "pk_id" where
  ne := by decide
  free m := by cases m <;> decide +kernel

/-- An unmarked `pk_id` has the column `id`, and its instance variable is not found. -/
theorem pk_id_stripped : Bare "pk_id" ∧
    columnNameFromPropertyName (propertyName [] "pk_id") = "id" ∧
    getInstanceVariable [⟨"Item", [⟨"pk_id", "i", "pk_id"⟩], [⟨"_pk_id", "i"⟩]⟩] "id" = none ∧
    ¬ NamesColumn [] "pk_id" := by
  have hcolumn : columnNameFromPropertyName (propertyName [] "pk_id") = "id" := by decide +kernel
  refine ⟨pk_id_bare, hcolumn, by decide +kernel, fun h => ?_⟩
  have hbare := h.column
  rw [hcolumn] at hbare
  exact absurd hbare (by decide)

end NBDataBase
