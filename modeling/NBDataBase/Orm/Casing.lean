import NBDataBase.Orm.Registration

/-!
# Orm — camel case and snake case

The conversions of `NBDBNameHelper`, one loop over the characters each.

* `snakeCaseFromCamelCase`, `upperCamelCaseFromSnakeCase`, `lowerCamelCaseFromSnakeCase`: from the
  source.  `AsciiCase`: the letters as Foundation has them, on ASCII.
* `withoutPrefix`: a name without the capitals before its last leading capital.
* `defaultTableName_snakeCase`: the table name of a class is the snake case of this.
* `camelCase_snakeCase`: names without underscores survive the way to snake case and back, and names
  of segments the way to camel case and back.
-/

namespace NBDataBase

/-! ### The conversions -/

section Source

variable (R : Runtime) (isUppercase : Char → Bool) (uppercaseString : String → String)

/-- The loop of `FMSnakeCaseFromCamelCase`, at an index. -/
def snakeCaseLoop : ℕ → List Char → String
  | _, [] => ""
  | idx, c :: cs =>
      (if isUppercase c && decide (idx = 0) then R.lowercaseString (String.singleton c)
      else if isUppercase c then "_" ++ R.lowercaseString (String.singleton c)
      else String.singleton c) ++ snakeCaseLoop (idx + 1) cs

/-- `FMSnakeCaseFromCamelCase`. -/
def snakeCaseFromCamelCase (input : String) : String :=
  snakeCaseLoop R isUppercase 0 input.toList

/-- The loop of `FMUpperCamelCaseFromSnakeCase`, at an index; `next` is
`makeNextCharacterUpperCase`. -/
def upperCamelCaseLoop : ℕ → Bool → List Char → String
  | _, _, [] => ""
  | idx, next, c :: cs =>
      if idx = 0 then
        uppercaseString (String.singleton c) ++ upperCamelCaseLoop (idx + 1) next cs
      else if c = '_' then upperCamelCaseLoop (idx + 1) true cs
      else if next then
        uppercaseString (String.singleton c) ++ upperCamelCaseLoop (idx + 1) false cs
      else String.singleton c ++ upperCamelCaseLoop (idx + 1) next cs

/-- `FMUpperCamelCaseFromSnakeCase`. -/
def upperCamelCaseFromSnakeCase (input : String) : String :=
  upperCamelCaseLoop uppercaseString 0 false input.toList

/-- The loop of `FMLowerCamelCaseFromSnakeCase`, which has no case for the first index. -/
def lowerCamelCaseLoop : Bool → List Char → String
  | _, [] => ""
  | next, c :: cs =>
      if c = '_' then lowerCamelCaseLoop true cs
      else if next then uppercaseString (String.singleton c) ++ lowerCamelCaseLoop false cs
      else String.singleton c ++ lowerCamelCaseLoop next cs

/-- `FMLowerCamelCaseFromSnakeCase`. -/
def lowerCamelCaseFromSnakeCase (input : String) : String :=
  lowerCamelCaseLoop uppercaseString false input.toList

end Source

/-- An ASCII character. -/
def AsciiChar (c : Char) : Prop := c.toNat < 128

instance (c : Char) : Decidable (AsciiChar c) := Nat.decLt c.toNat 128

/-- An ASCII string. -/
def Ascii (s : String) : Prop := ∀ c ∈ s.toList, AsciiChar c

instance (s : String) : Decidable (Ascii s) := List.decidableBAll AsciiChar s.toList

/-- `uppercaseLetterCharacterSet`, `lowercaseString` and `uppercaseString` on ASCII characters. -/
structure AsciiCase (R : Runtime) (isUppercase : Char → Bool)
    (uppercaseString : String → String) : Prop where
  isUppercase : ∀ c, AsciiChar c → isUppercase c = c.isUpper
  lowercase : ∀ c, AsciiChar c →
    R.lowercaseString (String.singleton c) = String.singleton c.toLower
  uppercase : ∀ c, AsciiChar c → uppercaseString (String.singleton c) = String.singleton c.toUpper

/-- Characters in upper case, one by one. -/
def upperString (s : String) : String := String.ofList (s.toList.map Char.toUpper)

theorem demo_asciiCase : AsciiCase demoRuntime Char.isUpper upperString where
  isUppercase _ _ := rfl
  lowercase c _ := by
    show String.ofList ((String.singleton c).toList.map Char.toLower) = _
    rw [String.toList_singleton, String.singleton_eq_ofList]
    rfl
  uppercase c _ := by
    rw [upperString, String.toList_singleton, String.singleton_eq_ofList]
    rfl

-- The examples of the header.
example : snakeCaseFromCamelCase demoRuntime Char.isUpper "MyNameIsKohkiMakimoto" =
    "my_name_is_kohki_makimoto" := by decide +kernel

example : upperCamelCaseFromSnakeCase upperString "aaa_bbb_ccc" = "AaaBbbCcc" := by decide +kernel

example : lowerCamelCaseFromSnakeCase upperString "my_name_is_kohki_makimoto" =
    "myNameIsKohkiMakimoto" := by decide +kernel

/-! ### Table names -/

section TableNames

variable {R : Runtime} {isUppercase : Char → Bool} {uppercaseString : String → String}

/-- The name without all but the last of the capitals at its start. -/
def withoutPrefix (isUppercase : Char → Bool) (s : String) : String :=
  String.ofList (s.toList.drop ((s.toList.takeWhile isUppercase).length - 1))

/-- Behind the prefix the loop is that of the snake case. -/
theorem tableNameLoop_removed (cs : List Char) (idx : ℕ) :
    tableNameLoop R isUppercase true cs = snakeCaseLoop R isUppercase (idx + 1) cs := by
  induction cs generalizing idx with
  | nil => rfl
  | cons c cs ih =>
      rw [tableNameLoop, snakeCaseLoop, ih (idx + 1)]
      cases isUppercase c with
      | false => simp
      | true => simp [String.append_assoc]

/-- Until then it drops the capitals that another one follows. -/
theorem tableNameLoop_prefix (cs : List Char) :
    tableNameLoop R isUppercase false cs =
      snakeCaseLoop R isUppercase 0 (cs.drop ((cs.takeWhile isUppercase).length - 1)) := by
  induction cs with
  | nil => rfl
  | cons c cs ih =>
      cases hc : isUppercase c with
      | false =>
          have hrun : (c :: cs).takeWhile isUppercase = [] := by simp [hc]
          rw [hrun, tableNameLoop, tableNameLoop_removed cs 0]
          simp [hc, snakeCaseLoop]
      | true =>
          have hrun : (c :: cs).takeWhile isUppercase = c :: cs.takeWhile isUppercase := by
            simp [hc]
          rw [hrun, List.length_cons, Nat.add_sub_cancel, tableNameLoop]
          cases cs with
          | nil => simp [hc, snakeCaseLoop, tableNameLoop]
          | cons d cs =>
              cases hd : isUppercase d with
              | false =>
                  -- the last capital: the prefix ends here
                  have hlast : (d :: cs).takeWhile isUppercase = [] := by simp [hd]
                  rw [hlast, tableNameLoop_removed (d :: cs) 0]
                  simp [hc, hd, snakeCaseLoop]
              | true =>
                  have hmore : (d :: cs).takeWhile isUppercase = d :: cs.takeWhile isUppercase := by
                    simp [hd]
                  rw [hmore] at ih ⊢
                  simpa [hc, hd] using ih

end TableNames

/-! ### The loops on ASCII -/

theorem asciiChar_toLower {c : Char} (h : AsciiChar c) : AsciiChar c.toLower := by
  by_cases hc : c.isUpper = true
  · have hrange : 65 ≤ c.toNat ∧ c.toNat ≤ 90 := by
      simpa [Char.isUpper, UInt32.le_iff_toNat_le, ← Char.toNat_val] using hc
    rw [Char.toLower_eq_of_isUpper hc, AsciiChar, Char.toNat_ofNat, if_pos (.inl (by omega))]
    omega
  · rwa [Char.toLower_eq_of_not_isUpper hc]

section Ascii

variable {R : Runtime} {isUppercase : Char → Bool} {uppercaseString : String → String}
  (h : AsciiCase R isUppercase uppercaseString)
include h

theorem snakeCaseLoop_upper {c : Char} (hc : AsciiChar c) (hupper : c.isUpper = true) (idx : ℕ)
    (cs : List Char) : (snakeCaseLoop R isUppercase (idx + 1) (c :: cs)).toList =
      '_' :: c.toLower :: (snakeCaseLoop R isUppercase (idx + 2) cs).toList := by
  rw [snakeCaseLoop, h.isUppercase c hc, h.lowercase c hc]
  simp [hupper]

theorem snakeCaseLoop_other {c : Char} (hc : AsciiChar c) (hupper : c.isUpper = false) (idx : ℕ)
    (cs : List Char) : (snakeCaseLoop R isUppercase idx (c :: cs)).toList =
      c :: (snakeCaseLoop R isUppercase (idx + 1) cs).toList := by
  rw [snakeCaseLoop, h.isUppercase c hc]
  simp [hupper]

/-- At the start a capital has no underscore. -/
theorem snakeCaseLoop_first {c : Char} (hc : AsciiChar c) (cs : List Char) :
    (snakeCaseLoop R isUppercase 0 (c :: cs)).toList =
      c.toLower :: (snakeCaseLoop R isUppercase 1 cs).toList := by
  cases hupper : c.isUpper with
  | true =>
      rw [snakeCaseLoop, h.isUppercase c hc, h.lowercase c hc]
      simp [hupper]
  | false =>
      rw [snakeCaseLoop_other h hc hupper,
        Char.toLower_eq_of_not_isUpper (Bool.eq_false_iff.mp hupper)]

/-- No capital is left. -/
theorem snakeCaseLoop_isUppercase {cs : List Char} (hcs : ∀ c ∈ cs, AsciiChar c) (idx : ℕ) :
    ∀ c ∈ (snakeCaseLoop R isUppercase idx cs).toList, isUppercase c = false := by
  have hlower : ∀ c, AsciiChar c → isUppercase c.toLower = false := by
    intro c hc
    rw [h.isUppercase _ (asciiChar_toLower hc), Char.isUpper_toLower_eq_false]
  have hunderscore : isUppercase '_' = false := h.isUppercase '_' (by decide)
  induction cs generalizing idx with
  | nil => intro c hc; cases hc
  | cons d cs ih =>
      have hd : AsciiChar d := hcs d List.mem_cons_self
      have ih := ih (fun c hc => hcs c (List.mem_cons_of_mem _ hc)) 
      intro c hc
      cases hupper : d.isUpper with
      | false =>
          rw [snakeCaseLoop_other h hd hupper] at hc
          rcases List.mem_cons.mp hc with rfl | hc
          · rw [h.isUppercase c hd, hupper]
          · exact ih (idx + 1) c hc
      | true =>
          cases idx with
          | zero =>
              rw [snakeCaseLoop_first h hd] at hc
              rcases List.mem_cons.mp hc with rfl | hc
              · exact hlower d hd
              · exact ih 1 c hc
          | succ idx =>
              rw [snakeCaseLoop_upper h hd hupper] at hc
              simp only [List.mem_cons] at hc
              rcases hc with rfl | rfl | hc
              · exact hunderscore
              · exact hlower d hd
              · exact ih (idx + 2) c hc

end Ascii

/-- **The default table name** is the snake case of the name without its prefix, between `tb_` and
`s`; it has no capital. -/
theorem defaultTableName_snakeCase (R : Runtime) (isUppercase : Char → Bool)
    (uppercaseString : String → String) (h : AsciiCase R isUppercase uppercaseString)
    (s : String) (hs : Ascii s) :
    defaultTableNameFromModelName R isUppercase s =
        "tb_" ++ (snakeCaseFromCamelCase R isUppercase (withoutPrefix isUppercase s) ++ "s") ∧
      ∀ c ∈ (defaultTableNameFromModelName R isUppercase s).toList, isUppercase c = false := by
  have hname : defaultTableNameFromModelName R isUppercase s =
      "tb_" ++ (snakeCaseFromCamelCase R isUppercase (withoutPrefix isUppercase s) ++ "s") := by
    rw [defaultTableNameFromModelName, tableNameLoop_prefix, snakeCaseFromCamelCase, withoutPrefix,
      String.toList_ofList]
  refine ⟨hname, fun c hc => ?_⟩
  have hplain : ∀ d ∈ ['t', 'b', '_', 's'], isUppercase d = false := by
    intro d hd
    simp only [List.mem_cons, List.not_mem_nil, or_false] at hd
    rcases hd with rfl | rfl | rfl | rfl
    · exact h.isUppercase 't' (by decide)
    · exact h.isUppercase 'b' (by decide)
    · exact h.isUppercase '_' (by decide)
    · exact h.isUppercase 's' (by decide)
  have htexts : "tb_".toList = ['t', 'b', '_'] ∧ "s".toList = ['s'] := by decide
  rw [hname, snakeCaseFromCamelCase, withoutPrefix, String.toList_ofList, String.toList_append,
    String.toList_append, htexts.1, htexts.2] at hc
  rcases List.mem_append.mp hc with hc | hc
  · exact hplain c (List.mem_append_left ['s'] hc)
  · rcases List.mem_append.mp hc with hc | hc
    · exact snakeCaseLoop_isUppercase h (fun d hd => hs d (List.mem_of_mem_drop hd)) 0 c hc
    · exact hplain c (List.mem_append_right ['t', 'b', '_'] hc)

/-- The law at a name of the header. -/
theorem defaultTableName_aaBbb :
    defaultTableNameFromModelName demoRuntime Char.isUpper "AABbbAAA" =
      "tb_" ++ (snakeCaseFromCamelCase demoRuntime Char.isUpper
        (withoutPrefix Char.isUpper "AABbbAAA") ++ "s") ∧
      withoutPrefix Char.isUpper "AABbbAAA" = "BbbAAA" :=
  ⟨(defaultTableName_snakeCase demoRuntime Char.isUpper upperString demo_asciiCase "AABbbAAA"
    (by decide +kernel)).1, by decide +kernel⟩

example : defaultTableNameFromModelName demoRuntime Char.isUpper "AABbbAAA" = "tb_bbb_a_a_as" := by
  decide +kernel

/-! ### Back and forth -/

/-- A segment of a snake case name: lower-case letters and digits, a letter first. -/
def Segment (w : String) : Prop :=
  (∃ a, w.toList.head? = some a ∧ a.isLower = true) ∧
    ∀ c ∈ w.toList, c.isLower = true ∨ c.isDigit = true

/-- Segments with single underscores between them. -/
def SnakeCase (t : String) : Prop :=
  ∃ segments : List String, (∀ w ∈ segments, Segment w) ∧ t = String.intercalate "_" segments

/-- The string with its first character changed. -/
def mapFirst (f : Char → Char) (s : String) : String := String.ofList (s.toList.modifyHead f)

/-- What may stand behind the first letter of a snake case name. -/
inductive Continued : List Char → Prop
  | nil : Continued []
  | char {c : Char} {cs : List Char} (hc : c.isLower = true ∨ c.isDigit = true)
      (h : Continued cs) : Continued (c :: cs)
  | segment {a : Char} {cs : List Char} (ha : a.isLower = true) (h : Continued cs) :
      Continued ('_' :: a :: cs)

theorem Continued.append {w cs : List Char}
    (hw : ∀ c ∈ w, c.isLower = true ∨ c.isDigit = true) (h : Continued cs) :
    Continued (w ++ cs) := by
  induction w with
  | nil => exact h
  | cons c w ih =>
      exact .char (hw c List.mem_cons_self) (ih fun d hd => hw d (List.mem_cons_of_mem _ hd))

/-- A snake case name is empty, or a letter and what may stand behind it. -/
theorem SnakeCase.continued {t : String} (h : SnakeCase t) :
    t = "" ∨ ∃ a cs, t = String.ofList (a :: cs) ∧ a.isLower = true ∧ Continued cs := by
  obtain ⟨segments, hsegments, rfl⟩ := h
  induction segments with
  | nil => exact .inl rfl
  | cons w ws ih =>
      obtain ⟨⟨a, hhead, ha⟩, hw⟩ := hsegments w List.mem_cons_self
      obtain ⟨cs, hcs⟩ : ∃ cs, w.toList = a :: cs := List.head?_eq_some_iff.mp hhead
      have hw' : w = String.ofList (a :: cs) := by rw [← hcs, String.ofList_toList]
      have hrest : ∀ c ∈ cs, c.isLower = true ∨ c.isDigit = true :=
        fun c hc => hw c (hcs ▸ List.mem_cons_of_mem _ hc)
      have ih := ih fun w hw => hsegments w (List.mem_cons_of_mem _ hw)
      refine .inr ⟨a, ?_⟩
      cases ws with
      | nil =>
          refine ⟨cs, by rw [String.intercalate_singleton, hw'], ha, ?_⟩
          have hend := Continued.append hrest .nil
          rwa [List.append_nil] at hend
      | cons v vs =>
          -- the next segment starts with a letter as well
          have hnext : ∃ b bs, String.intercalate "_" (v :: vs) = String.ofList (b :: bs) ∧
              b.isLower = true ∧ Continued bs := by
            refine ih.resolve_left fun hempty => ?_
            obtain ⟨⟨b, hb, -⟩, -⟩ := hsegments v (by simp)
            have hnone := congrArg String.toList hempty
            cases vs with
            | nil =>
                rw [String.intercalate_singleton] at hnone
                rw [hnone] at hb
                cases hb
            | cons u us =>
                rw [String.intercalate_cons_cons, String.toList_append,
                  String.toList_append] at hnone
                simp at hnone
          obtain ⟨b, bs, htext, hb, hbs⟩ := hnext
          refine ⟨cs ++ '_' :: b :: bs, ?_, ha, .append hrest (.segment hb hbs)⟩
          have hunderscore : "_" = String.ofList ['_'] := by decide
          rw [String.intercalate_cons_cons, htext, hw', hunderscore, ← String.ofList_append,
            ← String.ofList_append]
          simp

theorem asciiChar_of_lower {c : Char} (h : c.isLower = true) : AsciiChar c := by
  have hrange : 97 ≤ c.toNat ∧ c.toNat ≤ 122 := by
    simpa [Char.isLower, UInt32.le_iff_toNat_le, ← Char.toNat_val] using h
  exact lt_of_le_of_lt hrange.2 (by decide)

theorem asciiChar_of_digit {c : Char} (h : c.isDigit = true) : AsciiChar c := by
  have hrange : 48 ≤ c.toNat ∧ c.toNat ≤ 57 := by
    simpa [Char.isDigit, UInt32.le_iff_toNat_le, ← Char.toNat_val] using h
  exact lt_of_le_of_lt hrange.2 (by decide)

theorem asciiChar_toUpper {c : Char} (h : c.isLower = true) : AsciiChar c.toUpper := by
  have hrange : 97 ≤ c.toNat ∧ c.toNat ≤ 122 := by
    simpa [Char.isLower, UInt32.le_iff_toNat_le, ← Char.toNat_val] using h
  rw [Char.toUpper_eq_of_isLower h, AsciiChar, Char.toNat_ofNat, if_pos (.inl (by omega))]
  omega

theorem not_upper_of_digit {c : Char} (h : c.isDigit = true) : c.isUpper = false := by
  have hrange : 48 ≤ c.toNat ∧ c.toNat ≤ 57 := by
    simpa [Char.isDigit, UInt32.le_iff_toNat_le, ← Char.toNat_val] using h
  rw [Bool.eq_false_iff]
  intro hupper
  have hrange' : 65 ≤ c.toNat ∧ c.toNat ≤ 90 := by
    simpa [Char.isUpper, UInt32.le_iff_toNat_le, ← Char.toNat_val] using hupper
  omega

/-- A letter or a digit of a segment is no capital and no underscore. -/
theorem segment_char {c : Char} (h : c.isLower = true ∨ c.isDigit = true) :
    AsciiChar c ∧ c.isUpper = false ∧ c ≠ '_' := by
  rcases h with h | h
  · refine ⟨asciiChar_of_lower h, Bool.eq_false_iff.mpr (Char.not_isUpper_of_isLower h), ?_⟩
    rintro rfl
    exact absurd h (by decide)
  · refine ⟨asciiChar_of_digit h, not_upper_of_digit h, ?_⟩
    rintro rfl
    exact absurd h (by decide)

theorem toLower_ne_underscore {c : Char} (h : c ≠ '_') : c.toLower ≠ '_' := by
  cases hupper : c.isUpper with
  | false => rwa [Char.toLower_eq_of_not_isUpper (Bool.eq_false_iff.mp hupper)]
  | true =>
      intro heq
      have halpha : c.toLower.isAlpha = true := by
        rw [Char.isAlpha_toLower_eq_isAlpha, Char.isAlpha, hupper, Bool.true_or]
      rw [heq] at halpha
      exact absurd halpha (by decide)

section Camel

variable {R : Runtime} {isUppercase : Char → Bool} {uppercaseString : String → String}

/-- Behind the first character the two camel cases are one. -/
theorem upperCamelCaseLoop_succ (idx : ℕ) (next : Bool) (cs : List Char) :
    upperCamelCaseLoop uppercaseString (idx + 1) next cs =
      lowerCamelCaseLoop uppercaseString next cs := by
  induction cs generalizing idx next with
  | nil => rfl
  | cons c cs ih =>
      rw [upperCamelCaseLoop, lowerCamelCaseLoop, if_neg (Nat.succ_ne_zero idx), ih, ih, ih]

theorem lowerCamelCaseLoop_underscore (next : Bool) (cs : List Char) :
    lowerCamelCaseLoop uppercaseString next ('_' :: cs) =
      lowerCamelCaseLoop uppercaseString true cs := by
  rw [lowerCamelCaseLoop, if_pos rfl]

theorem lowerCamelCaseLoop_char {c : Char} (hc : c ≠ '_') (cs : List Char) :
    lowerCamelCaseLoop uppercaseString false (c :: cs) =
      String.singleton c ++ lowerCamelCaseLoop uppercaseString false cs := by
  rw [lowerCamelCaseLoop, if_neg hc, if_neg Bool.false_ne_true]

variable (h : AsciiCase R isUppercase uppercaseString)
include h

theorem lowerCamelCaseLoop_next {c : Char} (hascii : AsciiChar c) (hc : c ≠ '_')
    (cs : List Char) : lowerCamelCaseLoop uppercaseString true (c :: cs) =
      String.singleton c.toUpper ++ lowerCamelCaseLoop uppercaseString false cs := by
  rw [lowerCamelCaseLoop, if_neg hc, if_pos rfl, h.uppercase c hascii]

/-- **To snake case and back**, behind the first character. -/
theorem lowerCamelCaseLoop_snakeCaseLoop {cs : List Char} (hcs : ∀ c ∈ cs, AsciiChar c)
    (hplain : '_' ∉ cs) (idx : ℕ) :
    lowerCamelCaseLoop uppercaseString false (snakeCaseLoop R isUppercase (idx + 1) cs).toList =
      String.ofList cs := by
  induction cs generalizing idx with
  | nil => rfl
  | cons c cs ih =>
      have hc : AsciiChar c := hcs c List.mem_cons_self
      obtain ⟨hne, hplain⟩ := not_or.mp fun hmem => hplain (List.mem_cons.mpr hmem)
      have ih := ih (fun d hd => hcs d (List.mem_cons_of_mem _ hd)) hplain (idx + 1)
      cases hupper : c.isUpper with
      | false =>
          rw [snakeCaseLoop_other h hc hupper, lowerCamelCaseLoop_char (Ne.symm hne), ih,
            String.ofList_cons]
      | true =>
          -- the underscore carries the capital
          have hback : c.toLower.toUpper = c := by
            rw [Char.toUpper_toLower_eq_toUpper,
              Char.toUpper_eq_of_not_isLower (Char.not_isLower_of_isUpper hupper)]
          rw [snakeCaseLoop_upper h hc hupper, lowerCamelCaseLoop_underscore,
            lowerCamelCaseLoop_next h (asciiChar_toLower hc) (toLower_ne_underscore (Ne.symm hne)),
            ih,
            hback, String.ofList_cons]

/-- **To camel case and back**, behind the first letter. -/
theorem snakeCaseLoop_lowerCamelCaseLoop {cs : List Char} (hcs : Continued cs) (idx : ℕ) :
    snakeCaseLoop R isUppercase (idx + 1) (lowerCamelCaseLoop uppercaseString false cs).toList =
      String.ofList cs := by
  induction hcs generalizing idx with
  | nil => rfl
  | char hc _ ih =>
      obtain ⟨hascii, hupper, hne⟩ := segment_char hc
      rw [lowerCamelCaseLoop_char hne, String.toList_append, String.toList_singleton,
        List.singleton_append, ← String.toList_inj, snakeCaseLoop_other h hascii hupper, ih]
      simp
  | @segment a _ ha _ ih =>
      obtain ⟨hascii, -, hne⟩ := segment_char (.inl ha)
      have hupper : a.toUpper.isUpper = true := by
        rw [Char.isUpper_toUpper_eq_isAlpha, Char.isAlpha, ha, Bool.or_true]
      rw [lowerCamelCaseLoop_underscore, lowerCamelCaseLoop_next h hascii hne, String.toList_append,
        String.toList_singleton, List.singleton_append, ← String.toList_inj,
        snakeCaseLoop_upper h (asciiChar_toUpper ha) hupper, ih, Char.toLower_toUpper_eq_toLower,
        Char.toLower_eq_of_not_isUpper (Char.not_isUpper_of_isLower ha)]
      simp

end Camel

/-- **Camel case and snake case**: a name without underscores comes back from snake case with its
first character in the case of the conversion, and a snake case name comes back from camel case. -/
theorem camelCase_snakeCase (R : Runtime) (isUppercase : Char → Bool)
    (uppercaseString : String → String) (h : AsciiCase R isUppercase uppercaseString) :
    (∀ s : String, Ascii s → '_' ∉ s.toList →
      upperCamelCaseFromSnakeCase uppercaseString (snakeCaseFromCamelCase R isUppercase s) =
          mapFirst Char.toUpper s ∧
        lowerCamelCaseFromSnakeCase uppercaseString (snakeCaseFromCamelCase R isUppercase s) =
          mapFirst Char.toLower s) ∧
    ∀ t : String, SnakeCase t →
      snakeCaseFromCamelCase R isUppercase (upperCamelCaseFromSnakeCase uppercaseString t) = t ∧
        snakeCaseFromCamelCase R isUppercase (lowerCamelCaseFromSnakeCase uppercaseString t) =
          t := by
  refine ⟨fun s hs hplain => ?_, fun t ht => ?_⟩
  · unfold upperCamelCaseFromSnakeCase lowerCamelCaseFromSnakeCase snakeCaseFromCamelCase mapFirst
    cases hcs : s.toList with
    | nil => exact ⟨rfl, rfl⟩
    | cons c cs =>
        rw [hcs] at hplain
        obtain ⟨hne, hplain⟩ := not_or.mp fun hmem => hplain (List.mem_cons.mpr hmem)
        have hc : AsciiChar c := hs c (hcs ▸ List.mem_cons_self)
        have hrest : ∀ d ∈ cs, AsciiChar d := fun d hd => hs d (hcs ▸ List.mem_cons_of_mem _ hd)
        have hback := lowerCamelCaseLoop_snakeCaseLoop h hrest hplain 0
        rw [snakeCaseLoop_first h hc]
        constructor
        · rw [upperCamelCaseLoop, if_pos rfl, upperCamelCaseLoop_succ, hback,
            h.uppercase _ (asciiChar_toLower hc), Char.toUpper_toLower_eq_toUpper,
            List.modifyHead_cons, String.ofList_cons]
        · rw [lowerCamelCaseLoop_char (toLower_ne_underscore (Ne.symm hne)), hback,
            List.modifyHead_cons, String.ofList_cons]
  · rcases ht.continued with rfl | ⟨a, cs, rfl, ha, hcs⟩
    · exact ⟨rfl, rfl⟩
    · obtain ⟨hascii, hupper, hne⟩ := segment_char (.inl ha)
      have hback := snakeCaseLoop_lowerCamelCaseLoop h hcs 0
      unfold upperCamelCaseFromSnakeCase lowerCamelCaseFromSnakeCase snakeCaseFromCamelCase
      rw [String.toList_ofList]
      constructor
      · rw [upperCamelCaseLoop, if_pos rfl, upperCamelCaseLoop_succ, h.uppercase a hascii,
          String.toList_append, String.toList_singleton, List.singleton_append,
          ← String.toList_inj, snakeCaseLoop_first h (asciiChar_toUpper ha), hback,
          Char.toLower_toUpper_eq_toLower,
          Char.toLower_eq_of_not_isUpper (Char.not_isUpper_of_isLower ha)]
        simp
      · rw [lowerCamelCaseLoop_char hne, String.toList_append, String.toList_singleton,
          List.singleton_append, ← String.toList_inj, snakeCaseLoop_first h hascii, hback,
          Char.toLower_eq_of_not_isUpper (Char.not_isUpper_of_isLower ha)]
        simp

/-- The law at a camel case name and a snake case name of the header. -/
theorem aaaBbbCcc_camelCase :
    upperCamelCaseFromSnakeCase upperString
        (snakeCaseFromCamelCase demoRuntime Char.isUpper "aaaBbbCcc") =
      mapFirst Char.toUpper "aaaBbbCcc" ∧
    snakeCaseFromCamelCase demoRuntime Char.isUpper
        (upperCamelCaseFromSnakeCase upperString "aaa_bbb_ccc") = "aaa_bbb_ccc" := by
  have hlaw := camelCase_snakeCase demoRuntime Char.isUpper upperString demo_asciiCase
  have hsegments : SnakeCase "aaa_bbb_ccc" := by
    refine ⟨["aaa", "bbb", "ccc"], fun w hw => ?_, by decide⟩
    have hletters : ∀ w ∈ ["aaa", "bbb", "ccc"], (w.toList.head?.any Char.isLower &&
        w.toList.all fun c => c.isLower || c.isDigit) = true := by decide +kernel
    obtain ⟨hhead, hall⟩ := Bool.and_eq_true_iff.mp (hletters w hw)
    obtain ⟨a, ha, hlower⟩ := (Option.any_eq_true _ _).mp hhead
    exact ⟨⟨a, ha, hlower⟩, fun c hc => by simpa using List.all_eq_true.mp hall c hc⟩
  exact ⟨(hlaw.1 "aaaBbbCcc" (by decide +kernel) (by decide)).1, (hlaw.2 _ hsegments).1⟩

end NBDataBase
