import ShejaneRuntime.Stream.JsonText

/-!
# Reading JSON text back

The readers return the value that was written. A text they accept closes every
string it opens, and a character outside ASCII stands inside a string: so a
written text that is cut off at such a character is not accepted, not even when
more lines follow.
-/

namespace ShejaneRuntime.Stream

open Lib Store

/-! ## Strings -/

theorem hexValue_digitChar : ∀ d < 16, hexValue (Nat.digitChar d) = some d := by decide

theorem readString_plain {c : Char} (h : ¬ (c = '\\' ∨ c.toNat < 0x20)) (hquote : c ≠ '"')
    (text : List Char) :
    readString (c :: text) = (readString text).map fun r ↦ (c :: r.1, r.2) := by
  have hne : c ≠ '\\' := fun hc ↦ h (.inl hc)
  rw [readString.eq_def]
  split
  · rename_i heq
    cases heq
  · rename_i heq
    exact absurd (List.cons.inj heq).1 hquote
  · rename_i heq
    exact absurd (List.cons.inj heq).1 hne
  · rename_i heq
    exact absurd (List.cons.inj heq).1 hne
  · rename_i heq
    obtain ⟨rfl, rfl⟩ := List.cons.inj heq
    rw [if_neg h]

theorem readString_escape {e ch : Char} (hunescape : unescape e = some ch) (text : List Char) :
    readString ('\\' :: e :: text) = (readString text).map fun r ↦ (ch :: r.1, r.2) := by
  have hne : e ≠ 'u' := by
    rintro rfl
    cases hunescape
  rw [readString.eq_def]
  split
  · rename_i heq
    cases heq
  · rename_i heq
    cases (List.cons.inj heq).1
  · rename_i heq
    obtain ⟨_, heq⟩ := List.cons.inj heq
    exact absurd (List.cons.inj heq).1 hne
  · rename_i heq
    obtain ⟨_, heq⟩ := List.cons.inj heq
    obtain ⟨rfl, rfl⟩ := List.cons.inj heq
    rw [hunescape]
  · rename_i hnone heq
    obtain ⟨rfl, rfl⟩ := List.cons.inj heq
    exact absurd rfl (hnone e text rfl)

theorem readString_escapeChar (c : Char) (text : List Char) :
    readString (escapeChar c ++ text) = (readString text).map fun r ↦ (c :: r.1, r.2) := by
  have hself : ∀ n, c.toNat = n → Char.ofNat n = c := by
    rintro n rfl
    exact Char.ofNat_toNat c
  unfold escapeChar
  split
  · rename_i h
    rw [h]
    exact readString_escape rfl text
  split
  · rename_i h
    rw [h]
    exact readString_escape rfl text
  split
  · rename_i h
    rw [h]
    exact readString_escape rfl text
  split
  · rename_i h
    rw [h]
    exact readString_escape rfl text
  split
  · rename_i h
    rw [h]
    exact readString_escape rfl text
  split
  · rename_i h
    rw [← hself _ h]
    exact readString_escape rfl text
  split
  · rename_i h
    rw [← hself _ h]
    exact readString_escape rfl text
  split
  · rename_i h
    have hhigh := hexValue_digitChar (c.toNat / 16) (by omega)
    have hlow := hexValue_digitChar (c.toNat % 16) (by omega)
    have hzero : hexValue '0' = some 0 := by decide
    have hpoint : ((0 * 16 + 0) * 16 + c.toNat / 16) * 16 + c.toNat % 16 = c.toNat := by omega
    have hhex : unescapeHex '0' '0' (Nat.digitChar (c.toNat / 16))
        (Nat.digitChar (c.toNat % 16)) = some c := by
      simp only [unescapeHex, hzero, hhigh, hlow, Option.bind_eq_bind, Option.bind_some,
        Option.pure_def, hpoint, Char.ofNat_toNat]
    simp only [List.cons_append, List.nil_append]
    rw [readString, hhex]
  · rename_i hquote hslash _ _ _ _ _ hcontrol
    rw [List.singleton_append]
    apply readString_plain _ hquote
    rintro (h | h)
    · exact hslash h
    · exact hcontrol h

theorem readString_quoted (chars rest : List Char) :
    readString (chars.flatMap escapeChar ++ '"' :: rest) = some (chars, rest) := by
  induction chars with
  | nil => rw [List.flatMap_nil, List.nil_append, readString]
  | cons c chars ih =>
      rw [List.flatMap_cons, List.append_assoc, readString_escapeChar, ih]
      rfl

/-! ## Numbers and words -/

/-- A number or a word ends where a text goes on. -/
def AtomEnds (rest : List Char) : Prop := ∀ c ∈ rest.head?, isAtomChar c = false

theorem readAtom_append {token rest : List Char} {j : Json} (hatom : atomOf token = some j)
    (hchars : token.all isAtomChar = true) (hrest : AtomEnds rest) :
    readAtom (token ++ rest) = some (j, rest) := by
  have htoken : ∀ c ∈ token, isAtomChar c = true := List.all_eq_true.mp hchars
  have htake : (token ++ rest).takeWhile isAtomChar = token := by
    rw [List.takeWhile_append_of_pos htoken]
    cases rest with
    | nil => simp
    | cons c rest =>
        have hc := hrest c rfl
        rw [List.takeWhile_cons, hc]
        simp
  have hdrop : (token ++ rest).dropWhile isAtomChar = rest := by
    rw [List.dropWhile_append_of_pos htoken]
    cases rest with
    | nil => rfl
    | cons c rest =>
        have hc := hrest c rfl
        rw [List.dropWhile_cons, hc]
        rfl
  rw [readAtom, htake, hdrop, hatom]
  rfl

theorem readValue_atom {c : Char} (h : isAtomChar c = true) (fuel : ℕ) (text : List Char) :
    readValue (fuel + 1) (c :: text) = readAtom (c :: text) := by
  have hquote : c ≠ '"' := by
    rintro rfl
    cases h
  have hbracket : c ≠ '[' := by
    rintro rfl
    cases h
  have hbrace : c ≠ '\x7b' := by
    rintro rfl
    cases h
  rw [readValue]
  · intro text' heq
    exact hquote (List.cons.inj heq).1
  · intro text' heq
    exact hbracket (List.cons.inj heq).1
  · intro text' heq
    exact hbrace (List.cons.inj heq).1

theorem head?_toDigits {n : ℕ} (h : 0 < n) : (Nat.toDigits 10 n).head? ≠ some '0' := by
  induction n using Nat.strongRecOn with
  | _ n ih =>
      by_cases hlt : n < 10
      · have hsmall : ∀ m < 10, 0 < m → [Nat.digitChar m].head? ≠ some '0' := by decide
        rw [Nat.toDigits_of_lt_base hlt]
        exact hsmall n hlt h
      · have hrest := ih (n / 10) (by omega) (by omega)
        have hne : Nat.toDigits 10 (n / 10) ≠ [] := Nat.toDigits_ne_nil
        rw [Nat.toDigits_of_base_le (by decide) (by omega), List.head?_append_of_ne_nil _ hne]
        exact hrest

theorem isNat_toDigits (n : ℕ) : isNat (Nat.toDigits 10 n) = true := by
  have hne : Nat.toDigits 10 n ≠ [] := Nat.toDigits_ne_nil
  have hdigits : (Nat.toDigits 10 n).all Char.isDigit = true := by
    rw [List.all_eq_true]
    intro c hc
    exact Nat.isDigit_of_mem_toDigits (by decide) (by decide) hc
  have hhead : (Nat.toDigits 10 n).head? ≠ some '0' ∨ (Nat.toDigits 10 n).length = 1 := by
    by_cases hzero : n = 0
    · rw [hzero, Nat.toDigits_zero]
      exact .inr rfl
    · exact .inl (head?_toDigits (by omega))
  rw [isNat, hdigits, Bool.and_true, Bool.and_eq_true]
  constructor
  · simp [hne]
  · simpa using hhead

theorem isAtomChar_of_isDigit {c : Char} (h : c.isDigit = true) : isAtomChar c = true := by
  simp [isAtomChar, Char.isAlphanum, h]

theorem decimal_chars (n : ℤ) : (decimal n).all isAtomChar = true := by
  have hdigits : ∀ m, (Nat.toDigits 10 m).all isAtomChar = true := by
    intro m
    rw [List.all_eq_true]
    intro c hc
    exact isAtomChar_of_isDigit (Nat.isDigit_of_mem_toDigits (by decide) (by decide) hc)
  cases n with
  | ofNat n => exact hdigits n
  | negSucc n =>
      rw [decimal, List.all_cons, hdigits]
      rfl

/-- A decimal begins with a digit or a sign. -/
theorem exists_decimal (n : ℤ) :
    ∃ c rest, decimal n = c :: rest ∧ (c.isDigit = true ∨ c = '-') := by
  cases n with
  | ofNat n =>
      obtain ⟨c, rest, heq⟩ := List.exists_cons_of_ne_nil (@Nat.toDigits_ne_nil n 10)
      have hmem : c ∈ Nat.toDigits 10 n := by
        rw [heq]
        exact List.mem_cons_self
      exact ⟨c, rest, heq, .inl (Nat.isDigit_of_mem_toDigits (by decide) (by decide) hmem)⟩
  | negSucc n => exact ⟨'-', _, rfl, .inr rfl⟩

theorem readInt_decimal (n : ℤ) : readInt (decimal n) = some n := by
  cases n with
  | ofNat n =>
      obtain ⟨c, rest, heq, hc⟩ := exists_decimal (.ofNat n)
      rw [decimal] at heq
      have hmem : c ∈ Nat.toDigits 10 n := by
        rw [heq]
        exact List.mem_cons_self
      have hdigit : c.isDigit = true :=
        Nat.isDigit_of_mem_toDigits (by decide) (by decide) hmem
      have hne : c ≠ '-' := by
        rintro rfl
        cases hdigit
      have hnat := isNat_toDigits n
      have hvalue : Nat.ofDigitChars 10 (Nat.toDigits 10 n) 0 = n :=
        Nat.ofDigitChars_ten_toDigits
      rw [decimal]
      rw [heq] at hnat hvalue ⊢
      rw [readInt]
      · rw [if_pos hnat, hvalue]
        rfl
      · intro digits hdigits
        exact hne (List.cons.inj hdigits).1
  | negSucc n =>
      have hvalue : Nat.ofDigitChars 10 (Nat.toDigits 10 (n + 1)) 0 = n + 1 :=
        Nat.ofDigitChars_ten_toDigits
      rw [decimal, readInt, if_pos (isNat_toDigits (n + 1)), hvalue]
      rfl

theorem atomOf_decimal (n : ℤ) : atomOf (decimal n) = some (.num n) := by
  obtain ⟨c, rest, heq, hc⟩ := exists_decimal n
  have hfirst : ∀ e text, e.isDigit = false → e ≠ '-' → decimal n ≠ e :: text := by
    intro e text he hne hword
    rw [heq] at hword
    obtain ⟨rfl, _⟩ := List.cons.inj hword
    rcases hc with hc | hc
    · rw [he] at hc
      cases hc
    · exact hne hc
  rw [atomOf, if_neg (hfirst _ _ (by decide) (by decide)),
    if_neg (hfirst _ _ (by decide) (by decide)), if_neg (hfirst _ _ (by decide) (by decide)),
    readInt_decimal]

/-! ## Values -/

theorem skipWhitespace_cons {c : Char} (h : isWhitespace c = false) (text : List Char) :
    skipWhitespace (c :: text) = c :: text := by
  rw [skipWhitespace, List.dropWhile_cons, h]
  rfl

theorem skipWhitespace_space (text : List Char) :
    skipWhitespace (' ' :: text) = skipWhitespace text :=
  rfl

theorem not_whitespace_of_atomChar {c : Char} (h : isAtomChar c = true) :
    isWhitespace c = false ∧ c ≠ ']' := by
  constructor
  · rw [Bool.eq_false_iff]
    intro hspace
    simp only [isWhitespace, Bool.or_eq_true, decide_eq_true_eq] at hspace
    rcases hspace with ((rfl | rfl) | rfl) | rfl <;> cases h
  · rintro rfl
    cases h

theorem readable_real {repr : String} (h : readable (.real repr) = true) :
    atomOf repr.toList = some (.real repr) ∧ repr.toList.all isAtomChar = true := by
  rw [readable, Bool.and_eq_true, decide_eq_true_eq] at h
  exact h

/-- A value begins with a character that is neither white space nor a closing
bracket. -/
theorem exists_dumps {j : Json} (h : readable j = true) :
    ∃ c text, dumps j = c :: text ∧ isWhitespace c = false ∧ c ≠ ']' := by
  cases j with
  | null => exact ⟨'n', _, rfl, by decide, by decide⟩
  | bool b => cases b <;> exact ⟨_, _, rfl, by decide, by decide⟩
  | num n =>
      obtain ⟨c, text, heq, hc⟩ := exists_decimal n
      have hatom : isAtomChar c = true := by
        rcases hc with hc | rfl
        · exact isAtomChar_of_isDigit hc
        · decide
      exact ⟨c, text, heq, not_whitespace_of_atomChar hatom⟩
  | real repr =>
      obtain ⟨hatom, hchars⟩ := readable_real h
      have hne : repr.toList ≠ [] := by
        intro hnil
        rw [hnil] at hatom
        cases hatom
      obtain ⟨c, text, heq⟩ := List.exists_cons_of_ne_nil hne
      rw [heq, List.all_cons, Bool.and_eq_true] at hchars
      exact ⟨c, text, heq, not_whitespace_of_atomChar hchars.1⟩
  | str s => exact ⟨'"', _, rfl, by decide, by decide⟩
  | arr items =>
      cases items with
      | nil => exact ⟨'[', _, rfl, by decide, by decide⟩
      | cons j items =>
          rw [dumps]
          exact ⟨'[', _, rfl, by decide, by decide⟩
  | obj fields =>
      cases fields with
      | nil => exact ⟨'\x7b', _, rfl, by decide, by decide⟩
      | cons field fields =>
          rw [dumps]
          exact ⟨'\x7b', _, rfl, by decide, by decide⟩

/-- After a value comes a comma or a closing bracket. -/
theorem exists_dumpsItems (items : List Json) :
    ∃ c text, dumpsItems items = c :: text ∧ isWhitespace c = false ∧ isAtomChar c = false := by
  cases items with
  | nil =>
      rw [dumpsItems]
      exact ⟨']', _, rfl, by decide, by decide⟩
  | cons j items =>
      rw [dumpsItems]
      exact ⟨',', _, rfl, by decide, by decide⟩

theorem exists_dumpsFields (fields : List (String × Json)) :
    ∃ c text, dumpsFields fields = c :: text ∧ isWhitespace c = false ∧
      isAtomChar c = false := by
  cases fields with
  | nil =>
      rw [dumpsFields]
      exact ⟨'\x7d', _, rfl, by decide, by decide⟩
  | cons field fields =>
      rw [dumpsFields]
      exact ⟨',', _, rfl, by decide, by decide⟩

theorem skipWhitespace_append {start text rest : List Char} {c : Char} (hstart : start = c :: text)
    (h : isWhitespace c = false) : skipWhitespace (start ++ rest) = start ++ rest := by
  rw [hstart, List.cons_append]
  exact skipWhitespace_cons h _

theorem atomEnds_append {start text rest : List Char} {c : Char} (hstart : start = c :: text)
    (h : isAtomChar c = false) : AtomEnds (start ++ rest) := by
  intro c' hc'
  rw [hstart, List.cons_append, List.head?_cons, Option.mem_some_iff] at hc'
  rw [← hc']
  exact h

mutual

/-- The steps that reading a value takes. -/
def readingSteps : Json → ℕ
  | .arr (j :: items) => 1 + (readingSteps j + readingStepsItems items)
  | .obj ((_, j) :: fields) => 2 + (readingSteps j + readingStepsFields fields)
  | _ => 1

def readingStepsItems : List Json → ℕ
  | [] => 1
  | j :: items => 1 + (readingSteps j + readingStepsItems items)

def readingStepsFields : List (String × Json) → ℕ
  | [] => 1
  | (_, j) :: fields => 2 + (readingSteps j + readingStepsFields fields)

end

theorem readValue_token {token rest : List Char} {j : Json} (hatom : atomOf token = some j)
    (hchars : token.all isAtomChar = true) (hrest : AtomEnds rest) (fuel : ℕ) :
    readValue (fuel + 1) (token ++ rest) = some (j, rest) := by
  have hread := readAtom_append hatom hchars hrest
  cases token with
  | nil => cases hatom
  | cons c token =>
      rw [List.all_cons, Bool.and_eq_true] at hchars
      rw [List.cons_append] at hread ⊢
      rw [readValue_atom hchars.1, hread]

mutual

/-- A value is read back, whatever follows it. -/
theorem readValue_dumps : ∀ (j : Json) (fuel : ℕ) (rest : List Char), readable j = true →
    AtomEnds rest → readingSteps j ≤ fuel → readValue fuel (dumps j ++ rest) = some (j, rest)
  | _, 0, _, _, _, hsteps => by
      unfold readingSteps at hsteps
      split at hsteps <;> omega
  | .null, fuel + 1, rest, _, hrest, _ => readValue_token rfl (by decide) hrest fuel
  | .bool true, fuel + 1, rest, _, hrest, _ => readValue_token rfl (by decide) hrest fuel
  | .bool false, fuel + 1, rest, _, hrest, _ => readValue_token rfl (by decide) hrest fuel
  | .num n, fuel + 1, rest, _, hrest, _ =>
      readValue_token (atomOf_decimal n) (decimal_chars n) hrest fuel
  | .real repr, fuel + 1, rest, hreadable, hrest, _ => by
      obtain ⟨hatom, hchars⟩ := readable_real hreadable
      exact readValue_token hatom hchars hrest fuel
  | .str s, fuel + 1, rest, _, _, _ => by
      have hread := readString_quoted s.toList rest
      rw [dumps, quote, List.cons_append, List.append_assoc, List.singleton_append, readValue,
        hread, Option.map_some, String.ofList_toList]
  | .arr [], fuel + 1, rest, _, _, _ => by
      rw [dumps, List.cons_append, readValue, List.cons_append,
        skipWhitespace_cons (by decide), List.nil_append]
      rfl
  | .arr (j :: items), fuel + 1, rest, hreadable, _, hsteps => by
      rw [readable, readableItems, Bool.and_eq_true] at hreadable
      rw [readingSteps] at hsteps
      obtain ⟨c, text, hdumps, hspace, hbracket⟩ := exists_dumps hreadable.1
      obtain ⟨c', text', hitems, hspace', hatom'⟩ := exists_dumpsItems items
      have hfirst := readValue_dumps j fuel (dumpsItems items ++ rest) hreadable.1
        (atomEnds_append hitems hatom') (by omega)
      have hmore := readItems_dumpsItems items fuel rest hreadable.2 (by omega)
      rw [dumps, List.cons_append, List.append_assoc, readValue,
        skipWhitespace_append hdumps hspace]
      split
      · rename_i heq
        rw [hdumps, List.cons_append] at heq
        exact absurd (List.cons.inj heq).1 hbracket
      · rw [hfirst]
        simp only
        rw [skipWhitespace_append hitems hspace', hmore]
        rfl
  | .obj [], fuel + 1, rest, _, _, _ => by
      rw [dumps, List.cons_append, readValue, List.cons_append,
        skipWhitespace_cons (by decide), List.nil_append]
      rfl
  | .obj ((key, j) :: fields), fuel + 1, rest, hreadable, _, hsteps => by
      rw [readable, readableFields, Bool.and_eq_true] at hreadable
      rw [readingSteps] at hsteps
      obtain ⟨c', text', hfields, hspace', hatom'⟩ := exists_dumpsFields fields
      have hfirst := readField_dumps key j fuel (dumpsFields fields ++ rest) hreadable.1
        (atomEnds_append hfields hatom') (by omega)
      have hmore := readFields_dumpsFields fields fuel rest hreadable.2 (by omega)
      have htext : '\x7b' :: (quote key ++ ':' :: ' ' :: (dumps j ++ dumpsFields fields)) ++ rest =
          '\x7b' :: (quote key ++ ':' :: ' ' :: (dumps j ++ (dumpsFields fields ++ rest))) := by
        simp
      have hquote : quote key = '"' :: (key.toList.flatMap escapeChar ++ ['"']) := rfl
      rw [dumps, htext, readValue, skipWhitespace_append hquote (by decide)]
      split
      · rename_i heq
        rw [hquote, List.cons_append] at heq
        cases (List.cons.inj heq).1
      · rw [hfirst]
        simp only
        rw [skipWhitespace_append hfields hspace', hmore]
        rfl

theorem readField_dumps : ∀ (key : String) (j : Json) (fuel : ℕ) (rest : List Char),
    readable j = true → AtomEnds rest → readingSteps j + 1 ≤ fuel →
    readField fuel (quote key ++ ':' :: ' ' :: (dumps j ++ rest)) = some ((key, j), rest)
  | _, _, 0, _, _, _, hsteps => absurd hsteps (by omega)
  | key, j, fuel + 1, rest, hreadable, hrest, hsteps => by
      obtain ⟨c, text, hdumps, hspace, _⟩ := exists_dumps hreadable
      have hkey := readString_quoted key.toList (':' :: ' ' :: (dumps j ++ rest))
      have hvalue := readValue_dumps j fuel rest hreadable hrest (by omega)
      rw [quote, List.cons_append, List.append_assoc, List.singleton_append, readField, hkey]
      simp only
      rw [skipWhitespace_cons (by decide)]
      simp only
      rw [skipWhitespace_space, skipWhitespace_append hdumps hspace, hvalue, Option.map_some,
        String.ofList_toList]

theorem readItems_dumpsItems : ∀ (items : List Json) (fuel : ℕ) (rest : List Char),
    readableItems items = true → readingStepsItems items ≤ fuel →
    readItems fuel (dumpsItems items ++ rest) = some (items, rest)
  | items, 0, _, _, hsteps => by
      cases items <;> rw [readingStepsItems] at hsteps <;> omega
  | [], fuel + 1, rest, _, _ => by
      rw [dumpsItems, List.singleton_append, readItems]
  | j :: items, fuel + 1, rest, hreadable, hsteps => by
      rw [readableItems, Bool.and_eq_true] at hreadable
      rw [readingStepsItems] at hsteps
      obtain ⟨c, text, hdumps, hspace, _⟩ := exists_dumps hreadable.1
      obtain ⟨c', text', hitems, hspace', hatom'⟩ := exists_dumpsItems items
      have hfirst := readValue_dumps j fuel (dumpsItems items ++ rest) hreadable.1
        (atomEnds_append hitems hatom') (by omega)
      have hmore := readItems_dumpsItems items fuel rest hreadable.2 (by omega)
      rw [dumpsItems, List.cons_append, List.cons_append, List.append_assoc, readItems,
        skipWhitespace_space, skipWhitespace_append hdumps hspace, hfirst]
      simp only
      rw [skipWhitespace_append hitems hspace', hmore]
      rfl

theorem readFields_dumpsFields : ∀ (fields : List (String × Json)) (fuel : ℕ)
    (rest : List Char), readableFields fields = true → readingStepsFields fields ≤ fuel →
    readFields fuel (dumpsFields fields ++ rest) = some (fields, rest)
  | fields, 0, _, _, hsteps => by
      rcases fields with _ | ⟨⟨key, j⟩, fields⟩ <;> rw [readingStepsFields] at hsteps <;> omega
  | [], fuel + 1, rest, _, _ => by
      rw [dumpsFields, List.singleton_append, readFields]
  | (key, j) :: fields, fuel + 1, rest, hreadable, hsteps => by
      rw [readableFields, Bool.and_eq_true] at hreadable
      rw [readingStepsFields] at hsteps
      obtain ⟨c', text', hfields, hspace', hatom'⟩ := exists_dumpsFields fields
      have hfirst := readField_dumps key j fuel (dumpsFields fields ++ rest) hreadable.1
        (atomEnds_append hfields hatom') (by omega)
      have hmore := readFields_dumpsFields fields fuel rest hreadable.2 (by omega)
      have htext : dumpsFields ((key, j) :: fields) ++ rest =
          ',' :: ' ' :: (quote key ++ ':' :: ' ' :: (dumps j ++ (dumpsFields fields ++ rest))) := by
        simp [dumpsFields]
      have hquote : quote key = '"' :: (key.toList.flatMap escapeChar ++ ['"']) := rfl
      rw [htext, readFields, skipWhitespace_space, skipWhitespace_append hquote (by decide),
        hfirst]
      simp only
      rw [skipWhitespace_append hfields hspace', hmore]
      rfl

end

mutual

theorem readingSteps_le : ∀ j : Json, readable j = true → readingSteps j ≤ 2 * (dumps j).length
  | .null, _ => by simp [readingSteps, dumps]
  | .bool true, _ => by simp [readingSteps, dumps]
  | .bool false, _ => by simp [readingSteps, dumps]
  | .num n, _ => by
      obtain ⟨c, rest, heq, _⟩ := exists_decimal n
      rw [readingSteps, dumps, heq, List.length_cons]
      omega
      all_goals nofun
  | .real repr, hreadable => by
      obtain ⟨c, text, heq, _⟩ := exists_dumps hreadable
      rw [readingSteps, heq, List.length_cons]
      omega
      all_goals nofun
  | .str s, _ => by
      simp only [readingSteps, dumps, quote, List.length_cons]
      omega
  | .arr [], _ => by simp [readingSteps, dumps]
  | .arr (j :: items), hreadable => by
      rw [readable, readableItems, Bool.and_eq_true] at hreadable
      have hfirst := readingSteps_le j hreadable.1
      have hmore := readingStepsItems_le items hreadable.2
      rw [readingSteps, dumps, List.length_cons, List.length_append]
      omega
  | .obj [], _ => by simp [readingSteps, dumps]
  | .obj ((key, j) :: fields), hreadable => by
      rw [readable, readableFields, Bool.and_eq_true] at hreadable
      have hfirst := readingSteps_le j hreadable.1
      have hmore := readingStepsFields_le fields hreadable.2
      simp only [readingSteps, dumps, quote, List.length_cons, List.length_append]
      omega

theorem readingStepsItems_le : ∀ items : List Json, readableItems items = true →
    readingStepsItems items ≤ 2 * (dumpsItems items).length
  | [], _ => by simp [readingStepsItems, dumpsItems]
  | j :: items, hreadable => by
      rw [readableItems, Bool.and_eq_true] at hreadable
      have hfirst := readingSteps_le j hreadable.1
      have hmore := readingStepsItems_le items hreadable.2
      simp only [readingStepsItems, dumpsItems, List.length_cons, List.length_append]
      omega

theorem readingStepsFields_le : ∀ fields : List (String × Json), readableFields fields = true →
    readingStepsFields fields ≤ 2 * (dumpsFields fields).length
  | [], _ => by simp [readingStepsFields, dumpsFields]
  | (key, j) :: fields, hreadable => by
      rw [readableFields, Bool.and_eq_true] at hreadable
      have hfirst := readingSteps_le j hreadable.1
      have hmore := readingStepsFields_le fields hreadable.2
      simp only [readingStepsFields, dumpsFields, quote, List.length_cons, List.length_append]
      omega

end

/-- What is written is read back. -/
theorem loads_dumps {j : Json} (h : readable j = true) : loads (dumps j) = some j := by
  obtain ⟨c, text, hdumps, hspace, _⟩ := exists_dumps h
  have hsteps := readingSteps_le j h
  have hread := readValue_dumps j (2 * (dumps j).length + 2) [] h nofun (by omega)
  have hstart : skipWhitespace (dumps j) = dumps j := by
    rw [hdumps]
    exact skipWhitespace_cons hspace text
  rw [List.append_nil] at hread
  rw [loads, hstart, hread]
  rfl

/-! ## Doubles -/

theorem jsNumber_eq_self_iff (n : ℤ) : jsNumber n = .num n ↔ Binary64.IsDouble n.natAbs := by
  rw [Binary64.isDouble_iff]
  unfold jsNumber
  constructor
  · intro h
    split at h
    · rename_i hlt
      have hn : n.sign * (Binary64.round n.natAbs : ℤ) = n := by injection h
      by_cases hzero : n = 0
      · rw [hzero] at hlt ⊢
        exact ⟨rfl, hlt⟩
      · have habs := congrArg Int.natAbs hn
        rw [Int.natAbs_mul, Int.natAbs_sign_of_ne_zero hzero, Nat.one_mul,
          Int.natAbs_natCast] at habs
        exact ⟨habs, by rwa [habs] at hlt⟩
    · cases h
  · rintro ⟨hround, hlt⟩
    rw [hround, if_pos hlt, Int.sign_mul_natAbs]

example : jsNumber 9007199254740993 = .num 9007199254740992 := by decide +kernel

mutual

/-- JavaScript keeps the values whose whole numbers are doubles. -/
theorem asDoubles_eq_self_iff : ∀ j : Json,
    asDoubles j = j ↔ ∀ n ∈ wholeNumbers j, Binary64.IsDouble n.natAbs
  | .null => by simp [asDoubles, wholeNumbers]
  | .bool _ => by simp [asDoubles, wholeNumbers]
  | .num n => by
      rw [asDoubles, jsNumber_eq_self_iff, wholeNumbers]
      simp
  | .real _ => by simp [asDoubles, wholeNumbers]
  | .str _ => by simp [asDoubles, wholeNumbers]
  | .arr items => by
      rw [asDoubles, wholeNumbers, Json.arr.injEq]
      exact asDoublesItems_eq_self_iff items
  | .obj fields => by
      rw [asDoubles, wholeNumbers, Json.obj.injEq]
      exact asDoublesFields_eq_self_iff fields

theorem asDoublesItems_eq_self_iff : ∀ items : List Json,
    asDoublesItems items = items ↔ ∀ n ∈ wholeNumbersItems items, Binary64.IsDouble n.natAbs
  | [] => by simp [asDoublesItems, wholeNumbersItems]
  | j :: items => by
      rw [asDoublesItems, wholeNumbersItems, List.cons.injEq, asDoubles_eq_self_iff j,
        asDoublesItems_eq_self_iff items, List.forall_mem_append]

theorem asDoublesFields_eq_self_iff : ∀ fields : List (String × Json),
    asDoublesFields fields = fields ↔
      ∀ n ∈ wholeNumbersFields fields, Binary64.IsDouble n.natAbs
  | [] => by simp [asDoublesFields, wholeNumbersFields]
  | (key, j) :: fields => by
      rw [asDoublesFields, wholeNumbersFields, List.cons.injEq, Prod.mk.injEq,
        asDoubles_eq_self_iff j, asDoublesFields_eq_self_iff fields, List.forall_mem_append]
      simp only [true_and]

end

/-- What is written reaches JavaScript with its whole numbers as doubles. -/
theorem jsonParse_dumps {j : Json} (h : readable j = true) :
    jsonParse (dumps j) = some (asDoubles j) := by
  rw [jsonParse, loads_dumps h, Option.map_some]

/-! ## Cut texts -/

/-- Where a text stands: outside strings, inside one, or after a backslash. -/
inductive Quoting where
  | outside
  | inside
  | escaped
  deriving DecidableEq

/-- One character on. A control character ends a string's text, and only
strings hold characters outside ASCII. -/
def Quoting.step : Quoting → Char → Option Quoting
  | .outside, c => if c = '"' then some .inside else if c.toNat < 0x80 then some .outside else none
  | .inside, c =>
    if c = '"' then some .outside
    else if c = '\\' then some .escaped
    else if c.toNat < 0x20 then none
    else some .inside
  | .escaped, c => if c.toNat < 0x80 then some .inside else none

def Quoting.scan (q : Quoting) (text : List Char) : Option Quoting := text.foldlM Quoting.step q

theorem scan_cons (q : Quoting) (c : Char) (text : List Char) :
    q.scan (c :: text) = (q.step c).bind fun q ↦ q.scan text :=
  List.foldlM_cons ..

theorem scan_step {q q' : Quoting} {c : Char} (h : q.step c = some q') (text : List Char) :
    q.scan (c :: text) = q'.scan text := by
  rw [scan_cons, h, Option.bind_some]

theorem scan_append (q : Quoting) (text more : List Char) :
    q.scan (text ++ more) = (q.scan text).bind fun q ↦ q.scan more :=
  List.foldlM_append ..

/-- Characters that leave a text outside strings. -/
def isPlain (c : Char) : Bool := c ≠ '"' ∧ c.toNat < 0x80

theorem scan_plain {text : List Char} (h : text.all isPlain = true) (rest : List Char) :
    Quoting.outside.scan (text ++ rest) = Quoting.outside.scan rest := by
  induction text with
  | nil => rfl
  | cons c text ih =>
      rw [List.all_cons, Bool.and_eq_true] at h
      have hc : c ≠ '"' ∧ c.toNat < 0x80 := by simpa [isPlain] using h.1
      rw [List.cons_append, scan_cons, Quoting.step, if_neg hc.1, if_pos hc.2, Option.bind_some,
        ih h.2]

theorem plain_of_atomChar {c : Char} (h : isAtomChar c = true) : isPlain c = true := by
  have hquote : c ≠ '"' := by
    rintro rfl
    cases h
  have hascii : c.toNat < 0x80 := by
    simp only [isAtomChar, Bool.or_eq_true, decide_eq_true_eq, Char.isAlphanum, Char.isAlpha,
      Char.isUpper, Char.isLower, Char.isDigit, Bool.and_eq_true] at h
    rcases h with ((h | rfl) | rfl) | rfl
    · simp only [UInt32.le_iff_toNat_le] at h
      have hval : c.val.toNat = c.toNat := rfl
      rw [hval] at h
      simp at h
      omega
    all_goals decide
  simp [isPlain, hquote, hascii]

theorem plain_of_whitespace {c : Char} (h : isWhitespace c = true) : isPlain c = true := by
  simp only [isWhitespace, Bool.or_eq_true, decide_eq_true_eq] at h
  rcases h with ((rfl | rfl) | rfl) | rfl <;> decide

theorem scan_skipWhitespace (text : List Char) :
    Quoting.outside.scan (skipWhitespace text) = Quoting.outside.scan text := by
  have hall : (text.takeWhile isWhitespace).all isPlain = true := by
    rw [List.all_eq_true]
    intro c hc
    exact plain_of_whitespace (List.mem_takeWhile_imp hc)
  have hsplit := scan_plain hall (text.dropWhile isWhitespace)
  rw [List.takeWhile_append_dropWhile] at hsplit
  rw [skipWhitespace, hsplit]

/-- Escapes keep a text inside its string. -/
theorem scan_escapeChar (c : Char) (text : List Char) :
    Quoting.inside.scan (escapeChar c ++ text) = Quoting.inside.scan text := by
  have hdigit : ∀ d < 16, (Nat.digitChar d).toNat < 0x80 ∧ 0x20 ≤ (Nat.digitChar d).toNat ∧
      Nat.digitChar d ≠ '"' ∧ Nat.digitChar d ≠ '\\' := by decide
  have htwo : ∀ e : Char, e.toNat < 0x80 →
      Quoting.inside.scan ('\\' :: e :: text) = Quoting.inside.scan text := by
    intro e he
    have hescaped : Quoting.inside.step '\\' = some .escaped := rfl
    have hinside : Quoting.escaped.step e = some .inside := by rw [Quoting.step, if_pos he]
    rw [scan_step hescaped, scan_step hinside]
  unfold escapeChar
  split
  · exact htwo _ (by decide)
  split
  · exact htwo _ (by decide)
  split
  · exact htwo _ (by decide)
  split
  · exact htwo _ (by decide)
  split
  · exact htwo _ (by decide)
  split
  · exact htwo _ (by decide)
  split
  · exact htwo _ (by decide)
  split
  · rename_i h
    obtain ⟨_, hhigh, hhigh', hhigh''⟩ := hdigit (c.toNat / 16) (by omega)
    obtain ⟨_, hlow, hlow', hlow''⟩ := hdigit (c.toNat % 16) (by omega)
    have hplain : ∀ d text, 0x20 ≤ Char.toNat d → d ≠ '"' → d ≠ '\\' →
        Quoting.inside.scan (d :: text) = Quoting.inside.scan text := by
      intro d text hd hquote hslash
      apply scan_step
      rw [Quoting.step, if_neg hquote, if_neg hslash, if_neg (by omega)]
    have hescaped : Quoting.inside.step '\\' = some .escaped := rfl
    have hinside : Quoting.escaped.step 'u' = some .inside := rfl
    simp only [List.cons_append, List.nil_append]
    rw [scan_step hescaped, scan_step hinside,
      hplain '0' _ (by decide) (by decide) (by decide),
      hplain '0' _ (by decide) (by decide) (by decide), hplain _ _ hhigh hhigh' hhigh'',
      hplain _ _ hlow hlow' hlow'']
  · rename_i hquote hslash _ _ _ _ _ hcontrol
    rw [List.singleton_append]
    apply scan_step
    rw [Quoting.step, if_neg hquote, if_neg hslash, if_neg hcontrol]

theorem scan_quote (s : String) (rest : List Char) :
    Quoting.outside.scan (quote s ++ rest) = Quoting.outside.scan rest := by
  have hchars : ∀ chars : List Char, Quoting.inside.scan (chars.flatMap escapeChar ++ '"' :: rest) =
      Quoting.outside.scan rest := by
    intro chars
    induction chars with
    | nil =>
        rw [List.flatMap_nil, List.nil_append]
        exact scan_step rfl rest
    | cons c chars ih => rw [List.flatMap_cons, List.append_assoc, scan_escapeChar, ih]
  have hopen : Quoting.outside.step '"' = some .inside := rfl
  rw [quote, List.cons_append, List.append_assoc, List.singleton_append, scan_step hopen, hchars]

theorem scan_plain_cons {c : Char} (h : isPlain c = true) (text : List Char) :
    Quoting.outside.scan (c :: text) = Quoting.outside.scan text := by
  have hall : [c].all isPlain = true := by rw [List.all_cons, h, List.all_nil, Bool.and_true]
  exact scan_plain hall text

theorem scan_token {token : List Char} (h : token.all isAtomChar = true) (rest : List Char) :
    Quoting.outside.scan (token ++ rest) = Quoting.outside.scan rest := by
  apply scan_plain
  rw [List.all_eq_true] at h ⊢
  intro c hc
  exact plain_of_atomChar (h c hc)

mutual

/-- A written value closes the strings it opens. -/
theorem scan_dumps : ∀ (j : Json) (rest : List Char), readable j = true →
    Quoting.outside.scan (dumps j ++ rest) = Quoting.outside.scan rest
  | .null, rest, _ => scan_token (by decide) rest
  | .bool true, rest, _ => scan_token (by decide) rest
  | .bool false, rest, _ => scan_token (by decide) rest
  | .num n, rest, _ => scan_token (decimal_chars n) rest
  | .real repr, rest, hreadable => scan_token (readable_real hreadable).2 rest
  | .str s, rest, _ => scan_quote s rest
  | .arr [], rest, _ => scan_plain (by decide) rest
  | .arr (j :: items), rest, hreadable => by
      rw [readable, readableItems, Bool.and_eq_true] at hreadable
      rw [dumps, List.cons_append, List.append_assoc, scan_plain_cons (by decide),
        scan_dumps j _ hreadable.1, scan_dumpsItems items _ hreadable.2]
  | .obj [], rest, _ => scan_plain (by decide) rest
  | .obj ((key, j) :: fields), rest, hreadable => by
      rw [readable, readableFields, Bool.and_eq_true] at hreadable
      rw [dumps, List.cons_append, List.append_assoc, List.cons_append, List.cons_append,
        List.append_assoc, scan_plain_cons (by decide), scan_quote, scan_plain_cons (by decide),
        scan_plain_cons (by decide), scan_dumps j _ hreadable.1,
        scan_dumpsFields fields _ hreadable.2]

theorem scan_dumpsItems : ∀ (items : List Json) (rest : List Char), readableItems items = true →
    Quoting.outside.scan (dumpsItems items ++ rest) = Quoting.outside.scan rest
  | [], rest, _ => scan_plain_cons (by decide) rest
  | j :: items, rest, hreadable => by
      rw [readableItems, Bool.and_eq_true] at hreadable
      rw [dumpsItems, List.cons_append, List.cons_append, List.append_assoc,
        scan_plain_cons (by decide), scan_plain_cons (by decide), scan_dumps j _ hreadable.1,
        scan_dumpsItems items _ hreadable.2]

theorem scan_dumpsFields : ∀ (fields : List (String × Json)) (rest : List Char),
    readableFields fields = true →
    Quoting.outside.scan (dumpsFields fields ++ rest) = Quoting.outside.scan rest
  | [], rest, _ => scan_plain_cons (by decide) rest
  | (key, j) :: fields, rest, hreadable => by
      rw [readableFields, Bool.and_eq_true] at hreadable
      rw [dumpsFields, List.cons_append, List.cons_append, List.append_assoc, List.cons_append,
        List.cons_append, List.append_assoc, scan_plain_cons (by decide),
        scan_plain_cons (by decide), scan_quote, scan_plain_cons (by decide),
        scan_plain_cons (by decide), scan_dumps j _ hreadable.1,
        scan_dumpsFields fields _ hreadable.2]

end

/-- A string that is read closes. -/
theorem scan_readString {text chars rest : List Char} (h : readString text = some (chars, rest)) :
    Quoting.inside.scan text = Quoting.outside.scan rest := by
  have hhex : ∀ c, (hexValue c).isSome = true → c.toNat < 0x80 ∧ 0x20 ≤ c.toNat ∧ c ≠ '"' ∧
      c ≠ '\\' := by
    intro c hc
    have hrange : c.isDigit = true ∨ ('a' ≤ c ∧ c ≤ 'f') ∨ ('A' ≤ c ∧ c ≤ 'F') := by
      by_contra hnot
      simp only [not_or] at hnot
      rw [hexValue, if_neg hnot.1, if_neg hnot.2.1, if_neg hnot.2.2] at hc
      cases hc
    have hval : c.val.toNat = c.toNat := rfl
    have hbounds : 0x30 ≤ c.toNat ∧ c.toNat ≤ 0x66 ∧ c.toNat ≠ 0x5C := by
      simp only [Char.isDigit, Bool.and_eq_true, decide_eq_true_eq, Char.le_def,
        UInt32.le_iff_toNat_le, hval] at hrange
      simp at hrange
      omega
    refine ⟨by omega, by omega, ?_, ?_⟩
    · rintro rfl
      exact absurd hbounds.1 (by decide)
    · rintro rfl
      exact hbounds.2.2 rfl
  fun_induction readString text generalizing chars with
  | case1 => cases h
  | case2 text =>
      cases h
      exact scan_step rfl rest
  | case3 a b c d text hnone => cases h
  | case4 a b c d text ch hsome ih =>
      obtain ⟨r, hr, heq⟩ := Option.map_eq_some_iff.mp h
      obtain ⟨rfl, rfl⟩ := Prod.mk.inj heq
      have hall : (hexValue a).isSome ∧ (hexValue b).isSome ∧ (hexValue c).isSome ∧
          (hexValue d).isSome := by
        simp only [unescapeHex, Option.bind_eq_bind, Option.bind_eq_some_iff] at hsome
        obtain ⟨_, ha, _, hb, _, hc, _, hd, _⟩ := hsome
        simp [ha, hb, hc, hd]
      have hplain : ∀ c text, (hexValue c).isSome = true →
          Quoting.inside.scan (c :: text) = Quoting.inside.scan text := by
        intro c text hc
        obtain ⟨_, hcontrol, hquote, hslash⟩ := hhex c hc
        apply scan_step
        rw [Quoting.step, if_neg hquote, if_neg hslash, if_neg (by omega)]
      have hescaped : Quoting.inside.step '\\' = some .escaped := rfl
      have hinside : Quoting.escaped.step 'u' = some .inside := rfl
      rw [scan_step hescaped, scan_step hinside, hplain a _ hall.1, hplain b _ hall.2.1,
        hplain c _ hall.2.2.1, hplain d _ hall.2.2.2]
      exact ih hr
  | case5 e text hne hnone => cases h
  | case6 e text hne ch hsome ih =>
      obtain ⟨r, hr, heq⟩ := Option.map_eq_some_iff.mp h
      obtain ⟨rfl, rfl⟩ := Prod.mk.inj heq
      have hascii : e.toNat < 0x80 := by
        unfold unescape at hsome
        split at hsome
        · rename_i he
          rcases he with rfl | rfl | rfl <;> decide
        split at hsome
        · rename_i he
          rw [he]
          decide
        split at hsome
        · rename_i he
          rw [he]
          decide
        split at hsome
        · rename_i he
          rw [he]
          decide
        split at hsome
        · rename_i he
          rw [he]
          decide
        split at hsome
        · rename_i he
          rw [he]
          decide
        · cases hsome
      have hescaped : Quoting.inside.step '\\' = some .escaped := rfl
      have hinside : Quoting.escaped.step e = some .inside := by rw [Quoting.step, if_pos hascii]
      rw [scan_step hescaped, scan_step hinside]
      exact ih hr
  | case7 c text _ _ hcontrol => cases h
  | case8 c text hquote _ _ hcontrol ih =>
      obtain ⟨r, hr, heq⟩ := Option.map_eq_some_iff.mp h
      obtain ⟨rfl, rfl⟩ := Prod.mk.inj heq
      have hinside : Quoting.inside.step c = some .inside := by
        rw [Quoting.step, if_neg hquote, if_neg (fun hc ↦ hcontrol (.inl hc)),
          if_neg (fun hc ↦ hcontrol (.inr hc))]
      rw [scan_step hinside]
      exact ih hr

theorem scan_readAtom {text rest : List Char} {j : Json} (h : readAtom text = some (j, rest)) :
    Quoting.outside.scan text = Quoting.outside.scan rest := by
  obtain ⟨_, _, heq⟩ := Option.map_eq_some_iff.mp h
  obtain ⟨_, rfl⟩ := Prod.mk.inj heq
  have hall : (text.takeWhile isAtomChar).all isAtomChar = true := by
    rw [List.all_eq_true]
    intro c hc
    exact List.mem_takeWhile_imp hc
  have hsplit := scan_token hall (text.dropWhile isAtomChar)
  rw [List.takeWhile_append_dropWhile] at hsplit
  exact hsplit

/-- What is skipped and read of a text leaves it outside strings. -/
theorem scan_skip {text text' rest : List Char} (h : skipWhitespace text = text')
    (hrest : Quoting.outside.scan text' = Quoting.outside.scan rest) :
    Quoting.outside.scan text = Quoting.outside.scan rest := by
  rw [← scan_skipWhitespace, h, hrest]

/-- A text that is read closes the strings it opens: at every amount of fuel,
for values, fields and what follows them. -/
theorem scan_read (fuel : ℕ) :
    (∀ text j rest, readValue fuel text = some (j, rest) →
        Quoting.outside.scan text = Quoting.outside.scan rest) ∧
      (∀ text items rest, readItems fuel text = some (items, rest) →
        Quoting.outside.scan text = Quoting.outside.scan rest) ∧
      (∀ text field rest, readField fuel text = some (field, rest) →
        Quoting.outside.scan text = Quoting.outside.scan rest) ∧
      (∀ text fields rest, readFields fuel text = some (fields, rest) →
        Quoting.outside.scan text = Quoting.outside.scan rest) := by
  induction fuel with
  | zero =>
      refine ⟨?_, ?_, ?_, ?_⟩
      · intro text j rest h
        rw [readValue] at h
        cases h
      · intro text items rest h
        rw [readItems] at h
        · cases h
        all_goals nofun
      · intro text field rest h
        rw [readField] at h
        · cases h
        all_goals nofun
      · intro text fields rest h
        rw [readFields] at h
        · cases h
        all_goals nofun
  | succ fuel ih =>
      obtain ⟨hvalue, hitems, hfield, hfields⟩ := ih
      have hopen : Quoting.outside.step '"' = some .inside := rfl
      refine ⟨?_, ?_, ?_, ?_⟩
      · intro text j rest h
        unfold readValue at h
        split at h
        · cases h
        · -- a string
          rename_i heq
          cases heq
          obtain ⟨r, hr, heq⟩ := Option.map_eq_some_iff.mp h
          obtain ⟨_, rfl⟩ := Prod.mk.inj heq
          rw [scan_step hopen]
          exact scan_readString hr
        · -- an array
          rename_i heq
          cases heq
          rw [scan_plain_cons (by decide)]
          split at h
          · rename_i hskip
            cases h
            exact scan_skip hskip (scan_plain_cons (by decide) _)
          · cases hfirst : readValue fuel (skipWhitespace _) with
            | none =>
                rw [hfirst] at h
                cases h
            | some first =>
                rw [hfirst] at h
                obtain ⟨r, hr, heq⟩ := Option.map_eq_some_iff.mp h
                obtain ⟨_, rfl⟩ := Prod.mk.inj heq
                rw [← scan_skipWhitespace, hvalue _ _ _ hfirst, ← scan_skipWhitespace,
                  hitems _ _ _ hr]
        · -- an object
          rename_i heq
          cases heq
          rw [scan_plain_cons (by decide)]
          split at h
          · rename_i hskip
            cases h
            exact scan_skip hskip (scan_plain_cons (by decide) _)
          · cases hfirst : readField fuel (skipWhitespace _) with
            | none =>
                rw [hfirst] at h
                cases h
            | some first =>
                rw [hfirst] at h
                obtain ⟨r, hr, heq⟩ := Option.map_eq_some_iff.mp h
                obtain ⟨_, rfl⟩ := Prod.mk.inj heq
                rw [← scan_skipWhitespace, hfield _ _ _ hfirst, ← scan_skipWhitespace,
                  hfields _ _ _ hr]
        · exact scan_readAtom h
      · intro text items rest h
        unfold readItems at h
        split at h
        · rename_i hfuel
          cases hfuel
          rw [scan_plain_cons (by decide)]
          cases hfirst : readValue fuel (skipWhitespace _) with
          | none =>
              rw [hfirst] at h
              cases h
          | some first =>
              rw [hfirst] at h
              obtain ⟨r, hr, heq⟩ := Option.map_eq_some_iff.mp h
              obtain ⟨_, rfl⟩ := Prod.mk.inj heq
              rw [← scan_skipWhitespace, hvalue _ _ _ hfirst, ← scan_skipWhitespace,
                hitems _ _ _ hr]
        · cases h
          exact scan_plain_cons (by decide) _
        · cases h
      · intro text field rest h
        unfold readField at h
        split at h
        · rename_i hfuel
          cases hfuel
          rw [scan_step hopen]
          cases hkey : readString _ with
          | none =>
              rw [hkey] at h
              cases h
          | some key =>
              rw [hkey] at h
              simp only at h
              split at h
              · rename_i hskip
                obtain ⟨r, hr, heq⟩ := Option.map_eq_some_iff.mp h
                obtain ⟨_, rfl⟩ := Prod.mk.inj heq
                rw [scan_readString hkey]
                apply scan_skip hskip
                rw [scan_plain_cons (by decide), ← scan_skipWhitespace, hvalue _ _ _ hr]
              · cases h
        · cases h
      · intro text fields rest h
        unfold readFields at h
        split at h
        · rename_i hfuel
          cases hfuel
          rw [scan_plain_cons (by decide)]
          cases hfirst : readField fuel (skipWhitespace _) with
          | none =>
              rw [hfirst] at h
              cases h
          | some first =>
              rw [hfirst] at h
              obtain ⟨r, hr, heq⟩ := Option.map_eq_some_iff.mp h
              obtain ⟨_, rfl⟩ := Prod.mk.inj heq
              rw [← scan_skipWhitespace, hfield _ _ _ hfirst, ← scan_skipWhitespace,
                hfields _ _ _ hr]
        · cases h
          exact scan_plain_cons (by decide) _
        · cases h

theorem scan_loads {text : List Char} {j : Json} (h : loads text = some j) :
    Quoting.outside.scan text = some .outside := by
  rw [loads] at h
  split at h
  · rename_i j' rest hread
    split at h
    · rename_i hrest
      rw [← scan_skipWhitespace, (scan_read _).1 _ _ _ hread, ← scan_skipWhitespace, hrest]
      rfl
    · cases h
  · cases h

/-- A written value that is cut off at a character outside ASCII is not read,
nor is it when what follows is on a new line. -/
theorem loads_cut {j : Json} (hreadable : readable j = true) {text after : List Char} {c : Char}
    (hdumps : dumps j = text ++ c :: after) (hc : 0x80 ≤ c.toNat) {more : List Char}
    (hmore : more = [] ∨ more.head? = some '\n') : loads (text ++ more) = none := by
  have hwhole := scan_dumps j [] hreadable
  rw [List.append_nil, hdumps, scan_append] at hwhole
  have hquote : c ≠ '"' := by
    rintro rfl
    exact absurd hc (by decide)
  cases hread : loads (text ++ more) with
  | none => rfl
  | some j' =>
      have hscan := scan_loads hread
      rw [scan_append] at hscan
      cases htext : Quoting.outside.scan text with
      | none =>
          rw [htext] at hscan
          cases hscan
      | some q =>
          rw [htext] at hscan hwhole
          rw [Option.bind_some] at hscan hwhole
          rw [scan_cons] at hwhole
          -- only inside a string can the character stand
          cases q with
          | outside =>
              rw [Quoting.step, if_neg hquote, if_neg (by omega)] at hwhole
              cases hwhole
          | escaped =>
              rw [Quoting.step, if_neg (by omega)] at hwhole
              cases hwhole
          | inside =>
              rcases hmore with rfl | hhead
              · cases hscan
              · obtain ⟨rest, rfl⟩ : ∃ rest, more = '\n' :: rest := by
                  cases more with
                  | nil => cases hhead
                  | cons d rest =>
                      rw [List.head?_cons, Option.some_inj] at hhead
                      exact ⟨rest, by rw [hhead]⟩
                rw [scan_cons] at hscan
                cases hscan

end ShejaneRuntime.Stream
