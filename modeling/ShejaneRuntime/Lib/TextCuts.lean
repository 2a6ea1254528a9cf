import ShejaneRuntime.Lib.CodePoints

/-!
# Cutting encoded text

The first and the last bytes of an encoded text, decoded with replacement
characters: a character that is cut leaves one replacement for its beginning and
one for every byte of its end.
-/

namespace ShejaneRuntime.Lib

namespace Utf8

/-! ## Parts of a character -/

/-- Between characters, or in the middle of one. -/
def Decoder.Open (d : Decoder) : Prop := d = .idle false ∨ 0 < d.needed ∧ 0x80 ≤ d.lower

theorem flush_idle : (Decoder.idle false).flush = [] := rfl

theorem open_idle : (Decoder.idle false).Open := .inl rfl

/-- An ASCII byte ends a character that is not complete. -/
theorem Decoder.Open.run_ascii {d : Decoder} (h : d.Open) {byte : ℕ} (hbyte : byte < 0x80)
    (bytes : List ℕ) : d.run (byte :: bytes) =
      (((Decoder.idle false).run (byte :: bytes)).1,
        d.flush ++ ((Decoder.idle false).run (byte :: bytes)).2) := by
  rcases h with rfl | ⟨hneeded, hlower⟩
  · rfl
  · have hflush : d.flush = [Decoder.replacement] := by
      rw [Decoder.flush, if_neg (by omega)]
    have hstep : d.step byte = (((Decoder.idle false).first byte).1,
        Decoder.replacement :: ((Decoder.idle false).first byte).2) := by
      rw [Decoder.step, if_neg (by omega), if_pos (by omega)]
    rw [hflush, Decoder.run, hstep, Decoder.run, step_idle]
    rfl

/-- A byte from the middle of a character is no character. -/
theorem run_continuation {byte : ℕ} (hlow : 0x80 ≤ byte) (hhigh : byte ≤ 0xBF) (bytes : List ℕ) :
    (Decoder.idle false).run (byte :: bytes) = (((Decoder.idle false).run bytes).1,
      Decoder.replacement :: ((Decoder.idle false).run bytes).2) := by
  have hstep : (Decoder.idle false).step byte = (.idle false, [Decoder.replacement]) := by
    rw [step_idle, Decoder.first, if_neg (by omega), if_neg (by omega), if_neg (by omega),
      if_neg (by omega)]
    rfl
  rw [Decoder.run, hstep]
  rfl

theorem run_continuations {bytes : List ℕ} (h : ∀ byte ∈ bytes, 0x80 ≤ byte ∧ byte ≤ 0xBF) :
    (Decoder.idle false).run bytes =
      (.idle false, List.replicate bytes.length Decoder.replacement) := by
  induction bytes with
  | nil => rfl
  | cons byte bytes ih =>
      obtain ⟨hlow, hhigh⟩ := h byte List.mem_cons_self
      rw [run_continuation hlow hhigh, ih fun b hb ↦ h b (List.mem_cons_of_mem byte hb)]
      rfl

/-- All bytes of a character but the first one come from its middle. -/
theorem mem_drop_encodePoint {n k byte : ℕ} (hk : 0 < k)
    (h : byte ∈ (encodePoint n).drop k) : 0x80 ≤ byte ∧ byte ≤ 0xBF := by
  have htail : byte ∈ (encodePoint n).drop 1 := by
    obtain ⟨k, rfl⟩ : ∃ m, k = m + 1 := ⟨k - 1, by omega⟩
    rw [Nat.add_comm k 1, ← List.drop_drop] at h
    exact List.mem_of_mem_drop h
  unfold encodePoint at htail
  split at htail
  · simp at htail
  · split at htail
    · simp at htail
      omega
    · split at htail
      · simp at htail
        omega
      · simp at htail
        omega

/-- The beginning of a character leaves the decoder in the middle of it. -/
theorem run_take_encodeChar {c : Char} {k : ℕ} (hpos : 0 < k) (hlt : k < width c.toNat) :
    ∃ d, (Decoder.idle false).run ((encodeChar c).take k) = (d, []) ∧ 0 < d.needed ∧
      0x80 ≤ d.lower := by
  have hvalid := toNat_valid c
  unfold width at hlt
  unfold encodeChar
  simp only
  split
  · rename_i hone
    rw [if_pos hone] at hlt
    omega
  · rename_i hone
    rw [if_neg hone] at hlt
    split
    · rename_i htwo
      rw [if_pos htwo] at hlt
      obtain rfl : k = 1 := by omega
      have hfirst := @step_first_two false (c.toNat / 64) (by omega) (by omega)
      have hneeded : 0 < (⟨false, c.toNat / 64, 1, 0x80, 0xBF⟩ : Decoder).needed := Nat.one_pos
      refine ⟨_, ?_, hneeded, Nat.le_refl 0x80⟩
      simp only [List.take_succ_cons, List.take_zero, Decoder.run, hfirst, List.append_nil]
    · rename_i htwo
      rw [if_neg htwo] at hlt
      split
      · rename_i hthree
        rw [if_pos hthree] at hlt
        have hlower : (if c.toNat / 4096 = 0 then 0xA0 else 0x80) ≤ 0x80 + c.toNat / 64 % 64 := by
          split <;> omega
        have hupper : 0x80 + c.toNat / 64 % 64 ≤ (if c.toNat / 4096 = 13 then 0x9F else 0xBF) := by
          split <;> omega
        have hfirst := @step_first_three false (c.toNat / 4096) (by omega)
        have hmore := @step_more false (c.toNat / 4096) _ _ (c.toNat / 64 % 64) 0 hlower hupper
        obtain rfl | rfl : k = 1 ∨ k = 2 := by omega
        · refine ⟨⟨false, c.toNat / 4096, 2, if c.toNat / 4096 = 0 then 0xA0 else 0x80,
            if c.toNat / 4096 = 13 then 0x9F else 0xBF⟩, ?_, Nat.two_pos, ?_⟩
          · simp only [List.take_succ_cons, List.take_zero, Decoder.run, hfirst, List.append_nil]
          · dsimp only
            split <;> omega
        · refine ⟨⟨false, c.toNat / 4096 * 64 + c.toNat / 64 % 64, 1, 0x80, 0xBF⟩, ?_, Nat.one_pos,
            Nat.le_refl 0x80⟩
          simp only [List.take_succ_cons, List.take_zero, Decoder.run, hfirst, hmore,
            List.append_nil, Nat.zero_add]
      · rename_i hthree
        rw [if_neg hthree] at hlt
        have hlower : (if c.toNat / 262144 = 0 then 0x90 else 0x80) ≤
            0x80 + c.toNat / 4096 % 64 := by
          split <;> omega
        have hupper : 0x80 + c.toNat / 4096 % 64 ≤
            (if c.toNat / 262144 = 4 then 0x8F else 0xBF) := by
          split <;> omega
        have hfirst := @step_first_four false (c.toNat / 262144) (by omega)
        have hmore := @step_more false (c.toNat / 262144) _ _ (c.toNat / 4096 % 64) 1 hlower hupper
        have hthird := @step_more false (c.toNat / 262144 * 64 + c.toNat / 4096 % 64) 0x80 0xBF
          (c.toNat / 64 % 64) 0 (by omega) (by omega)
        obtain rfl | rfl | rfl : k = 1 ∨ k = 2 ∨ k = 3 := by omega
        · refine ⟨⟨false, c.toNat / 262144, 3, if c.toNat / 262144 = 0 then 0x90 else 0x80,
            if c.toNat / 262144 = 4 then 0x8F else 0xBF⟩, ?_, Nat.succ_pos 2, ?_⟩
          · simp only [List.take_succ_cons, List.take_zero, Decoder.run, hfirst, List.append_nil]
          · dsimp only
            split <;> omega
        · refine ⟨⟨false, c.toNat / 262144 * 64 + c.toNat / 4096 % 64, 2, 0x80, 0xBF⟩, ?_,
            Nat.two_pos, Nat.le_refl 0x80⟩
          simp only [List.take_succ_cons, List.take_zero, Decoder.run, hfirst, hmore,
            List.append_nil]
        · refine ⟨⟨false, (c.toNat / 262144 * 64 + c.toNat / 4096 % 64) * 64 + c.toNat / 64 % 64, 1,
            0x80, 0xBF⟩, ?_, Nat.one_pos, Nat.le_refl 0x80⟩
          simp only [List.take_succ_cons, List.take_zero, Decoder.run, hfirst, hmore, hthird,
            List.append_nil, Nat.zero_add]

end Utf8

/-! ## Parts of a text -/

namespace Text

def replacement : CodePoint := CodePoint.ofChar Utf8.Decoder.replacement

/-- The first bytes of a text, as they are decoded. -/
def headText : Text → ℕ → Text
  | [], _ => []
  | c :: t, n =>
    if n = 0 then []
    else if n < Utf8.width c.val then [replacement]
    else c :: headText t (n - Utf8.width c.val)

/-- A text without its first bytes, as it is decoded. -/
def tailText : Text → ℕ → Text
  | [], _ => []
  | c :: t, n =>
    if n = 0 then c :: t
    else if n < Utf8.width c.val then List.replicate (Utf8.width c.val - n) replacement ++ t
    else tailText t (n - Utf8.width c.val)

variable {t : Text}

theorem take_bytes_cons {c : CodePoint} {n : ℕ} : (bytes (c :: t)).take n =
    (Utf8.encodePoint c.val).take n ++ t.bytes.take (n - Utf8.width c.val) := by
  rw [bytes_cons, List.take_append, Utf8.length_encodePoint]

theorem drop_bytes_cons {c : CodePoint} {n : ℕ} : (bytes (c :: t)).drop n =
    (Utf8.encodePoint c.val).drop n ++ t.bytes.drop (n - Utf8.width c.val) := by
  rw [bytes_cons, List.drop_append, Utf8.length_encodePoint]

/-- The decoder reads the first bytes of a text as its beginning. -/
theorem run_take (h : t.Encodable) (n : ℕ) : ∃ d chars,
    (Utf8.Decoder.idle false).run (t.bytes.take n) = (d, chars) ∧ d.Open ∧
      (chars ++ d.flush).map CodePoint.ofChar = t.headText n := by
  obtain ⟨chars, rfl⟩ := h.exists_chars
  clear h
  induction chars generalizing n with
  | nil =>
      rw [List.map_nil, bytes_nil, List.take_nil]
      exact ⟨_, [], rfl, Utf8.open_idle, rfl⟩
  | cons c chars ih =>
      have hval : (CodePoint.ofChar c).val = c.toNat := rfl
      rw [List.map_cons, take_bytes_cons, headText, hval, ← Utf8.encodeChar_eq]
      by_cases hzero : n = 0
      · subst hzero
        rw [if_pos rfl, List.take_zero, Nat.zero_sub, List.take_zero]
        exact ⟨_, [], rfl, Utf8.open_idle, rfl⟩
      · rw [if_neg hzero]
        by_cases hcut : n < Utf8.width c.toNat
        · rw [if_pos hcut, Nat.sub_eq_zero_of_le (Nat.le_of_lt hcut), List.take_zero,
            List.append_nil]
          obtain ⟨d, hrun, hneeded, hlower⟩ :=
            Utf8.run_take_encodeChar (Nat.pos_of_ne_zero hzero) hcut
          refine ⟨d, [], hrun, .inr ⟨hneeded, hlower⟩, ?_⟩
          rw [Utf8.Decoder.flush, if_neg (by omega)]
          rfl
        · rw [if_neg hcut]
          have hwhole : (Utf8.encodeChar c).take n = Utf8.encodeChar c := by
            apply List.take_of_length_le
            rw [Utf8.encodeChar_eq, Utf8.length_encodePoint]
            omega
          obtain ⟨d, rest, hrun, hopen, htext⟩ := ih (n - Utf8.width c.toNat)
          refine ⟨d, c :: rest, ?_, hopen, ?_⟩
          · rw [hwhole, Utf8.Decoder.run_append, Utf8.run_encodeChar (.inl rfl)]
            dsimp only
            rw [hrun]
            rfl
          · rw [List.cons_append, List.map_cons, htext]

/-- The decoder reads the last bytes of a text as its end. -/
theorem run_drop (h : t.Encodable) (n : ℕ) : ∃ chars,
    (Utf8.Decoder.idle false).run (t.bytes.drop n) = (.idle false, chars) ∧
      chars.map CodePoint.ofChar = t.tailText n := by
  obtain ⟨chars, rfl⟩ := h.exists_chars
  clear h
  induction chars generalizing n with
  | nil =>
      rw [List.map_nil, bytes_nil, List.drop_nil]
      exact ⟨[], rfl, rfl⟩
  | cons c chars ih =>
      have hval : (CodePoint.ofChar c).val = c.toNat := rfl
      have hrest : (Utf8.Decoder.idle false).run (bytes (chars.map CodePoint.ofChar)) =
          (.idle false, chars) := by
        rw [bytes_map_ofChar, Utf8.run_encode (.inl rfl), ite_self]
      rw [List.map_cons, drop_bytes_cons, tailText, hval]
      by_cases hzero : n = 0
      · subst hzero
        rw [if_pos rfl, List.drop_zero, Nat.zero_sub, List.drop_zero, ← Utf8.encodeChar_eq]
        refine ⟨c :: chars, ?_, rfl⟩
        rw [Utf8.Decoder.run_append, Utf8.run_encodeChar (.inl rfl)]
        dsimp only
        rw [hrest]
        rfl
      · rw [if_neg hzero]
        by_cases hcut : n < Utf8.width c.toNat
        · rw [if_pos hcut, Nat.sub_eq_zero_of_le (Nat.le_of_lt hcut), List.drop_zero]
          have hlength : ((Utf8.encodePoint c.toNat).drop n).length = Utf8.width c.toNat - n := by
            rw [List.length_drop, Utf8.length_encodePoint]
          refine ⟨List.replicate (Utf8.width c.toNat - n) Utf8.Decoder.replacement ++ chars, ?_, ?_⟩
          · rw [Utf8.Decoder.run_append, Utf8.run_continuations fun byte hb ↦
              Utf8.mem_drop_encodePoint (Nat.pos_of_ne_zero hzero) hb]
            dsimp only
            rw [hrest, hlength]
          · rw [List.map_append, List.map_replicate]
            rfl
        · rw [if_neg hcut]
          have hgone : (Utf8.encodePoint c.toNat).drop n = [] := by
            apply List.drop_of_length_le
            rw [Utf8.length_encodePoint]
            omega
          rw [hgone, List.nil_append]
          exact ih (n - Utf8.width c.toNat)

/-- A text that is cut out of the middle of its bytes, with something ASCII in its place. -/
theorem decodeReplacing_cut (h : t.Encodable) {byte : ℕ} {s : Text} (hbyte : byte < 0x80)
    (hs : s.bytes.head? = some byte) (hencodable : s.Encodable) (m n : ℕ) :
    decodeReplacing (t.bytes.take m ++ s.bytes ++ t.bytes.drop n) =
      t.headText m ++ s ++ t.tailText n := by
  obtain ⟨d, chars, hrun, hopen, hhead⟩ := run_take h m
  obtain ⟨chars', hrun', htail⟩ := run_drop h n
  obtain ⟨middle, rfl⟩ := hencodable.exists_chars
  obtain ⟨others, hbytes⟩ : ∃ others, bytes (middle.map CodePoint.ofChar) = byte :: others := by
    cases hbytes : bytes (middle.map CodePoint.ofChar) with
    | nil =>
        rw [hbytes] at hs
        cases hs
    | cons b others =>
        rw [hbytes] at hs
        cases hs
        exact ⟨others, rfl⟩
  have hmiddle : (Utf8.Decoder.idle false).run (bytes (middle.map CodePoint.ofChar)) =
      (.idle false, middle) := by
    rw [bytes_map_ofChar, Utf8.run_encode (.inl rfl), ite_self]
  have hended : d.run (bytes (middle.map CodePoint.ofChar)) =
      (.idle false, d.flush ++ middle) := by
    rw [hbytes, hopen.run_ascii hbyte, ← hbytes, hmiddle]
  unfold decodeReplacing
  rw [Utf8.Decoder.run_append, Utf8.Decoder.run_append, hrun]
  dsimp only
  rw [hended]
  dsimp only
  rw [hrun', ← hhead, ← htail, Utf8.flush_idle]
  simp only [List.map_append, List.append_assoc, List.append_nil]

theorem decodeReplacing_bytes (h : t.Encodable) : decodeReplacing t.bytes = t := by
  obtain ⟨chars, rfl⟩ := h.exists_chars
  unfold decodeReplacing
  rw [bytes_map_ofChar, Utf8.run_encode (.inl rfl), ite_self]
  dsimp only
  rw [Utf8.flush_idle, List.append_nil]

end Text

end ShejaneRuntime.Lib
