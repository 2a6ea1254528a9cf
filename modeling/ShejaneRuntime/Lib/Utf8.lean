import Mathlib.Data.Nat.Notation
import Mathlib.Data.List.Basic

/-!
# UTF-8, a byte at a time

The encoding of a text and the decoder that takes its bytes as they come. The
decoder keeps what it knows of a character whose bytes are not all there, so
where the bytes are cut into chunks makes no difference to the text.
-/

namespace ShejaneRuntime.Lib.Utf8

/-! ## Encoding -/

/-- The bytes of a character. -/
def encodeChar (c : Char) : List ℕ :=
  let n := c.toNat
  if n < 0x80 then [n]
  else if n < 0x800 then [0xC0 + n / 64, 0x80 + n % 64]
  else if n < 0x10000 then [0xE0 + n / 4096, 0x80 + n / 64 % 64, 0x80 + n % 64]
  else [0xF0 + n / 262144, 0x80 + n / 4096 % 64, 0x80 + n / 64 % 64, 0x80 + n % 64]

/-- `text.encode("utf-8")` -/
def encode (text : List Char) : List ℕ := text.flatMap encodeChar

@[simp] theorem encode_nil : encode [] = [] := rfl

theorem encode_cons (c : Char) (text : List Char) :
    encode (c :: text) = encodeChar c ++ encode text :=
  rfl

/-! ## Decoding -/

/-- What is known of a character that has begun: the bits so far, how many
bytes are missing, and the range of the next one. With `bom` a byte order mark
at the start of the stream is dropped. -/
structure Decoder where
  bom : Bool
  codePoint : ℕ
  needed : ℕ
  lower : ℕ
  upper : ℕ
  deriving DecidableEq

/-- The state between characters. -/
def Decoder.idle (bom : Bool) : Decoder := ⟨bom, 0, 0, 0x80, 0xBF⟩

/-- A character is there; at the start of the stream it may be the mark. -/
def Decoder.emit (d : Decoder) (c : Char) : Decoder × List Char :=
  (.idle false, if d.bom && c == Char.ofNat 0xFEFF then [] else [c])

def Decoder.replacement : Char := Char.ofNat 0xFFFD

/-- The first byte of a character. -/
def Decoder.first (d : Decoder) (byte : ℕ) : Decoder × List Char :=
  if byte < 0x80 then d.emit (Char.ofNat byte)
  else if 0xC2 ≤ byte ∧ byte ≤ 0xDF then (⟨d.bom, byte - 0xC0, 1, 0x80, 0xBF⟩, [])
  else if 0xE0 ≤ byte ∧ byte ≤ 0xEF then
    (⟨d.bom, byte - 0xE0, 2, if byte = 0xE0 then 0xA0 else 0x80,
      if byte = 0xED then 0x9F else 0xBF⟩, [])
  else if 0xF0 ≤ byte ∧ byte ≤ 0xF4 then
    (⟨d.bom, byte - 0xF0, 3, if byte = 0xF0 then 0x90 else 0x80,
      if byte = 0xF4 then 0x8F else 0xBF⟩, [])
  else d.emit replacement

/-- A byte outside the range ends the character and is read again. -/
def Decoder.step (d : Decoder) (byte : ℕ) : Decoder × List Char :=
  if d.needed = 0 then d.first byte
  else if byte < d.lower ∨ d.upper < byte then
    let again := (Decoder.idle false).first byte
    (again.1, replacement :: again.2)
  else if d.needed = 1 then d.emit (Char.ofNat (d.codePoint * 64 + (byte - 0x80)))
  else (⟨d.bom, d.codePoint * 64 + (byte - 0x80), d.needed - 1, 0x80, 0xBF⟩, [])

/-- `decode(chunk, {stream: true})` -/
def Decoder.run (d : Decoder) : List ℕ → Decoder × List Char
  | [] => (d, [])
  | byte :: bytes =>
    let next := d.step byte
    let rest := next.1.run bytes
    (rest.1, next.2 ++ rest.2)

/-- The end of the stream: a character that is not complete is malformed. -/
def Decoder.flush (d : Decoder) : List Char := if d.needed = 0 then [] else [replacement]

@[simp] theorem Decoder.run_nil (d : Decoder) : d.run [] = (d, []) := rfl

theorem Decoder.run_append (d : Decoder) (bytes bytes' : List ℕ) :
    d.run (bytes ++ bytes') =
      (((d.run bytes).1.run bytes').1, (d.run bytes).2 ++ ((d.run bytes).1.run bytes').2) := by
  induction bytes generalizing d with
  | nil => rfl
  | cons byte bytes ih =>
      simp only [List.cons_append, Decoder.run, ih, List.append_assoc]

/-! ## What was encoded is decoded -/

theorem emit_idle {d : Decoder} {c : Char} (h : d.bom = false ∨ c ≠ Char.ofNat 0xFEFF) :
    d.emit c = (.idle false, [c]) := by
  rw [Decoder.emit, if_neg]
  rcases h with h | h
  · simp [h]
  · simp [h]

theorem toNat_valid (c : Char) : c.toNat < 0xD800 ∨ 0xDFFF < c.toNat ∧ c.toNat < 0x110000 :=
  c.valid

section Steps

variable {bom : Bool} {codePoint lower upper n : ℕ}

theorem step_idle (byte : ℕ) : (Decoder.idle bom).step byte = (Decoder.idle bom).first byte := by
  have hneeded : (Decoder.idle bom).needed = 0 := rfl
  rw [Decoder.step, if_pos hneeded]

theorem step_ascii (h : n < 0x80) :
    (Decoder.idle bom).step n = (Decoder.idle bom).emit (Char.ofNat n) := by
  rw [step_idle, Decoder.first, if_pos h]

theorem step_first_two (hlow : 2 ≤ n) (hhigh : n ≤ 31) :
    (Decoder.idle bom).step (0xC0 + n) = (⟨bom, n, 1, 0x80, 0xBF⟩, []) := by
  rw [step_idle, Decoder.first, if_neg (by omega), if_pos (by omega),
    Nat.add_sub_cancel_left]
  rfl

theorem step_first_three (hhigh : n ≤ 15) :
    (Decoder.idle bom).step (0xE0 + n) =
      (⟨bom, n, 2, if n = 0 then 0xA0 else 0x80, if n = 13 then 0x9F else 0xBF⟩, []) := by
  have hlower : 0xE0 + n = 0xE0 ↔ n = 0 := by omega
  have hupper : 0xE0 + n = 0xED ↔ n = 13 := by omega
  rw [step_idle, Decoder.first, if_neg (by omega), if_neg (by omega),
    if_pos (by omega), Nat.add_sub_cancel_left]
  simp only [hlower, hupper, Decoder.idle]

theorem step_first_four (hhigh : n ≤ 4) :
    (Decoder.idle bom).step (0xF0 + n) =
      (⟨bom, n, 3, if n = 0 then 0x90 else 0x80, if n = 4 then 0x8F else 0xBF⟩, []) := by
  have hlower : 0xF0 + n = 0xF0 ↔ n = 0 := by omega
  have hupper : 0xF0 + n = 0xF4 ↔ n = 4 := by omega
  rw [step_idle, Decoder.first, if_neg (by omega), if_neg (by omega),
    if_neg (by omega), if_pos (by omega), Nat.add_sub_cancel_left]
  simp only [hlower, hupper, Decoder.idle]

theorem step_more {needed : ℕ} (hlow : lower ≤ 0x80 + n) (hhigh : 0x80 + n ≤ upper) :
    (⟨bom, codePoint, needed + 2, lower, upper⟩ : Decoder).step (0x80 + n) =
      (⟨bom, codePoint * 64 + n, needed + 1, 0x80, 0xBF⟩, []) := by
  rw [Decoder.step, if_neg (by simp), if_neg (by simp only; omega), if_neg (by simp),
    Nat.add_sub_cancel_left]
  rfl

theorem step_last (hlow : lower ≤ 0x80 + n) (hhigh : 0x80 + n ≤ upper) {c : Char}
    (hpoint : codePoint * 64 + n = c.toNat) (h : bom = false ∨ c ≠ Char.ofNat 0xFEFF) :
    (⟨bom, codePoint, 1, lower, upper⟩ : Decoder).step (0x80 + n) = (.idle false, [c]) := by
  rw [Decoder.step, if_neg (by simp), if_neg (by simp only; omega), if_pos rfl,
    Nat.add_sub_cancel_left, hpoint, Char.ofNat_toNat]
  exact emit_idle h

end Steps

/-- The bytes of a character give the character, wherever the stream stands. -/
theorem run_encodeChar {bom : Bool} {c : Char} (h : bom = false ∨ c ≠ Char.ofNat 0xFEFF) :
    (Decoder.idle bom).run (encodeChar c) = (.idle false, [c]) := by
  have hvalid := toNat_valid c
  unfold encodeChar
  simp only
  split
  · rename_i hone
    have hstep : (Decoder.idle bom).step c.toNat = (.idle false, [c]) := by
      rw [step_ascii hone, Char.ofNat_toNat]
      exact emit_idle h
    simp only [Decoder.run, hstep, List.append_nil]
  · rename_i hone
    split
    · rename_i htwo
      have hfirst := @step_first_two bom (c.toNat / 64) (by omega) (by omega)
      have hlast := @step_last bom (c.toNat / 64) 0x80 0xBF (c.toNat % 64) (by omega) (by omega)
        c (by omega) h
      simp only [Decoder.run, hfirst, hlast, List.nil_append, List.append_nil]
    · rename_i htwo
      split
      · rename_i hthree
        -- the second byte of a character of three is bounded by the first one
        have hlower : (if c.toNat / 4096 = 0 then 0xA0 else 0x80) ≤ 0x80 + c.toNat / 64 % 64 := by
          split <;> omega
        have hupper : 0x80 + c.toNat / 64 % 64 ≤ (if c.toNat / 4096 = 13 then 0x9F else 0xBF) := by
          split <;> omega
        have hfirst := @step_first_three bom (c.toNat / 4096) (by omega)
        have hmore := @step_more bom (c.toNat / 4096) _ _ (c.toNat / 64 % 64) 0 hlower hupper
        have hlast := @step_last bom (c.toNat / 4096 * 64 + c.toNat / 64 % 64) 0x80 0xBF
          (c.toNat % 64) (by omega) (by omega) c (by omega) h
        simp only [Decoder.run, hfirst, hmore, hlast, List.nil_append, List.append_nil]
      · rename_i hthree
        have hlower : (if c.toNat / 262144 = 0 then 0x90 else 0x80) ≤
            0x80 + c.toNat / 4096 % 64 := by
          split <;> omega
        have hupper : 0x80 + c.toNat / 4096 % 64 ≤
            (if c.toNat / 262144 = 4 then 0x8F else 0xBF) := by
          split <;> omega
        have hfirst := @step_first_four bom (c.toNat / 262144) (by omega)
        have hmore := @step_more bom (c.toNat / 262144) _ _ (c.toNat / 4096 % 64) 1 hlower hupper
        have hthird := @step_more bom (c.toNat / 262144 * 64 + c.toNat / 4096 % 64) 0x80 0xBF
          (c.toNat / 64 % 64) 0 (by omega) (by omega)
        have hlast := @step_last bom
          ((c.toNat / 262144 * 64 + c.toNat / 4096 % 64) * 64 + c.toNat / 64 % 64) 0x80 0xBF
          (c.toNat % 64) (by omega) (by omega) c (by omega) h
        simp only [Decoder.run, hfirst, hmore, hthird, hlast, List.nil_append, List.append_nil]

/-- The bytes of a text that does not begin with a byte order mark give the
text. -/
theorem run_encode {bom : Bool} {text : List Char}
    (h : bom = false ∨ text.head? ≠ some (Char.ofNat 0xFEFF)) :
    (Decoder.idle bom).run (encode text) =
      (.idle (if text = [] then bom else false), text) := by
  induction text generalizing bom with
  | nil => rfl
  | cons c text ih =>
      have hfirst : bom = false ∨ c ≠ Char.ofNat 0xFEFF := by
        rcases h with h | h
        · exact .inl h
        · exact .inr fun heq ↦ h (by rw [heq]; rfl)
      have hrest := @ih false (.inl rfl)
      rw [encode_cons, Decoder.run_append, run_encodeChar hfirst]
      simp only
      rw [hrest]
      simp

end ShejaneRuntime.Lib.Utf8
