import ShejaneRuntime.Lib.Utf8

/-!
# Texts of code points

A Python string is a sequence of code points. Lone surrogates are code points
of their own, and a string that has one cannot be encoded. Bytes that are no
text are decoded with replacement characters.
-/

namespace ShejaneRuntime.Lib

abbrev CodePoint := Fin 0x110000

abbrev Text := List CodePoint

instance : @LawfulBEq Text (@List.instBEq CodePoint instBEqOfDecidableEq) := inferInstance

namespace Utf8

/-- The bytes of a code point. -/
def encodePoint (n : ℕ) : List ℕ :=
  if n < 0x80 then [n]
  else if n < 0x800 then [0xC0 + n / 64, 0x80 + n % 64]
  else if n < 0x10000 then [0xE0 + n / 4096, 0x80 + n / 64 % 64, 0x80 + n % 64]
  else [0xF0 + n / 262144, 0x80 + n / 4096 % 64, 0x80 + n / 64 % 64, 0x80 + n % 64]

theorem encodeChar_eq (c : Char) : encodeChar c = encodePoint c.toNat := rfl

/-- How many bytes a code point takes. -/
def width (n : ℕ) : ℕ := if n < 0x80 then 1 else if n < 0x800 then 2 else if n < 0x10000 then 3 else 4

theorem length_encodePoint (n : ℕ) : (encodePoint n).length = width n := by
  unfold encodePoint width
  split
  · rfl
  · split
    · rfl
    · split <;> rfl

end Utf8

namespace CodePoint

def ofChar (c : Char) : CodePoint := ⟨c.toNat, by have hvalid := Utf8.toNat_valid c; omega⟩

def isSurrogate (c : CodePoint) : Bool := 0xD800 ≤ c.val && c.val ≤ 0xDFFF

end CodePoint

namespace Text

/-- A text without lone surrogates. -/
def ofString (s : String) : Text := s.toList.map CodePoint.ofChar

/-- The text has an encoding. -/
def Encodable (t : Text) : Prop := ∀ c ∈ t, c.isSurrogate = false

instance (t : Text) : Decidable (Encodable t) :=
  decidable_of_iff ((t.all fun c ↦ !c.isSurrogate) = true) (by simp [Encodable])

/-- The bytes of the code points, one after the other. -/
def bytes (t : Text) : List ℕ := t.flatMap fun c ↦ Utf8.encodePoint c.val

/-- `text.encode("utf-8")` -/
def encode (t : Text) : Option (List ℕ) := if t.Encodable then some t.bytes else none

/-- `bytes.decode("utf-8", errors="replace")` -/
def decodeReplacing (bytes : List ℕ) : Text :=
  let read := (Utf8.Decoder.idle false).run bytes
  (read.2 ++ read.1.flush).map CodePoint.ofChar

variable {s t : Text}

theorem encodable_append : (s ++ t).Encodable ↔ s.Encodable ∧ t.Encodable := by
  unfold Encodable
  simp only [List.mem_append]
  constructor
  · intro h
    exact ⟨fun c hc ↦ h c (.inl hc), fun c hc ↦ h c (.inr hc)⟩
  · rintro ⟨hs, ht⟩ c (hc | hc)
    · exact hs c hc
    · exact ht c hc

theorem encodable_cons {c : CodePoint} :
    Encodable (c :: t) ↔ c.isSurrogate = false ∧ t.Encodable :=
  List.forall_mem_cons

theorem not_isSurrogate_ofChar (c : Char) : (CodePoint.ofChar c).isSurrogate = false := by
  have hvalid := Utf8.toNat_valid c
  unfold CodePoint.isSurrogate CodePoint.ofChar
  simp only [Bool.and_eq_false_iff, decide_eq_false_iff_not]
  omega

theorem encodable_map_ofChar (chars : List Char) : Encodable (chars.map CodePoint.ofChar) := by
  intro c hc
  obtain ⟨ch, _, rfl⟩ := List.mem_map.mp hc
  exact not_isSurrogate_ofChar ch

theorem encodable_ofString (s : String) : (ofString s).Encodable := encodable_map_ofChar s.toList

@[simp] theorem bytes_nil : bytes [] = [] := rfl

theorem bytes_cons (c : CodePoint) (t : Text) :
    bytes (c :: t) = Utf8.encodePoint c.val ++ t.bytes := rfl

theorem bytes_append (s t : Text) : (s ++ t).bytes = s.bytes ++ t.bytes := List.flatMap_append

theorem bytes_map_ofChar (chars : List Char) :
    bytes (chars.map CodePoint.ofChar) = Utf8.encode chars := by
  induction chars with
  | nil => rfl
  | cons c chars ih =>
      rw [List.map_cons, bytes_cons, ih, Utf8.encode_cons]
      rfl

/-- A text that can be encoded is a text of characters. -/
theorem Encodable.exists_chars (h : t.Encodable) : ∃ chars : List Char,
    t = chars.map CodePoint.ofChar := by
  induction t with
  | nil => exact ⟨[], rfl⟩
  | cons c t ih =>
      obtain ⟨hc, ht⟩ := encodable_cons.mp h
      obtain ⟨chars, rfl⟩ := ih ht
      have hvalid : c.val.isValidChar := by
        unfold CodePoint.isSurrogate at hc
        simp only [Bool.and_eq_false_iff, decide_eq_false_iff_not] at hc
        have hlt := c.isLt
        unfold Nat.isValidChar
        omega
      refine ⟨Char.ofNat c.val :: chars, ?_⟩
      rw [List.map_cons]
      congr 1
      apply Fin.ext
      have htoNat : (Char.ofNat c.val).toNat = c.val := by
        unfold Char.ofNat
        rw [dif_pos hvalid]
        rfl
      exact htoNat.symm

end Text

end ShejaneRuntime.Lib
