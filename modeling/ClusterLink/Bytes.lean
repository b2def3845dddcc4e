/-!
# Byte strings and big-endian integers

Everything on the wire is a list of bytes, and every integer in it is written with the most
significant byte first in a fixed number of bytes.

Results:
* `BigEndian.decode_encode`: a value that fits in the width reads back.
* `BigEndian.encode_decode`: every byte string is the encoding of its value in its own width.
* `decodeUInt32_encodeUInt32`, `encodeUInt32_decodeUInt32` and the same for 64 bits: the two
  directions between words and their four or eight bytes.
* `textOfBytes?_bytesOfText`, `bytesOfText_of_textOfBytes?`: text and its UTF-8 bytes.
-/

namespace ClusterLink

/-- A string of bytes, the first byte first. -/
abbrev Bytes := List UInt8

namespace BigEndian

/-- How many values fit in a number of bytes. -/
def range : (width : Nat) → Nat
  | 0 => 1
  | width + 1 => 256 * range width

/-- The `width` low bytes of `value`, most significant first. -/
def encode : (width : Nat) → (value : Nat) → Bytes
  | 0, _ => []
  | width + 1, value => UInt8.ofNat (value / range width) :: encode width value

/-- The number whose digits to base 256 the bytes are. -/
def decode : Bytes → Nat
  | [] => 0
  | b :: rest => b.toNat * range rest.length + decode rest

theorem range_pos (width : Nat) : 0 < range width := by
  induction width with
  | zero => exact Nat.one_pos
  | succ width ih => exact Nat.mul_pos (by decide) ih

theorem range_add (a b : Nat) : range (a + b) = range a * range b := by
  induction a with
  | zero => rw [Nat.zero_add, range, Nat.one_mul]
  | succ a ih => rw [Nat.add_right_comm, range, ih, range, Nat.mul_assoc]

@[simp] theorem length_encode (width value : Nat) : (encode width value).length = width := by
  induction width with
  | zero => rfl
  | succ width ih => simp [encode, ih]

theorem decode_lt (bytes : Bytes) : decode bytes < range bytes.length := by
  induction bytes with
  | nil => exact Nat.one_pos
  | cons b rest ih =>
    have hb : b.toNat + 1 ≤ 256 := b.toNat_lt
    calc decode (b :: rest) = b.toNat * range rest.length + decode rest := rfl
      _ < b.toNat * range rest.length + range rest.length := by omega
      _ = (b.toNat + 1) * range rest.length := by rw [Nat.add_mul, Nat.one_mul]
      _ ≤ 256 * range rest.length := Nat.mul_le_mul_right _ hb
      _ = range (b :: rest).length := rfl

/-- Only the value modulo the width's range is written. -/
theorem encode_mod (width value : Nat) : encode width (value % range width) = encode width value := by
  suffices h : ∀ w, w ≤ width → encode w (value % range width) = encode w value from
    h width (Nat.le_refl _)
  intro w hw
  induction w with
  | zero => rfl
  | succ w ih =>
    simp only [encode, ih (by omega), List.cons.injEq, and_true]
    apply UInt8.toNat_inj.mp
    rw [UInt8.toNat_ofNat', UInt8.toNat_ofNat']
    obtain ⟨k, rfl⟩ := Nat.exists_eq_add_of_le hw
    rw [Nat.add_assoc, range_add, Nat.mod_mul_right_div_self, Nat.add_comm 1 k]
    exact Nat.mod_mod_of_dvd _ ⟨range k, rfl⟩

theorem decode_encode (width value : Nat) (h : value < range width) :
    decode (encode width value) = value := by
  induction width generalizing value with
  | zero =>
    have : value = 0 := Nat.lt_one_iff.1 h
    subst this
    rfl
  | succ width ih =>
    have hdiv : value / range width < 256 := (Nat.div_lt_iff_lt_mul (range_pos width)).2 h
    have hb : (UInt8.ofNat (value / range width)).toNat = value / range width := by
      rw [UInt8.toNat_ofNat']; exact Nat.mod_eq_of_lt hdiv
    have hlow := ih (value % range width) (Nat.mod_lt _ (range_pos width))
    rw [encode_mod] at hlow
    simp only [encode, decode, length_encode, hb, hlow]
    rw [Nat.mul_comm]
    exact Nat.div_add_mod value (range width)

theorem encode_decode (bytes : Bytes) : encode bytes.length (decode bytes) = bytes := by
  induction bytes with
  | nil => rfl
  | cons b rest ih =>
    have hlt := decode_lt rest
    have hdiv : (b.toNat * range rest.length + decode rest) / range rest.length = b.toNat := by
      rw [Nat.mul_comm, Nat.mul_add_div (range_pos _), Nat.div_eq_of_lt hlt, Nat.add_zero]
    have hmod : (b.toNat * range rest.length + decode rest) % range rest.length = decode rest := by
      rw [Nat.mul_comm, Nat.mul_add_mod, Nat.mod_eq_of_lt hlt]
    simp only [List.length_cons, decode, encode, hdiv, UInt8.ofNat_toNat]
    rw [← encode_mod rest.length, hmod, ih]

end BigEndian

/-! ## Words -/

/-- The four bytes of a 32-bit word. -/
def encodeUInt32 (w : UInt32) : Bytes := BigEndian.encode 4 w.toNat

/-- The word that four bytes stand for. -/
def decodeUInt32 (bytes : Bytes) : UInt32 := UInt32.ofNat (BigEndian.decode bytes)

/-- The eight bytes of a 64-bit word. -/
def encodeUInt64 (w : UInt64) : Bytes := BigEndian.encode 8 w.toNat

/-- The word that eight bytes stand for. -/
def decodeUInt64 (bytes : Bytes) : UInt64 := UInt64.ofNat (BigEndian.decode bytes)

@[simp] theorem length_encodeUInt32 (w : UInt32) : (encodeUInt32 w).length = 4 := by
  simp [encodeUInt32]

@[simp] theorem length_encodeUInt64 (w : UInt64) : (encodeUInt64 w).length = 8 := by
  simp [encodeUInt64]

@[simp] theorem decodeUInt32_encodeUInt32 (w : UInt32) : decodeUInt32 (encodeUInt32 w) = w := by
  rw [decodeUInt32, encodeUInt32, BigEndian.decode_encode _ _ w.toNat_lt]
  exact UInt32.ofNat_toNat

@[simp] theorem decodeUInt64_encodeUInt64 (w : UInt64) : decodeUInt64 (encodeUInt64 w) = w := by
  rw [decodeUInt64, encodeUInt64, BigEndian.decode_encode _ _ w.toNat_lt]
  exact UInt64.ofNat_toNat

theorem encodeUInt32_decodeUInt32 {bytes : Bytes} (h : bytes.length = 4) :
    encodeUInt32 (decodeUInt32 bytes) = bytes := by
  have hlt := BigEndian.decode_lt bytes
  rw [h] at hlt
  rw [encodeUInt32, decodeUInt32, UInt32.toNat_ofNat_of_lt' hlt, ← h]
  exact BigEndian.encode_decode bytes

theorem encodeUInt64_decodeUInt64 {bytes : Bytes} (h : bytes.length = 8) :
    encodeUInt64 (decodeUInt64 bytes) = bytes := by
  have hlt := BigEndian.decode_lt bytes
  rw [h] at hlt
  rw [encodeUInt64, decodeUInt64, UInt64.toNat_ofNat_of_lt' hlt, ← h]
  exact BigEndian.encode_decode bytes

/-! ## Text -/

/-- The UTF-8 bytes of a text. -/
def bytesOfText (s : String) : Bytes := s.toByteArray.data.toList

/-- The text whose UTF-8 bytes these are, if they are UTF-8. -/
def textOfBytes? (bytes : Bytes) : Option String := String.fromUTF8? ⟨bytes.toArray⟩

@[simp] theorem length_bytesOfText (s : String) : (bytesOfText s).length = s.utf8ByteSize := rfl

@[simp] theorem textOfBytes?_bytesOfText (s : String) : textOfBytes? (bytesOfText s) = some s := by
  have h : s.toByteArray.IsValidUTF8 := s.isValidUTF8
  simp [textOfBytes?, bytesOfText, String.fromUTF8?, String.fromUTF8, h]

theorem bytesOfText_of_textOfBytes? {bytes : Bytes} {s : String}
    (h : textOfBytes? bytes = some s) : bytesOfText s = bytes := by
  simp only [textOfBytes?, String.fromUTF8?] at h
  split at h
  · cases h; simp [bytesOfText, String.fromUTF8]
  · cases h

end ClusterLink
