import ClusterLink.Bytes
/-!
# Hexadecimal text

Two digits a byte, the high half first. Writing uses lower-case letters only; reading takes both
cases and nothing else, so it refuses separators, blanks and an odd number of digits.

Results:
* `length_digits`: two digits are written for each byte.
* `ofDigits?_digits`: what was written reads back.
* `digits_of_ofDigits?`: whatever reads as bytes is, in lower case, what those bytes are written as.
-/

namespace ClusterLink.Hex

/-- The digit of a half byte. -/
def digit (n : Nat) : Char :=
  if n < 10 then Char.ofNat (48 + n) else Char.ofNat (87 + n)

/-- The value of a digit of either case. -/
def value? (c : Char) : Option Nat :=
  let n := c.toNat
  if 48 ≤ n ∧ n ≤ 57 then some (n - 48)
  else if 97 ≤ n ∧ n ≤ 102 then some (n - 87)
  else if 65 ≤ n ∧ n ≤ 70 then some (n - 55)
  else none

/-- The digits of some bytes. -/
def digits : Bytes → List Char
  | [] => []
  | b :: rest => digit (b.toNat / 16) :: digit (b.toNat % 16) :: digits rest

/-- The bytes that an even number of digits stands for. -/
def ofDigits? : List Char → Option Bytes
  | [] => some []
  | [_] => none
  | high :: low :: rest =>
    match value? high, value? low with
    | some h, some l => (ofDigits? rest).map (UInt8.ofNat (h * 16 + l) :: ·)
    | _, _ => none

/-- Bytes as lower-case hexadecimal text. -/
def encode (bytes : Bytes) : String := String.ofList (digits bytes)

/-- The bytes a hexadecimal text stands for. -/
def decode? (s : String) : Option Bytes := ofDigits? s.toList

@[simp] theorem length_digits (bytes : Bytes) : (digits bytes).length = 2 * bytes.length := by
  induction bytes with
  | nil => rfl
  | cons b rest ih => simp only [digits, List.length_cons, ih]; omega

private theorem value?_digit : ∀ n ∈ List.range 16, value? (digit n) = some n := by decide

theorem value?_digit_of_lt {n : Nat} (h : n < 16) : value? (digit n) = some n :=
  value?_digit n (List.mem_range.mpr h)

@[simp] theorem ofDigits?_digits (bytes : Bytes) : ofDigits? (digits bytes) = some bytes := by
  induction bytes with
  | nil => rfl
  | cons b rest ih =>
    have hb := b.toNat_lt
    have hsplit : b.toNat / 16 * 16 + b.toNat % 16 = b.toNat := by omega
    simp [digits, ofDigits?, value?_digit_of_lt (show b.toNat / 16 < 16 by omega),
      value?_digit_of_lt (show b.toNat % 16 < 16 by omega), ih, hsplit]

theorem value?_lt {c : Char} {n : Nat} (h : value? c = some n) : n < 16 := by
  simp only [value?] at h
  split at h
  · cases h; omega
  split at h
  · cases h; omega
  split at h
  · cases h; omega
  · cases h

private theorem digit_value?_ascii : ∀ m ∈ List.range 128, ∀ n,
    value? (Char.ofNat m) = some n → digit n = (Char.ofNat m).toLower := by
  have h : ∀ m ∈ List.range 128,
      (value? (Char.ofNat m)).all (fun n => digit n == (Char.ofNat m).toLower) := by
    decide +kernel
  intro m hm n hn
  have := h m hm
  rw [hn] at this
  simpa using this

/-- A digit's value is written as that digit in lower case. -/
theorem digit_of_value? {c : Char} {n : Nat} (h : value? c = some n) : digit n = c.toLower := by
  have hc : c.toNat < 128 := by
    simp only [value?] at h
    split at h
    · omega
    split at h
    · omega
    split at h
    · omega
    · cases h
  have := digit_value?_ascii c.toNat (List.mem_range.mpr hc) n
  rw [Char.ofNat_toNat] at this
  exact this h

theorem digits_of_ofDigits? {cs : List Char} {bytes : Bytes} (h : ofDigits? cs = some bytes) :
    digits bytes = cs.map Char.toLower := by
  fun_induction ofDigits? cs generalizing bytes with
  | case1 => cases h; rfl
  | case2 => cases h
  | case3 high low rest hv lv hh hl ih =>
    obtain ⟨tail, ht, rfl⟩ := Option.map_eq_some_iff.1 h
    have h1 := value?_lt hh
    have h2 := value?_lt hl
    have hb : (UInt8.ofNat (hv * 16 + lv)).toNat = hv * 16 + lv := by
      rw [UInt8.toNat_ofNat']; omega
    simp only [digits, hb, List.map_cons, ih ht]
    rw [show (hv * 16 + lv) / 16 = hv by omega, show (hv * 16 + lv) % 16 = lv by omega,
      digit_of_value? hh, digit_of_value? hl]
  | case4 => cases h

end ClusterLink.Hex
