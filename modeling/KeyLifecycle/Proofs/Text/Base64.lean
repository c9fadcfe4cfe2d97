import KeyLifecycle.Text.Base64
import Mathlib.Data.List.Basic

/-!
# Base64 reads what it writes

Both alphabets can be read: each of their sixty-four symbols stands for its number, and none of them
is the filling (`Alphabet.IsReadable`). This is all that reading asks of an alphabet. A group that
is written falls into numbers of six bits, and a group that is read puts them together again, for a
full group and for each of the two that are filled up
(`KeyLifecycle.Text.Base64.group?_symbols`, `KeyLifecycle.Text.Base64.lastTwo?_symbols`,
`KeyLifecycle.Text.Base64.lastOne?_symbols`); the rest is an induction on the groups
(`KeyLifecycle.Text.Base64.decode?_encode`).

How long the text of some bytes is depends on their number alone, and so does whether it is filled
up: it has four characters for three bytes, and where no byte is left over, all of them are symbols
(`KeyLifecycle.Text.Base64.symbol_or_filling_of_mem`).
-/

namespace KeyLifecycle.Text.Base64

variable {a : Alphabet} {bytes : List UInt8} {c : Char} {n : Nat}

/-! ### The alphabets -/

/-- **An alphabet that can be read**: a symbol stands for its number, and is not the filling. -/
def Alphabet.IsReadable (a : Alphabet) : Prop :=
  ∀ n < 64, a.value? (a.symbol n) = some n ∧ a.symbol n ≠ '='

theorem isReadable_standard : Alphabet.standard.IsReadable := by
  unfold Alphabet.IsReadable
  decide

theorem isReadable_urlSafe : Alphabet.urlSafe.IsReadable := by
  unfold Alphabet.IsReadable
  decide

/-- **The characters of the URL-safe alphabet**: letters, digits, the hyphen and the underscore. -/
def IsUrlSafe (c : Char) : Prop :=
  ('A' ≤ c ∧ c ≤ 'Z') ∨ ('a' ≤ c ∧ c ≤ 'z') ∨ ('0' ≤ c ∧ c ≤ '9') ∨ c = '-' ∨ c = '_'

theorem isUrlSafe_symbol (h : n < 64) : IsUrlSafe (Alphabet.urlSafe.symbol n) := by
  unfold IsUrlSafe
  revert n
  decide

/-! ### One group -/

section Groups

variable (ha : a.IsReadable) (x y z : UInt8)

include ha

theorem value?_symbol (h : n < 64) : a.value? (a.symbol n) = some n := (ha n h).1

/-- Three bytes are put together again. -/
theorem group?_symbols :
    group? a (a.symbol (x.toNat / 4)) (a.symbol (x.toNat % 4 * 16 + y.toNat / 16))
      (a.symbol (y.toNat % 16 * 4 + z.toNat / 64)) (a.symbol (z.toNat % 64)) = some [x, y, z] := by
  have hx : x.toNat < 256 := x.toNat_lt
  have hy : y.toNat < 256 := y.toNat_lt
  have hz : z.toNat < 256 := z.toNat_lt
  have hx' : x.toNat / 4 * 4 + (x.toNat % 4 * 16 + y.toNat / 16) / 16 = x.toNat := by omega
  have hy' : (x.toNat % 4 * 16 + y.toNat / 16) % 16 * 16 +
      (y.toNat % 16 * 4 + z.toNat / 64) / 4 = y.toNat := by omega
  have hz' : (y.toNat % 16 * 4 + z.toNat / 64) % 4 * 64 + z.toNat % 64 = z.toNat := by omega
  rw [group?, value?_symbol ha (by omega), value?_symbol ha (by omega),
    value?_symbol ha (by omega), value?_symbol ha (by omega)]
  simp only [Option.bind_eq_bind, Option.bind_some, hx', hy', hz', UInt8.ofNat_toNat]
  rfl

/-- Two bytes are put together again, and the bits that the filling leaves are zero. -/
theorem lastTwo?_symbols :
    lastTwo? a (a.symbol (x.toNat / 4)) (a.symbol (x.toNat % 4 * 16 + y.toNat / 16))
      (a.symbol (y.toNat % 16 * 4)) = some [x, y] := by
  have hx : x.toNat < 256 := x.toNat_lt
  have hy : y.toNat < 256 := y.toNat_lt
  have hx' : x.toNat / 4 * 4 + (x.toNat % 4 * 16 + y.toNat / 16) / 16 = x.toNat := by omega
  have hy' : (x.toNat % 4 * 16 + y.toNat / 16) % 16 * 16 + y.toNat % 16 * 4 / 4 = y.toNat := by
    omega
  have hguard : (guard (y.toNat % 16 * 4 % 4 = 0) : Option Unit) = some () := if_pos (by omega)
  rw [lastTwo?, value?_symbol ha (by omega), value?_symbol ha (by omega),
    value?_symbol ha (by omega)]
  show Option.bind (guard (y.toNat % 16 * 4 % 4 = 0)) (fun _ => some
    [UInt8.ofNat (x.toNat / 4 * 4 + (x.toNat % 4 * 16 + y.toNat / 16) / 16),
      UInt8.ofNat ((x.toNat % 4 * 16 + y.toNat / 16) % 16 * 16 + y.toNat % 16 * 4 / 4)]) = _
  rw [hguard, Option.bind_some, hx', hy', UInt8.ofNat_toNat, UInt8.ofNat_toNat]

/-- One byte is put together again. -/
theorem lastOne?_symbols :
    lastOne? a (a.symbol (x.toNat / 4)) (a.symbol (x.toNat % 4 * 16)) = some [x] := by
  have hx : x.toNat < 256 := x.toNat_lt
  have hx' : x.toNat / 4 * 4 + x.toNat % 4 * 16 / 16 = x.toNat := by omega
  have hguard : (guard (x.toNat % 4 * 16 % 16 = 0) : Option Unit) = some () := if_pos (by omega)
  rw [lastOne?, value?_symbol ha (by omega), value?_symbol ha (by omega)]
  show Option.bind (guard (x.toNat % 4 * 16 % 16 = 0)) (fun _ => some
    [UInt8.ofNat (x.toNat / 4 * 4 + x.toNat % 4 * 16 / 16)]) = _
  rw [hguard, Option.bind_some, hx', UInt8.ofNat_toNat]

end Groups

/-! ### All groups -/

/-- **What has been written is read back.** -/
theorem decodeChars?_encodeChars (ha : a.IsReadable) (bytes : List UInt8) :
    decodeChars? a (encodeChars a bytes) = some bytes := by
  induction bytes using encodeChars.induct with
  | case1 => rfl
  | case2 x =>
    rw [encodeChars, decodeChars?, if_pos ⟨rfl, rfl, rfl⟩, lastOne?_symbols ha]
  | case3 x y =>
    have hy : y.toNat < 256 := y.toNat_lt
    have hfilled : a.symbol (y.toNat % 16 * 4) ≠ '=' := (ha _ (by omega)).2
    rw [encodeChars, decodeChars?, if_neg (by simp [hfilled]), if_pos ⟨rfl, rfl⟩,
      lastTwo?_symbols ha]
  | case4 x y z rest ih =>
    have hfilled : a.symbol (z.toNat % 64) ≠ '=' := (ha _ (by omega)).2
    rw [encodeChars, decodeChars?, if_neg (by simp [hfilled]), if_neg (by simp [hfilled]),
      group?_symbols ha, ih]
    rfl

/-- **The bytes of a text are those that it was written for**, in either alphabet. -/
theorem decode?_encode (ha : a.IsReadable) (bytes : List UInt8) :
    decode? a (encode a bytes) = some bytes := by
  rw [decode?, encode, String.toList_ofList, decodeChars?_encodeChars ha]

/-- Different bytes have different texts. -/
theorem encode_inj (ha : a.IsReadable) {bytes bytes' : List UInt8} :
    encode a bytes = encode a bytes' ↔ bytes = bytes' := by
  refine ⟨fun h => ?_, congrArg _⟩
  have hread := decode?_encode ha bytes
  rw [h, decode?_encode ha] at hread
  exact (Option.some.inj hread).symm

/-! ### What a text looks like -/

/-- Four characters for three bytes. -/
theorem length_encodeChars (a : Alphabet) (bytes : List UInt8) :
    (encodeChars a bytes).length = (bytes.length + 2) / 3 * 4 := by
  induction bytes using encodeChars.induct with
  | case1 => rfl
  | case2 x => simp [encodeChars]
  | case3 x y => simp [encodeChars]
  | case4 x y z rest ih =>
    simp only [encodeChars, List.length_cons, ih]
    omega

/-- **What the text of some bytes is made of**: of symbols, and of the filling if the bytes do not
come in threes. -/
theorem symbol_or_filling_of_mem (hc : c ∈ encodeChars a bytes) :
    (∃ n < 64, c = a.symbol n) ∨ (c = '=' ∧ ¬3 ∣ bytes.length) := by
  induction bytes using encodeChars.induct with
  | case1 => simp [encodeChars] at hc
  | case2 x =>
    have hx : x.toNat < 256 := x.toNat_lt
    simp only [encodeChars, List.mem_cons, List.not_mem_nil, or_false] at hc
    rcases hc with rfl | rfl | rfl | rfl
    · exact Or.inl ⟨_, by omega, rfl⟩
    · exact Or.inl ⟨_, by omega, rfl⟩
    · exact Or.inr ⟨rfl, by simp⟩
    · exact Or.inr ⟨rfl, by simp⟩
  | case3 x y =>
    have hx : x.toNat < 256 := x.toNat_lt
    have hy : y.toNat < 256 := y.toNat_lt
    simp only [encodeChars, List.mem_cons, List.not_mem_nil, or_false] at hc
    rcases hc with rfl | rfl | rfl | rfl
    · exact Or.inl ⟨_, by omega, rfl⟩
    · exact Or.inl ⟨_, by omega, rfl⟩
    · exact Or.inl ⟨_, by omega, rfl⟩
    · exact Or.inr ⟨rfl, by simp⟩
  | case4 x y z rest ih =>
    have hx : x.toNat < 256 := x.toNat_lt
    have hy : y.toNat < 256 := y.toNat_lt
    have hz : z.toNat < 256 := z.toNat_lt
    simp only [encodeChars, List.mem_cons] at hc
    rcases hc with rfl | rfl | rfl | rfl | hc
    · exact Or.inl ⟨_, by omega, rfl⟩
    · exact Or.inl ⟨_, by omega, rfl⟩
    · exact Or.inl ⟨_, by omega, rfl⟩
    · exact Or.inl ⟨_, by omega, rfl⟩
    -- three bytes more or less make no difference to what is left over
    · refine (ih hc).imp_right (And.imp_right fun hrest hall => hrest ?_)
      simp only [List.length_cons] at hall
      omega

/-- The URL-safe text of bytes that come in threes is made of the characters of the alphabet. -/
theorem isUrlSafe_of_mem (h : 3 ∣ bytes.length) (hc : c ∈ encodeChars .urlSafe bytes) :
    IsUrlSafe c := by
  obtain ⟨n, hn, rfl⟩ := (symbol_or_filling_of_mem hc).resolve_right fun hfilled => hfilled.2 h
  exact isUrlSafe_symbol hn

-- one byte, two bytes and three, and what the two alphabets make of the highest numbers
example : encode .standard [0xfb] = "+w==" ∧ encode .standard [0xfb, 0xff] = "+/8=" ∧
    encode .urlSafe [0xfb, 0xff, 0xff] = "-___" := by
  decide +kernel

end KeyLifecycle.Text.Base64
