import Mathlib.Algebra.Order.Ring.Int
import Mathlib.Algebra.Order.Ring.Nat
import Mathlib.Algebra.Order.Ring.Canonical
import Mathlib.Data.List.Forall2
import Mathlib.Data.List.Induction
import Mathlib.Tactic.Ring
import Mathlib.Tactic.Linarith

/-!
# ABI words

A static value of the contract ABI is one word of 32 bytes, in two's complement with the
most significant byte first. A word is an encoding of a type when its value is one of the
type's, so the narrow types leave most words out.

- `encodeWord_value`: every word is the encoding of the number it stands for;
- `isEncoding_uint_iff`, `isEncoding_int_iff`: the words of a type are those whose number is
  in the type's range;
- `encodesTuple_iff`: a tuple is read back word by word.
-/

namespace TraderStack.Lib.Abi

/-! ## Big-endian bytes -/

/-- The number a byte string stands for, most significant byte first. -/
def ofBytes (bytes : List UInt8) : ℕ := bytes.foldl (fun n b => 256 * n + b.toNat) 0

/-- The last so many bytes of a number, most significant byte first. -/
def toBytes : ℕ → ℕ → List UInt8
  | 0, _ => []
  | width + 1, n => toBytes width (n / 256) ++ [UInt8.ofNat (n % 256)]

@[simp] theorem length_toBytes (width n : ℕ) : (toBytes width n).length = width := by
  induction width generalizing n with
  | zero => rfl
  | succ width ih => simp [toBytes, ih]

theorem ofBytes_concat (bytes : List UInt8) (b : UInt8) :
    ofBytes (bytes ++ [b]) = 256 * ofBytes bytes + b.toNat := by
  simp [ofBytes]

theorem ofBytes_lt (bytes : List UInt8) : ofBytes bytes < 256 ^ bytes.length := by
  induction bytes using List.reverseRecOn with
  | nil => simp [ofBytes]
  | append_singleton bytes b ih =>
    have hb : b.toNat < 256 := b.toNat_lt
    rw [ofBytes_concat, List.length_append, List.length_singleton, pow_succ]
    omega

theorem ofBytes_toBytes {width n : ℕ} (h : n < 256 ^ width) : ofBytes (toBytes width n) = n := by
  induction width generalizing n with
  | zero =>
    have : n = 0 := by simpa using h
    simp [toBytes, ofBytes, this]
  | succ width ih =>
    have hdiv : n / 256 < 256 ^ width := by
      rw [pow_succ] at h
      omega
    have hbyte : (UInt8.ofNat (n % 256)).toNat = n % 256 := by
      simp
    rw [toBytes, ofBytes_concat, ih hdiv, hbyte]
    omega

theorem toBytes_ofBytes (bytes : List UInt8) : toBytes bytes.length (ofBytes bytes) = bytes := by
  induction bytes using List.reverseRecOn with
  | nil => rfl
  | append_singleton bytes b ih =>
    have hb : b.toNat < 256 := b.toNat_lt
    have hdiv : (256 * ofBytes bytes + b.toNat) / 256 = ofBytes bytes := by omega
    have hmod : (256 * ofBytes bytes + b.toNat) % 256 = b.toNat := by omega
    rw [List.length_append, List.length_singleton, toBytes, ofBytes_concat, hdiv, hmod, ih]
    simp

/-! ## One word -/

/-- The type of a static value: an unsigned or a signed number of so many bits. -/
inductive WordType where
  | uint (bits : ℕ)
  | int (bits : ℕ)
deriving DecidableEq

/-- The numbers of a type. -/
def WordType.Holds : WordType → ℤ → Prop
  | .uint bits, v => 0 ≤ v ∧ v < 2 ^ bits
  | .int bits, v => -2 ^ (bits - 1) ≤ v ∧ v < 2 ^ (bits - 1)

instance (t : WordType) (v : ℤ) : Decidable (t.Holds v) := by
  cases t <;> exact inferInstanceAs (Decidable (_ ∧ _))

/-- The word of a number: its value modulo `2 ^ 256`. -/
def encodeWord (v : ℤ) : List UInt8 := toBytes 32 (v % 2 ^ 256).toNat

/-- The word is the type's encoding of the number. -/
def IsEncoding (t : WordType) (v : ℤ) (word : List UInt8) : Prop :=
  t.Holds v ∧ word = encodeWord v

instance (t : WordType) (v : ℤ) (word : List UInt8) : Decidable (IsEncoding t v word) :=
  inferInstanceAs (Decidable (_ ∧ _))

/-- The number a word stands for in two's complement. -/
def signed (n : ℕ) : ℤ := if 2 ^ 255 ≤ n then (n : ℤ) - 2 ^ 256 else n

@[simp] theorem length_encodeWord (v : ℤ) : (encodeWord v).length = 32 :=
  length_toBytes _ _

theorem ofBytes_lt_of_word {word : List UInt8} (h : word.length = 32) :
    ofBytes word < 2 ^ 256 := by
  have hlt := ofBytes_lt word
  rw [h] at hlt
  norm_num at hlt ⊢
  exact hlt

/-- The number an encoding stands for, before the sign is read off. -/
theorem ofBytes_encodeWord (v : ℤ) : (ofBytes (encodeWord v) : ℤ) = v % 2 ^ 256 := by
  have hnonneg : 0 ≤ v % 2 ^ 256 := by omega
  have hlt : (v % 2 ^ 256).toNat < 256 ^ 32 := by
    norm_num
    omega
  rw [encodeWord, ofBytes_toBytes hlt, Int.toNat_of_nonneg hnonneg]

/-- A word is the encoding of any number that agrees with it modulo `2 ^ 256`. -/
theorem encodeWord_of_emod {word : List UInt8} (h : word.length = 32) {v : ℤ}
    (hv : v % 2 ^ 256 = ofBytes word) : encodeWord v = word := by
  have hback := toBytes_ofBytes word
  rw [h] at hback
  rw [encodeWord, hv, Int.toNat_natCast, hback]

theorem encodeWord_ofBytes {word : List UInt8} (h : word.length = 32) :
    encodeWord (ofBytes word) = word := by
  have hlt := ofBytes_lt_of_word h
  exact encodeWord_of_emod h (by omega)

theorem encodeWord_signed {word : List UInt8} (h : word.length = 32) :
    encodeWord (signed (ofBytes word)) = word := by
  have hlt := ofBytes_lt_of_word h
  refine encodeWord_of_emod h ?_
  rw [signed]
  split <;> omega

/-- What an unsigned type encodes is read back as it is. -/
theorem ofBytes_encodeWord_of_nonneg {v : ℤ} (h0 : 0 ≤ v) (h : v < 2 ^ 256) :
    (ofBytes (encodeWord v) : ℤ) = v := by
  rw [ofBytes_encodeWord]
  omega

/-- What a signed type encodes is read back through the sign. -/
theorem signed_ofBytes_encodeWord {v : ℤ} (h0 : -2 ^ 255 ≤ v) (h : v < 2 ^ 255) :
    signed (ofBytes (encodeWord v)) = v := by
  have hv := ofBytes_encodeWord v
  rw [signed]
  split <;> omega

/-- The bounds of a narrow signed type are within those of a word. -/
theorem pow_pred_le {bits : ℕ} (h : bits ≤ 256) : (2 : ℤ) ^ (bits - 1) ≤ 2 ^ 255 :=
  pow_le_pow_right₀ (by norm_num) (by omega)

theorem pow_bits_le {bits : ℕ} (h : bits ≤ 256) : (2 : ℤ) ^ bits ≤ 2 ^ 256 :=
  pow_le_pow_right₀ (by norm_num) h

/-- **The words of an unsigned type** are those whose number fits its bits. -/
theorem isEncoding_uint_iff {bits : ℕ} (hbits : bits ≤ 256) {v : ℤ} {word : List UInt8}
    (h : word.length = 32) :
    IsEncoding (.uint bits) v word ↔ v = ofBytes word ∧ v < 2 ^ bits := by
  have hpow := pow_bits_le hbits
  constructor
  · rintro ⟨⟨hv0, hv⟩, hword⟩
    have hback := ofBytes_encodeWord_of_nonneg hv0 (lt_of_lt_of_le hv hpow)
    rw [← hword] at hback
    exact ⟨hback.symm, hv⟩
  · rintro ⟨hv, hlt⟩
    refine ⟨⟨?_, hlt⟩, ?_⟩
    · rw [hv]
      exact Int.natCast_nonneg _
    · rw [hv, encodeWord_ofBytes h]

/-- **The words of a signed type** are those whose number, with its sign, fits its bits. -/
theorem isEncoding_int_iff {bits : ℕ} (hbits : bits ≤ 256) {v : ℤ} {word : List UInt8}
    (h : word.length = 32) :
    IsEncoding (.int bits) v word ↔
      v = signed (ofBytes word) ∧ -2 ^ (bits - 1) ≤ v ∧ v < 2 ^ (bits - 1) := by
  have hpow := pow_pred_le hbits
  constructor
  · rintro ⟨⟨hv0, hv⟩, hword⟩
    have hlow : -2 ^ 255 ≤ v := by linarith
    have hback := signed_ofBytes_encodeWord hlow (lt_of_lt_of_le hv hpow)
    rw [← hword] at hback
    exact ⟨hback.symm, hv0, hv⟩
  · rintro ⟨hv, hrange⟩
    refine ⟨hrange, ?_⟩
    rw [hv, encodeWord_signed h]

/-! ## Tuples of words -/

/-- The word of data at an index; shorter when the data ends within it. -/
def wordAt (data : List UInt8) (index : ℕ) : List UInt8 := (data.drop (32 * index)).take 32

/-- The static encoding of a tuple: its words one after the other. -/
def encodeTuple (vs : List ℤ) : List UInt8 := vs.flatMap encodeWord

/-- **The first words of data encode the tuple**: each number is one of its type, and the words
are theirs. -/
def EncodesTuple (ts : List WordType) (vs : List ℤ) (data : List UInt8) : Prop :=
  List.Forall₂ WordType.Holds ts vs ∧ data.take (32 * vs.length) = encodeTuple vs

@[simp] theorem length_encodeTuple (vs : List ℤ) : (encodeTuple vs).length = 32 * vs.length := by
  induction vs with
  | nil => rfl
  | cons v vs ih =>
    rw [encodeTuple, List.flatMap_cons, List.length_append, ← encodeTuple, ih, length_encodeWord,
      List.length_cons]
    ring

theorem length_wordAt {data : List UInt8} {index : ℕ} (h : 32 * index + 32 ≤ data.length) :
    (wordAt data index).length = 32 := by
  rw [wordAt, List.length_take, List.length_drop]
  omega

theorem wordAt_zero_append {word rest : List UInt8} (h : word.length = 32) :
    wordAt (word ++ rest) 0 = word := by
  rw [wordAt, Nat.mul_zero, List.drop_zero, ← h, List.take_left]

theorem wordAt_succ_append {word rest : List UInt8} (h : word.length = 32) (index : ℕ) :
    wordAt (word ++ rest) (index + 1) = wordAt rest index := by
  have hdrop : 32 * (index + 1) = word.length + 32 * index := by omega
  rw [wordAt, wordAt, hdrop, List.drop_length_add_append]

/-- The words of an encoded tuple are the encodings of its members. -/
theorem wordAt_encodeTuple {vs : List ℤ} {index : ℕ} {v : ℤ} (h : vs[index]? = some v)
    (rest : List UInt8) : wordAt (encodeTuple vs ++ rest) index = encodeWord v := by
  induction vs generalizing index with
  | nil => simp at h
  | cons w vs ih =>
    rw [encodeTuple, List.flatMap_cons, ← encodeTuple, List.append_assoc]
    cases index with
    | zero =>
      have hw : w = v := by simpa using h
      rw [wordAt_zero_append (length_encodeWord w), hw]
    | succ index => rw [wordAt_succ_append (length_encodeWord w), ih (by simpa using h)]

/-- Data whose words are the encodings of the members starts with the tuple's encoding. -/
theorem take_eq_encodeTuple {vs : List ℤ} {data : List UInt8}
    (h : ∀ index v, vs[index]? = some v → wordAt data index = encodeWord v) :
    data.take (32 * vs.length) = encodeTuple vs := by
  induction vs generalizing data with
  | nil => rfl
  | cons v vs ih =>
    have hfirst : data.take 32 = encodeWord v := by
      simpa [wordAt] using h 0 v rfl
    have hrest : (data.drop 32).take (32 * vs.length) = encodeTuple vs := by
      refine ih fun index w hw => ?_
      have hword := h (index + 1) w (by simpa using hw)
      rw [← hword, wordAt, wordAt, List.drop_drop]
      congr 2
      ring
    have hlen : 32 * (v :: vs).length = 32 + 32 * vs.length := by
      rw [List.length_cons]
      ring
    rw [hlen, List.take_add, hfirst, hrest]
    rfl

/-- **A tuple's encoding, word by word**: there are enough words, and each encodes its member. -/
theorem encodesTuple_iff {ts : List WordType} {vs : List ℤ} {data : List UInt8} :
    EncodesTuple ts vs data ↔ ts.length = vs.length ∧ 32 * vs.length ≤ data.length ∧
      ∀ index t v, ts[index]? = some t → vs[index]? = some v →
        IsEncoding t v (wordAt data index) := by
  constructor
  · rintro ⟨hholds, htake⟩
    have hlen := congrArg List.length htake
    rw [List.length_take, length_encodeTuple] at hlen
    refine ⟨hholds.length_eq, by omega, fun index t v ht hv => ⟨?_, ?_⟩⟩
    · obtain ⟨hi, rfl⟩ := List.getElem?_eq_some_iff.mp ht
      obtain ⟨hi', rfl⟩ := List.getElem?_eq_some_iff.mp hv
      exact hholds.get hi hi'
    · rw [← List.take_append_drop (32 * vs.length) data, htake, wordAt_encodeTuple hv]
  · rintro ⟨hlen, hdata, hwords⟩
    refine ⟨List.forall₂_iff_get.mpr ⟨hlen, fun i hi hi' => ?_⟩, ?_⟩
    · exact (hwords i _ _ (List.getElem?_eq_getElem hi) (List.getElem?_eq_getElem hi')).1
    · refine take_eq_encodeTuple fun index v hv => ?_
      obtain ⟨hi', -⟩ := List.getElem?_eq_some_iff.mp hv
      have hi : index < ts.length := by omega
      exact (hwords index _ v (List.getElem?_eq_getElem hi) hv).2

end TraderStack.Lib.Abi
