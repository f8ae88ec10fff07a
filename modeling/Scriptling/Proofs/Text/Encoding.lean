import Scriptling.Text.Lines

/-!
# Texts as bytes

A text is kept as the bytes of its characters one behind the other (`Text.encode_eq_flatMap`),
and bytes are text exactly if they came about in this way (`Text.decode?_eq_some_iff`).

Two facts about the bytes are used elsewhere. The byte of a line feed is in no other character
(`Text.lineFeed_mem_utf8EncodeChar`), so that lines can be cut before anything is decoded. And
texts are in the order of their bytes (`Text.encode_lt_encode`): a character of more bytes begins
with a larger byte, and among characters of as many bytes the bytes are digits, the highest one
first.
-/

namespace Scriptling.Text

/-! ## Encoding and decoding -/

theorem toList_loop_eq (bytes : ByteArray) (i : Nat) (done : List UInt8) :
    ByteArray.toList.loop bytes i done = done.reverse ++ bytes.data.toList.drop i := by
  fun_induction ByteArray.toList.loop bytes i done with
  | case1 i done hi ih =>
    have hlt : i < bytes.data.toList.length := hi
    have hget : bytes.get! i = bytes.data.toList[i] := getElem!_pos bytes.data i hlt
    rw [ih, hget, List.drop_eq_getElem_cons hlt, List.reverse_cons, List.append_assoc]
    rfl
  | case2 i done hi =>
    have hle : bytes.data.toList.length ≤ i := Nat.le_of_not_lt hi
    rw [List.drop_eq_nil_of_le hle, List.append_nil]

theorem encode_eq_data (s : String) : encode s = s.toByteArray.data.toList := by
  rw [encode, ByteArray.toList, toList_loop_eq, List.reverse_nil, List.nil_append, List.drop_zero,
    String.toUTF8_eq_toByteArray]

/-- A text is encoded character by character. -/
theorem encode_eq_flatMap (s : String) : encode s = s.toList.flatMap String.utf8EncodeChar := by
  rw [encode_eq_data, ← String.ofList_toList (s := s), String.toByteArray_ofList, List.utf8Encode,
    List.toList_data_toByteArray, String.toList_ofList]

/-- **Bytes are the text** that they encode, and no other bytes are. -/
theorem decode?_eq_some_iff {bytes : List UInt8} {s : String} :
    decode? bytes = some s ↔ bytes = encode s := by
  rw [decode?, String.fromUTF8?, encode_eq_data]
  constructor
  · intro h
    split at h
    · obtain rfl := Option.some.inj h
      rfl
    · cases h
  · rintro rfl
    rw [dif_pos s.isValidUTF8]
    rfl

/-- Numbers below 256 are kept as bytes. -/
theorem toNat_ofNat {n : Nat} (hn : n < 256) : (UInt8.ofNat n).toNat = n :=
  UInt8.toNat_ofNat_of_lt' hn

/-! ## The bytes of a character -/

/-- Writes the last bits of a number in one byte, above a mark. -/
def marked (base mark n : Nat) : List UInt8 :=
  [.ofNat (n % base + mark)]

/-- Writes the last six bits of a number in a byte behind all others. -/
def continued (write : Nat → List UInt8) (n : Nat) : List UInt8 :=
  write (n / 64) ++ marked 64 128 n

/-- Writes numbers below the bound in one way and the others in another way. -/
def choosing (bound : Nat) (write write' : Nat → List UInt8) (n : Nat) : List UInt8 :=
  if n < bound then write n else write' n

/-- A character is written in one to four bytes. -/
theorem utf8EncodeChar_eq (c : Char) :
    String.utf8EncodeChar c =
      choosing 128 (marked 128 0) (choosing 2048 (continued (marked 32 192))
        (choosing 65536 (continued (continued (marked 16 224)))
          (continued (continued (continued (marked 8 240)))))) c.toNat := by
  have hdiv (n : Nat) : n / 64 / 64 = n / 4096 := Nat.div_div_eq_div_mul n 64 64
  have hdiv' (n : Nat) : n / 4096 / 64 = n / 262144 := Nat.div_div_eq_div_mul n 4096 64
  have hval : c.val.toNat = c.toNat := rfl
  simp only [String.utf8EncodeChar, choosing, continued, marked, hdiv, hdiv', hval,
    List.cons_append, List.nil_append, Nat.lt_succ_iff]
  split
  · next hascii => rw [Nat.mod_eq_of_lt (b := 128) (Nat.lt_succ_of_le hascii), Nat.add_zero]
  · rfl

/-- No byte is one of a character of one byte. -/
def Large (write : Nat → List UInt8) : Prop :=
  ∀ n, ∀ byte ∈ write n, 128 ≤ byte.toNat

theorem large_marked {base mark : Nat} (hbase : 0 < base) (hlow : 128 ≤ mark)
    (hhigh : mark + base ≤ 256) : Large (marked base mark) := by
  intro n byte hbyte
  have hn := Nat.mod_lt n hbase
  obtain rfl := List.mem_singleton.mp hbyte
  rw [toNat_ofNat (by omega)]
  omega

theorem Large.continued {write : Nat → List UInt8} (h : Large write) : Large (continued write) := by
  intro n byte hbyte
  rcases List.mem_append.mp hbyte with hbyte | hbyte
  · exact h _ byte hbyte
  · exact large_marked (by decide) (by decide) (by decide) _ byte hbyte

theorem Large.choosing {write write' : Nat → List UInt8} (h : Large write) (h' : Large write')
    (bound : Nat) : Large (choosing bound write write') := by
  intro n byte hbyte
  rw [Text.choosing] at hbyte
  split at hbyte
  · exact h n byte hbyte
  · exact h' n byte hbyte

/-- **Only a line feed has the byte of a line feed.** -/
theorem lineFeed_mem_utf8EncodeChar {c : Char} (h : lineFeed ∈ String.utf8EncodeChar c) :
    c = '\n' := by
  have htwo : Large (marked 32 192) := large_marked (by decide) (by decide) (by decide)
  have hthree : Large (marked 16 224) := large_marked (by decide) (by decide) (by decide)
  have hfour : Large (marked 8 240) := large_marked (by decide) (by decide) (by decide)
  rw [utf8EncodeChar_eq, choosing] at h
  split at h
  · next hascii =>
    have hbyte := congrArg UInt8.toNat (List.mem_singleton.mp h)
    rw [Nat.mod_eq_of_lt hascii, toNat_ofNat (by omega)] at hbyte
    exact Char.toNat_inj.mp hbyte.symm
  · have hlarge := htwo.continued.choosing
      (hthree.continued.continued.choosing hfour.continued.continued.continued 65536) 2048
    exact absurd (hlarge _ _ h) (by decide)

/-! ## The order of texts -/

/-- What is written for a number begins with a byte from `low` to below `high`. Numbers below
the bound are in the order of what is written for them, whatever follows it. -/
structure Ordered (write : Nat → List UInt8) (bound low high : Nat) : Prop where
  /-- the first byte -/
  first : ∀ n, ∃ byte rest, write n = byte :: rest ∧ low ≤ byte.toNat ∧ byte.toNat < high
  /-- the order -/
  lt : ∀ ⦃m n : Nat⦄, m < n → n < bound → ∀ xs ys, write m ++ xs < write n ++ ys

theorem marked_append_lt {base mark m n : Nat} (hmn : m % base < n % base)
    (hn : n % base + mark < 256) (xs ys : List UInt8) :
    marked base mark m ++ xs < marked base mark n ++ ys := by
  refine List.cons_lt_cons_iff.mpr (Or.inl (UInt8.lt_iff_toNat_lt.mpr ?_))
  rw [toNat_ofNat (by omega), toNat_ofNat hn]
  omega

theorem ordered_marked {base mark : Nat} (hbase : 0 < base) (h : mark + base ≤ 256) :
    Ordered (marked base mark) base mark (mark + base) where
  first n := by
    have hn := Nat.mod_lt n hbase
    refine ⟨_, [], rfl, ?_⟩
    rw [toNat_ofNat (by omega)]
    omega
  lt m n hmn hn := by
    have hm : m < base := Nat.lt_trans hmn hn
    apply marked_append_lt
    · rwa [Nat.mod_eq_of_lt hm, Nat.mod_eq_of_lt hn]
    · rw [Nat.mod_eq_of_lt hn]
      omega

namespace Ordered

variable {write write' : Nat → List UInt8} {bound bound' low high low' high' : Nat}

theorem continued (h : Ordered write bound low high) :
    Ordered (continued write) (bound * 64) low high where
  first n := by
    obtain ⟨byte, rest, hwrite, hbyte⟩ := h.first (n / 64)
    exact ⟨byte, rest ++ marked 64 128 n, by rw [Text.continued, hwrite, List.cons_append], hbyte⟩
  lt m n hmn hn xs ys := by
    rw [Text.continued, Text.continued, List.append_assoc, List.append_assoc]
    rcases Nat.lt_or_eq_of_le (Nat.div_le_div_right (c := 64) (Nat.le_of_lt hmn)) with hlt | heq
    · exact h.lt hlt (by omega) _ _
    · -- only the last six bits differ
      rw [heq]
      exact List.append_left_lt (marked_append_lt (by omega) (by omega) xs ys)

theorem choosing (h : Ordered write bound low high) (h' : Ordered write' bound' low' high')
    (hbytes : high ≤ low') : Ordered (choosing bound write write') bound' low high' where
  first n := by
    obtain ⟨byte, rest, hwrite, hlow, hhigh⟩ := h.first n
    obtain ⟨byte', rest', hwrite', hlow', hhigh'⟩ := h'.first n
    rw [Text.choosing]
    split
    · exact ⟨byte, rest, hwrite, hlow, by omega⟩
    · exact ⟨byte', rest', hwrite', by omega, hhigh'⟩
  lt m n hmn hn xs ys := by
    rw [Text.choosing, Text.choosing]
    split <;> split
    · next _ hn' => exact h.lt hmn hn' xs ys
    · -- the two ways are told apart by the first byte
      obtain ⟨byte, rest, hwrite, -, hhigh⟩ := h.first m
      obtain ⟨byte', rest', hwrite', hlow', -⟩ := h'.first n
      rw [hwrite, hwrite']
      refine List.cons_lt_cons_iff.mpr (Or.inl (UInt8.lt_iff_toNat_lt.mpr ?_))
      omega
    · omega
    · exact h'.lt hmn hn xs ys

end Ordered

/-- **Characters are in the order of their bytes**, whatever follows. -/
theorem utf8EncodeChar_append_lt {c d : Char} (h : c < d) (xs ys : List UInt8) :
    String.utf8EncodeChar c ++ xs < String.utf8EncodeChar d ++ ys := by
  have hone : Ordered (marked 128 0) 128 0 128 := ordered_marked (by decide) (by decide)
  have htwo : Ordered (marked 32 192) 32 192 224 := ordered_marked (by decide) (by decide)
  have hthree : Ordered (marked 16 224) 16 224 240 := ordered_marked (by decide) (by decide)
  have hfour : Ordered (marked 8 240) 8 240 248 := ordered_marked (by decide) (by decide)
  have hforms := hone.choosing (htwo.continued.choosing
    (hthree.continued.continued.choosing hfour.continued.continued.continued (by decide))
    (by decide)) (by decide)
  rw [utf8EncodeChar_eq, utf8EncodeChar_eq]
  have hlt : c.toNat < d.toNat := h
  have hvalid : d.toNat.isValidChar := d.valid
  exact hforms.lt hlt (by simp only [Nat.isValidChar] at hvalid; omega) xs ys

/-- **Texts are in the order of their bytes.** -/
theorem encode_lt_encode {s t : String} (h : s < t) : encode s < encode t := by
  have hchars : s.toList < t.toList := String.lt_iff.mp h
  rw [encode_eq_flatMap, encode_eq_flatMap]
  generalize s.toList = cs, t.toList = ds at hchars
  induction hchars with
  | @nil d ds =>
    obtain ⟨byte, rest, hbytes⟩ := List.exists_cons_of_ne_nil (String.utf8EncodeChar_ne_nil (c := d))
    rw [List.flatMap_nil, List.flatMap_cons, hbytes]
    exact List.nil_lt_cons byte _
  | cons _ ih => exact List.append_left_lt ih
  | rel hlt => exact utf8EncodeChar_append_lt hlt _ _

end Scriptling.Text
