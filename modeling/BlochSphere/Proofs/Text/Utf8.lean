/-
Reading bytes as text. Reading loses nothing: the bytes of the symbols that were read are the bytes
that were given. A character is read from its bytes whatever follows them, and reading can be cut in
front of any byte that does not continue a character.
-/
import BlochSphere.Text.Utf8
import Mathlib.Data.Char

namespace BlochSphere.Text

/-- The bytes that a symbol is read from. -/
def Symbol.bytes : Symbol → List UInt8
  | .char c => String.utf8EncodeChar c
  | .stray b => [b]

namespace Utf8

/-! ## The bytes of a text -/

theorem toList_loop_eq (bytes : ByteArray) (i : ℕ) (done : List UInt8) :
    ByteArray.toList.loop bytes i done = done.reverse ++ bytes.data.toList.drop i := by
  fun_induction ByteArray.toList.loop bytes i done with
  | case1 i done h ih =>
    have hi : i < bytes.data.toList.length := by simpa using h
    rw [ih, List.drop_eq_getElem_cons hi]
    simp [ByteArray.get!, h]
  | case2 i done h =>
    rw [List.drop_eq_nil_of_le (by simpa using Nat.le_of_not_lt h)]
    simp

theorem encode_ofList (cs : List Char) : encode (String.ofList cs) = cs.flatMap String.utf8EncodeChar := by
  unfold encode
  rw [String.toUTF8_eq_toByteArray, String.toByteArray_ofList, List.utf8Encode, ByteArray.toList,
    toList_loop_eq, List.data_toByteArray]
  simp

/-! ## One character -/

theorem isTail_iff (b : UInt8) : isTail b = true ↔ 0x80 ≤ b.toNat ∧ b.toNat ≤ 0xBF := by
  simp [isTail, UInt8.le_iff_toNat_le]

theorem isTwo_iff (a b : UInt8) : isTwo a b = true ↔ 0xC2 ≤ a.toNat ∧ a.toNat ≤ 0xDF ∧ isTail b := by
  simp [isTwo, UInt8.le_iff_toNat_le, and_assoc]

theorem isThree_iff (a b c : UInt8) : isThree a b c = true ↔
    0xE0 ≤ a.toNat ∧ a.toNat ≤ 0xEF ∧ isTail b ∧ isTail c ∧
      (a.toNat = 0xE0 → 0xA0 ≤ b.toNat) ∧ (a.toNat = 0xED → b.toNat ≤ 0x9F) := by
  simp [isThree, UInt8.le_iff_toNat_le, and_assoc, ← UInt8.toNat_inj, ← imp_iff_not_or]

theorem isFour_iff (a b c d : UInt8) : isFour a b c d = true ↔
    0xF0 ≤ a.toNat ∧ a.toNat ≤ 0xF4 ∧ isTail b ∧ isTail c ∧ isTail d ∧
      (a.toNat = 0xF0 → 0x90 ≤ b.toNat) ∧ (a.toNat = 0xF4 → b.toNat ≤ 0x8F) := by
  simp [isFour, UInt8.le_iff_toNat_le, and_assoc, ← UInt8.toNat_inj, ← imp_iff_not_or]

theorem val_ofNat {n : ℕ} (h : n.isValidChar) : (Char.ofNat n).val.toNat = n := by
  unfold Char.ofNat
  rw [dif_pos h]
  rfl

theorem ofNat_eq {n : ℕ} {b : UInt8} (h : n = b.toNat) : UInt8.ofNat n = b := by
  rw [h, UInt8.ofNat_toNat]

theorem encodeChar_one {a : UInt8} (h : a < 0x80) : String.utf8EncodeChar (Char.ofNat a.toNat) = [a] := by
  have h : a.toNat < 0x80 := UInt8.lt_iff_toNat_lt.1 h
  have hv := val_ofNat (n := a.toNat) (.inl (by omega))
  simp only [String.utf8EncodeChar, hv]
  rw [if_pos (by omega), ofNat_eq rfl]

theorem encodeChar_two {a b : UInt8} (h : isTwo a b = true) :
    String.utf8EncodeChar (Char.ofNat (two a b)) = [a, b] := by
  rw [isTwo_iff, isTail_iff] at h
  have hv := val_ofNat (n := two a b) (.inl (by unfold two; omega))
  simp only [String.utf8EncodeChar, hv]
  unfold two
  rw [if_neg (by omega), if_pos (by omega), ofNat_eq (b := a) (by omega), ofNat_eq (b := b) (by omega)]

theorem encodeChar_three {a b c : UInt8} (h : isThree a b c = true) :
    String.utf8EncodeChar (Char.ofNat (three a b c)) = [a, b, c] := by
  rw [isThree_iff, isTail_iff, isTail_iff] at h
  have hv := val_ofNat (n := three a b c) (by unfold three Nat.isValidChar; omega)
  simp only [String.utf8EncodeChar, hv]
  unfold three
  rw [if_neg (by omega), if_neg (by omega), if_pos (by omega), ofNat_eq (b := a) (by omega),
    ofNat_eq (b := b) (by omega), ofNat_eq (b := c) (by omega)]

theorem encodeChar_four {a b c d : UInt8} (h : isFour a b c d = true) :
    String.utf8EncodeChar (Char.ofNat (four a b c d)) = [a, b, c, d] := by
  rw [isFour_iff, isTail_iff, isTail_iff, isTail_iff] at h
  have hv := val_ofNat (n := four a b c d) (by unfold four Nat.isValidChar; omega)
  simp only [String.utf8EncodeChar, hv]
  unfold four
  rw [if_neg (by omega), if_neg (by omega), if_neg (by omega), ofNat_eq (b := a) (by omega),
    ofNat_eq (b := b) (by omega), ofNat_eq (b := c) (by omega), ofNat_eq (b := d) (by omega)]

theorem first?_cases {a : UInt8} {rest : List UInt8} {r : Char × ℕ} (h : first? a rest = some r) :
    a < 0x80 ∧ r = (Char.ofNat a.toNat, 0) ∨
    (∃ b t, rest = b :: t ∧ isTwo a b ∧ r = (Char.ofNat (two a b), 1)) ∨
    (∃ b c t, rest = b :: c :: t ∧ isThree a b c ∧ r = (Char.ofNat (three a b c), 2)) ∨
    ∃ b c d t, rest = b :: c :: d :: t ∧ isFour a b c d ∧ r = (Char.ofNat (four a b c d), 3) := by
  unfold first? at h
  split at h
  · exact .inl ⟨‹_›, (Option.some.inj h).symm⟩
  · split at h <;> grind

/-- What is read as a character is the bytes of that character. -/
theorem encodeChar_of_first? {a : UInt8} {rest : List UInt8} {c : Char} {used : ℕ}
    (h : first? a rest = some (c, used)) :
    used ≤ rest.length ∧ String.utf8EncodeChar c = a :: rest.take used := by
  rcases first?_cases h with ⟨h1, hr⟩ | ⟨b, t, rfl, h2, hr⟩ | ⟨b, c', t, rfl, h3, hr⟩ | ⟨b, c', d, t, rfl, h4, hr⟩
  · rw [(Prod.mk.inj hr).1, (Prod.mk.inj hr).2, encodeChar_one h1]
    simp
  · rw [(Prod.mk.inj hr).1, (Prod.mk.inj hr).2, encodeChar_two h2]
    simp
  · rw [(Prod.mk.inj hr).1, (Prod.mk.inj hr).2, encodeChar_three h3]
    simp
  · rw [(Prod.mk.inj hr).1, (Prod.mk.inj hr).2, encodeChar_four h4]
    simp

theorem not_lt_of_le {a : UInt8} (h : 0x80 ≤ a.toNat) : ¬ a < 0x80 := by
  rw [UInt8.lt_iff_toNat_lt]
  exact Nat.not_lt.2 h

theorem first?_two {a b : UInt8} (h : isTwo a b = true) (rest : List UInt8) :
    first? a (b :: rest) = some (Char.ofNat (two a b), 1) := by
  have ha := ((isTwo_iff a b).1 h).1
  have h1 : ¬ a < 0x80 := not_lt_of_le (by omega)
  rcases rest with _ | ⟨c, _ | ⟨d, rest⟩⟩ <;> simp [first?, h, h1]

theorem first?_three {a b c : UInt8} (h : isThree a b c = true) (rest : List UInt8) :
    first? a (b :: c :: rest) = some (Char.ofNat (three a b c), 2) := by
  have ha := ((isThree_iff a b c).1 h).1
  have h1 : ¬ a < 0x80 := not_lt_of_le (by omega)
  have h2 : ¬ isTwo a b = true := by
    rw [isTwo_iff]
    omega
  rcases rest with _ | ⟨d, rest⟩ <;> simp [first?, h, h1, h2]

theorem first?_four {a b c d : UInt8} (h : isFour a b c d = true) (rest : List UInt8) :
    first? a (b :: c :: d :: rest) = some (Char.ofNat (four a b c d), 3) := by
  have ha := ((isFour_iff a b c d).1 h).1
  have h1 : ¬ a < 0x80 := not_lt_of_le (by omega)
  have h2 : ¬ isTwo a b = true := by
    rw [isTwo_iff]
    omega
  have h3 : ¬ isThree a b c = true := by
    rw [isThree_iff]
    omega
  simp [first?, h, h1, h2, h3]

theorem toNat_ofNat {n : ℕ} (h : n < 256) : (UInt8.ofNat n).toNat = n := by
  rw [UInt8.toNat_ofNat']
  omega

theorem not_isTail {b : UInt8} (h : b.toNat < 0x80 ∨ 0xBF < b.toNat) : isTail b = false := by
  rw [← Bool.not_eq_true, isTail_iff]
  omega

/-- A character is read from its bytes, whatever follows them. All of them but the first continue it. -/
theorem first?_encodeChar (c : Char) : ∃ a tail, String.utf8EncodeChar c = a :: tail ∧
    isTail a = false ∧ (∀ b ∈ tail, isTail b = true) ∧
    ∀ rest, first? a (tail ++ rest) = some (c, tail.length) := by
  have hvalid : c.val.toNat.isValidChar := c.valid
  have hc : Char.ofNat c.val.toNat = c := Char.ofNat_toNat c
  unfold String.utf8EncodeChar
  generalize c.val.toNat = v at hvalid hc
  subst hc
  unfold Nat.isValidChar at hvalid
  dsimp only
  split_ifs with h1 h2 h3
  · have ha := toNat_ofNat (n := v) (by omega)
    generalize UInt8.ofNat v = a at ha
    subst ha
    have h : a < 0x80 := UInt8.lt_iff_toNat_lt.2 (Nat.lt_succ_of_le h1)
    exact ⟨a, [], rfl, not_isTail (by omega), by simp, fun rest => by simp [first?, h]⟩
  · have ha := toNat_ofNat (n := v / 64 % 32 + 192) (by omega)
    have hb := toNat_ofNat (n := v % 64 + 128) (by omega)
    generalize UInt8.ofNat (v / 64 % 32 + 192) = a at ha
    generalize UInt8.ofNat (v % 64 + 128) = b at hb
    have h : isTwo a b = true := by
      rw [isTwo_iff, isTail_iff]
      omega
    have hv : two a b = v := by
      unfold two
      omega
    refine ⟨a, [b], rfl, not_isTail (by omega), ?_, fun rest => ?_⟩
    · simpa using ((isTwo_iff a b).1 h).2.2
    · rw [List.cons_append, first?_two h, hv, List.length_singleton]
  · have ha := toNat_ofNat (n := v / 4096 % 16 + 224) (by omega)
    have hb := toNat_ofNat (n := v / 64 % 64 + 128) (by omega)
    have hc := toNat_ofNat (n := v % 64 + 128) (by omega)
    generalize UInt8.ofNat (v / 4096 % 16 + 224) = a at ha
    generalize UInt8.ofNat (v / 64 % 64 + 128) = b at hb
    generalize UInt8.ofNat (v % 64 + 128) = c at hc
    have h : isThree a b c = true := by
      rw [isThree_iff, isTail_iff, isTail_iff]
      omega
    have hv : three a b c = v := by
      unfold three
      omega
    refine ⟨a, [b, c], rfl, not_isTail (by omega), ?_, fun rest => ?_⟩
    · obtain ⟨-, -, hb, hc, -⟩ := (isThree_iff a b c).1 h
      simpa using ⟨hb, hc⟩
    · rw [List.cons_append, List.cons_append, first?_three h, hv]
      rfl
  · have ha := toNat_ofNat (n := v / 262144 % 8 + 240) (by omega)
    have hb := toNat_ofNat (n := v / 4096 % 64 + 128) (by omega)
    have hc := toNat_ofNat (n := v / 64 % 64 + 128) (by omega)
    have hd := toNat_ofNat (n := v % 64 + 128) (by omega)
    generalize UInt8.ofNat (v / 262144 % 8 + 240) = a at ha
    generalize UInt8.ofNat (v / 4096 % 64 + 128) = b at hb
    generalize UInt8.ofNat (v / 64 % 64 + 128) = c at hc
    generalize UInt8.ofNat (v % 64 + 128) = d at hd
    have h : isFour a b c d = true := by
      rw [isFour_iff, isTail_iff, isTail_iff, isTail_iff]
      omega
    have hv : four a b c d = v := by
      unfold four
      omega
    refine ⟨a, [b, c, d], rfl, not_isTail (by omega), ?_, fun rest => ?_⟩
    · obtain ⟨-, -, hb, hc, hd, -⟩ := (isFour_iff a b c d).1 h
      simpa using ⟨hb, hc, hd⟩
    · rw [List.cons_append, List.cons_append, List.cons_append, first?_four h, hv]
      rfl

/-! ## Whole texts -/

theorem decodeAfter_eq (skip : ℕ) (bytes : List UInt8) : decodeAfter skip bytes = decode (bytes.drop skip) := by
  induction skip generalizing bytes with
  | zero => rfl
  | succ skip ih =>
    cases bytes with
    | nil => rfl
    | cons a rest => exact ih rest

theorem decode_encodeChar_append (c : Char) (rest : List UInt8) :
    decode (String.utf8EncodeChar c ++ rest) = .char c :: decode rest := by
  obtain ⟨a, tail, hc, -, -, hfirst⟩ := first?_encodeChar c
  rw [hc, List.cons_append, decode, decodeAfter, hfirst rest]
  simp [decodeAfter_eq]

theorem decode_stray {a : UInt8} {rest : List UInt8} (h : first? a rest = none) :
    decode (a :: rest) = .stray a :: decode rest := by
  rw [decode, decodeAfter, h]
  rfl

/-- Bytes are none, start with a character or start with a stray one. -/
theorem bytes_cases (bytes : List UInt8) : bytes = [] ∨
    (∃ c rest, bytes = String.utf8EncodeChar c ++ rest) ∨
    ∃ a rest, bytes = a :: rest ∧ first? a rest = none := by
  rcases bytes with _ | ⟨a, rest⟩
  · exact .inl rfl
  · cases h : first? a rest with
    | none => exact .inr (.inr ⟨a, rest, rfl, h⟩)
    | some r =>
      obtain ⟨c, used⟩ := r
      have hc := (encodeChar_of_first? h).2
      exact .inr (.inl ⟨c, rest.drop used, by simp [hc]⟩)

/-- An induction over what is read. -/
theorem decode_induction {motive : List UInt8 → Prop} (nil : motive [])
    (char : ∀ c rest, motive rest → motive (String.utf8EncodeChar c ++ rest))
    (stray : ∀ a rest, first? a rest = none → motive rest → motive (a :: rest)) (bytes : List UInt8) :
    motive bytes := by
  induction h : bytes.length using Nat.strong_induction_on generalizing bytes with
  | _ n ih =>
    subst h
    rcases bytes_cases bytes with rfl | ⟨c, rest, rfl⟩ | ⟨a, rest, rfl, h⟩
    · exact nil
    · obtain ⟨a, tail, hc, -⟩ := first?_encodeChar c
      refine char c rest (ih rest.length ?_ rest rfl)
      rw [hc, List.length_append, List.length_cons]
      omega
    · exact stray a rest h (ih rest.length (by simp) rest rfl)

/-- Reading loses nothing. -/
theorem flatMap_bytes_decode (bytes : List UInt8) : (decode bytes).flatMap Symbol.bytes = bytes := by
  induction bytes using decode_induction with
  | nil => rfl
  | char c rest ih => rw [decode_encodeChar_append, List.flatMap_cons, ih, Symbol.bytes]
  | stray a rest h ih => rw [decode_stray h, List.flatMap_cons, ih, Symbol.bytes, List.singleton_append]

/-- Reading can be cut where a byte does not continue a character. -/
theorem decode_append {rest : List UInt8} (h : ∀ b ∈ rest.head?, isTail b = false) (bytes : List UInt8) :
    decode (bytes ++ rest) = decode bytes ++ decode rest := by
  induction bytes using decode_induction with
  | nil => rfl
  | char c bytes ih =>
    rw [List.append_assoc, decode_encodeChar_append, decode_encodeChar_append, ih, List.cons_append]
  | stray a bytes hfirst ih =>
    have hstray : first? a (bytes ++ rest) = none := by
      by_contra hne
      obtain ⟨⟨c, used⟩, hsome⟩ := Option.ne_none_iff_exists'.1 hne
      obtain ⟨hused, hc⟩ := encodeChar_of_first? hsome
      obtain ⟨a', tail, hc', -, htail, hread⟩ := first?_encodeChar c
      obtain ⟨rfl, rfl⟩ := List.cons.inj (hc.symm.trans hc')
      rcases le_or_gt used bytes.length with hle | hlt
      · have := hread (bytes.drop used)
        rw [List.take_append_of_le_length hle, List.take_append_drop, hfirst] at this
        cases this
      · -- the character would go on into the bytes behind the cut
        rcases rest with _ | ⟨b, rest⟩
        · simp at hused
          omega
        · have hb : b ∈ (bytes ++ b :: rest).take used := by
            rw [List.take_append, List.mem_append]
            exact .inr (List.mem_take_iff_getElem.2 ⟨0, by simp; omega, rfl⟩)
          have := h b rfl
          rw [htail b hb] at this
          cases this
    rw [List.cons_append, decode_stray hstray, decode_stray hfirst, ih, List.cons_append]

theorem decode_encode_append (cs : List Char) (rest : List UInt8) :
    decode (cs.flatMap String.utf8EncodeChar ++ rest) = cs.map .char ++ decode rest := by
  induction cs with
  | nil => rfl
  | cons c cs ih =>
    rw [List.flatMap_cons, List.append_assoc, decode_encodeChar_append, ih]
    rfl

end Utf8

end BlochSphere.Text
