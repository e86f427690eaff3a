/-
Quotations can be read back. A symbol is written as one character, or as a backslash, a letter and as many
digits as that letter asks for; so a quotation tells what was quoted, byte by byte.
-/
import BlochSphere.Text.Quoted
import BlochSphere.Proofs.Text.Utf8
import Mathlib

namespace BlochSphere.Text

/-! ## Hexadecimal digits -/

def hexDigitValue (c : Char) : ℕ := if c.toNat < 0x3A then c.toNat - 0x30 else c.toNat - 0x57

def hexValue (digits : List Char) : ℕ := digits.foldl (fun n c => n * 16 + hexDigitValue c) 0

theorem hexDigitValue_digitChar : ∀ d < 16, hexDigitValue (Nat.digitChar d) = d := by decide

theorem length_hexDigits (width n : ℕ) : (hexDigits width n).length = width := by
  induction width generalizing n with
  | zero => rfl
  | succ width ih => simp [hexDigits, ih]

theorem hexValue_hexDigits (width n : ℕ) : hexValue (hexDigits width n) = n % 16 ^ width := by
  induction width generalizing n with
  | zero => rw [Nat.pow_zero, Nat.mod_one]; rfl
  | succ width ih =>
    have hlast : hexValue (hexDigits width (n / 16) ++ [Nat.digitChar (n % 16)]) =
        hexValue (hexDigits width (n / 16)) * 16 + n % 16 := by
      simp [hexValue, hexDigitValue_digitChar (n % 16) (Nat.mod_lt n (by decide))]
    rw [hexDigits, hlast, ih, Nat.pow_succ, Nat.mul_comm (16 ^ width) 16, Nat.mod_mul]
    omega

theorem hexValue_of_lt {width n : ℕ} (h : n < 16 ^ width) : hexValue (hexDigits width n) = n := by
  rw [hexValue_hexDigits, Nat.mod_eq_of_lt h]

/-! ## Escapes -/

/-- How many digits follow the letter of an escape. -/
def escapeWidth : Char → ℕ
  | 'x' => 2
  | 'u' => 4
  | 'U' => 8
  | _ => 0

/-- What the escape of a letter and its digits stands for. -/
def unescape (letter : Char) (digits : List Char) : Symbol :=
  match letter with
  | 'a' => .char '\x07'
  | 'b' => .char '\x08'
  | 'f' => .char '\x0c'
  | 'n' => .char '\n'
  | 'r' => .char '\r'
  | 't' => .char '\t'
  | 'v' => .char '\x0b'
  | 'x' =>
    if hexValue digits < 0x80 then .char (Char.ofNat (hexValue digits))
    else .stray (UInt8.ofNat (hexValue digits))
  | 'u' | 'U' => .char (Char.ofNat (hexValue digits))
  | c => .char c

/-- A stray byte is no character by itself. -/
def Symbol.Proper (s : Symbol) : Prop := ∀ b, s = .stray b → 0x80 ≤ b.toNat

theorem escapeChar_spec (c : Char) : ∃ letter digits, escapeChar c = '\\' :: letter :: digits ∧
    digits.length = escapeWidth letter ∧ unescape letter digits = .char c := by
  have hc : Char.ofNat c.toNat = c := Char.ofNat_toNat c
  have hlt : c.toNat < 16 ^ 8 := by
    have : c.val.toNat.isValidChar := c.valid
    unfold Nat.isValidChar at this
    rw [Char.toNat_val] at this
    omega
  unfold escapeChar
  generalize c.toNat = n at hc hlt
  subst hc
  split
  any_goals exact ⟨_, _, rfl, rfl, rfl⟩
  split_ifs with h2 h4
  · have h2 : n < 0x80 := by
      simp at h2
      omega
    refine ⟨_, _, rfl, length_hexDigits 2 n, ?_⟩
    rw [unescape, hexValue_of_lt (by omega), if_pos h2]
  · refine ⟨_, _, rfl, length_hexDigits 4 n, ?_⟩
    rw [unescape, hexValue_of_lt (by omega)]
  · refine ⟨_, _, rfl, length_hexDigits 8 n, ?_⟩
    rw [unescape, hexValue_of_lt hlt]

theorem quoteSymbol_spec {s : Symbol} (h : s.Proper) :
    (∃ c, c ≠ '\\' ∧ c ≠ '"' ∧ s = .char c ∧ quoteSymbol '"' s = [c]) ∨
    ∃ letter digits, quoteSymbol '"' s = '\\' :: letter :: digits ∧
      digits.length = escapeWidth letter ∧ unescape letter digits = s := by
  cases s with
  | stray b =>
    have hb := h b rfl
    refine .inr ⟨_, _, rfl, length_hexDigits 2 _, ?_⟩
    rw [unescape, hexValue_of_lt b.toNat_lt, if_neg (by omega), UInt8.ofNat_toNat]
  | char c =>
    unfold quoteSymbol
    dsimp only
    split_ifs with hquote hprint
    · refine .inr ⟨c, [], rfl, ?_⟩
      simp at hquote
      rcases hquote with rfl | rfl
      · exact ⟨rfl, rfl⟩
      · exact ⟨rfl, rfl⟩
    · simp at hquote
      exact .inl ⟨c, hquote.2, hquote.1, rfl, rfl⟩
    · exact .inr (escapeChar_spec c)

/-! ## Quotations -/

theorem quoteSymbol_append_inj {s t : Symbol} (hs : s.Proper) (ht : t.Proper) {l m : List Char}
    (h : quoteSymbol '"' s ++ l = quoteSymbol '"' t ++ m) : s = t ∧ l = m := by
  rcases quoteSymbol_spec hs with ⟨c, hc, -, rfl, hq⟩ | ⟨letter, digits, hq, hlen, hval⟩
  · rcases quoteSymbol_spec ht with ⟨d, -, -, rfl, hq'⟩ | ⟨letter', digits', hq', -, -⟩
    · rw [hq, hq'] at h
      obtain ⟨rfl, hl⟩ := List.cons.inj h
      exact ⟨rfl, hl⟩
    · rw [hq, hq'] at h
      exact absurd (List.cons.inj h).1 hc
  · rcases quoteSymbol_spec ht with ⟨d, hd, -, rfl, hq'⟩ | ⟨letter', digits', hq', hlen', hval'⟩
    · rw [hq, hq'] at h
      exact absurd (List.cons.inj h).1.symm hd
    · rw [hq, hq'] at h
      simp only [List.cons_append, List.cons.injEq, true_and] at h
      obtain ⟨rfl, h⟩ := h
      obtain ⟨rfl, hl⟩ := List.append_inj h (hlen.trans hlen'.symm)
      exact ⟨hval.symm.trans hval', hl⟩

theorem quoteSymbol_ne_quote {s : Symbol} (hs : s.Proper) {l m : List Char} :
    quoteSymbol '"' s ++ l ≠ '"' :: m := by
  intro h
  rcases quoteSymbol_spec hs with ⟨c, -, hc, rfl, hq⟩ | ⟨letter, digits, hq, -, -⟩
  · rw [hq] at h
    exact hc (List.cons.inj h).1
  · rw [hq] at h
    exact absurd (List.cons.inj h).1 (by decide)

theorem flatMap_quoteSymbol_inj {symbols others : List Symbol} (hs : ∀ s ∈ symbols, s.Proper)
    (ho : ∀ s ∈ others, s.Proper)
    (h : symbols.flatMap (quoteSymbol '"') ++ ['"'] = others.flatMap (quoteSymbol '"') ++ ['"']) :
    symbols = others := by
  induction symbols generalizing others with
  | nil =>
    cases others with
    | nil => rfl
    | cons t others =>
      rw [List.flatMap_cons, List.append_assoc] at h
      exact absurd h.symm (quoteSymbol_ne_quote (ho t List.mem_cons_self))
  | cons s symbols ih =>
    rw [List.flatMap_cons, List.append_assoc] at h
    cases others with
    | nil => exact absurd h (quoteSymbol_ne_quote (hs s List.mem_cons_self))
    | cons t others =>
      rw [List.flatMap_cons, List.append_assoc] at h
      obtain ⟨rfl, hrest⟩ := quoteSymbol_append_inj (hs s List.mem_cons_self) (ho t List.mem_cons_self) h
      rw [ih (fun u hu => hs u (List.mem_cons_of_mem s hu)) (fun u hu => ho u (List.mem_cons_of_mem s hu)) hrest]

theorem proper_of_mem_decode (bytes : List UInt8) : ∀ s ∈ Utf8.decode bytes, s.Proper := by
  induction bytes using Utf8.decode_induction with
  | nil => exact fun s hs => absurd hs List.not_mem_nil
  | char c rest ih =>
    rw [Utf8.decode_encodeChar_append]
    intro s hs
    rcases List.mem_cons.1 hs with rfl | hs
    · exact fun b hb => by cases hb
    · exact ih s hs
  | stray a rest hfirst ih =>
    rw [Utf8.decode_stray hfirst]
    intro s hs
    rcases List.mem_cons.1 hs with rfl | hs
    · rintro b ⟨⟩
      by_contra ha
      have ha : a < 0x80 := UInt8.lt_iff_toNat_lt.2 (Nat.lt_of_not_le ha)
      rw [Utf8.first?.eq_def, if_pos ha] at hfirst
      cases hfirst
    · exact ih s hs

/-- A quotation tells which bytes were quoted. -/
theorem quoted_decode_inj {bytes others : List UInt8}
    (h : quoted (Utf8.decode bytes) = quoted (Utf8.decode others)) : bytes = others := by
  have hchars := List.cons.inj (String.ofList_injective h)
  have hsymbols := flatMap_quoteSymbol_inj (proper_of_mem_decode bytes) (proper_of_mem_decode others) hchars.2
  rw [← Utf8.flatMap_bytes_decode bytes, hsymbols, Utf8.flatMap_bytes_decode]

end BlochSphere.Text
