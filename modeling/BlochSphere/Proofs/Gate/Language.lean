/-
The language of gate names. A name is read exactly when it is one letter of a gate, in either case or as
the long `ſ`, between two runs of white space; every other name is refused by an error that quotes it as
it was given. Of all characters only few have a capital of the Latin alphabet as their upper case, and the
long `ſ` is one of them.
-/
import BlochSphere.Gate.Parse
import BlochSphere.Proofs.Text.Quoted
import Mathlib.Data.List.TakeWhile

namespace BlochSphere

namespace Text

/-! ## White space -/

/-- The characters with the property `White_Space`. -/
def whiteSpace : List Char :=
  ['\t', '\n', '\x0b', '\x0c', '\r', ' ', '\u0085', '\u00a0', '\u1680', '\u2000', '\u2001',
    '\u2002', '\u2003', '\u2004', '\u2005', '\u2006', '\u2007', '\u2008', '\u2009', '\u200a',
    '\u2028', '\u2029', '\u202f', '\u205f', '\u3000']

theorem isBlank_iff (c : Char) : isBlank c = true ↔ c ∈ whiteSpace := by
  have hmem : c ∈ whiteSpace ↔ c.toNat ∈ whiteSpace.map Char.toNat := by
    rw [List.mem_map]
    constructor
    · exact fun h => ⟨c, h, rfl⟩
    · rintro ⟨d, hd, hdc⟩
      rwa [← Char.toNat_inj.1 hdc]
  rw [hmem]
  simp [isBlank, whiteSpace]
  omega

/-- A run of white space, possibly of no characters. -/
structure Padding where
  chars : List Char
  blank : ∀ c ∈ chars, c ∈ whiteSpace

namespace Padding

def bytes (p : Padding) : List UInt8 := Utf8.encode (String.ofList p.chars)

def symbols (p : Padding) : List Symbol := p.chars.map .char

theorem bytes_eq (p : Padding) : p.bytes = p.chars.flatMap String.utf8EncodeChar := Utf8.encode_ofList p.chars

theorem decode_bytes_append (p : Padding) (rest : List UInt8) :
    Utf8.decode (p.bytes ++ rest) = p.symbols ++ Utf8.decode rest := by
  rw [p.bytes_eq]
  exact Utf8.decode_encode_append p.chars rest

theorem decode_append_bytes (p : Padding) (bytes : List UInt8) :
    Utf8.decode (bytes ++ p.bytes) = Utf8.decode bytes ++ p.symbols := by
  have hp : Utf8.decode p.bytes = p.symbols := by
    simpa [Utf8.decode, Utf8.decodeAfter] using p.decode_bytes_append []
  have hhead : ∀ b ∈ p.bytes.head?, Utf8.isTail b = false := by
    rw [p.bytes_eq]
    rcases p.chars with _ | ⟨c, cs⟩
    · simp
    · obtain ⟨a, tail, hc, ha, -⟩ := Utf8.first?_encodeChar c
      simpa [hc] using ha
  rw [Utf8.decode_append hhead, hp]

theorem isBlank_of_mem {p : Padding} {s : Symbol} (h : s ∈ p.symbols) : s.isBlank = true := by
  obtain ⟨c, hc, rfl⟩ := List.mem_map.1 h
  exact (isBlank_iff c).2 (p.blank c hc)

/-- Blank symbols are a run of white space. -/
theorem exists_symbols_eq {symbols : List Symbol} (h : ∀ s ∈ symbols, s.isBlank = true) :
    ∃ p : Padding, p.symbols = symbols := by
  induction symbols with
  | nil => exact ⟨⟨[], by simp⟩, rfl⟩
  | cons s symbols ih =>
    obtain ⟨p, hp⟩ := ih fun t ht => h t (List.mem_cons_of_mem s ht)
    have hs := h s List.mem_cons_self
    cases s with
    | stray b => cases hs
    | char c =>
      refine ⟨⟨c :: p.chars, ?_⟩, by rw [← hp]; rfl⟩
      intro d hd
      rcases List.mem_cons.1 hd with rfl | hd
      · exact (isBlank_iff d).1 hs
      · exact p.blank d hd

end Padding

/-! ## Trimming -/

theorem trim_append {before after : List Symbol} (hb : ∀ s ∈ before, s.isBlank = true)
    (ha : ∀ s ∈ after, s.isBlank = true) (symbols : List Symbol) :
    trim (before ++ symbols ++ after) = trim symbols := by
  unfold trim
  rw [List.append_assoc, List.dropWhile_append_of_pos hb, List.dropWhile_append]
  split
  · rename_i h
    rw [List.isEmpty_iff.1 h, List.dropWhile_eq_nil_iff.2 ha]
  · rw [List.reverse_append, List.dropWhile_append_of_pos]
    simpa using ha

/-- Only blank symbols are cut off. -/
theorem exists_eq_trim (symbols : List Symbol) : ∃ before after : List Symbol,
    (∀ s ∈ before, s.isBlank = true) ∧ (∀ s ∈ after, s.isBlank = true) ∧
      symbols = before ++ trim symbols ++ after := by
  refine ⟨symbols.takeWhile Symbol.isBlank,
    ((symbols.dropWhile Symbol.isBlank).reverse.takeWhile Symbol.isBlank).reverse, ?_, ?_, ?_⟩
  · exact fun s hs => List.mem_takeWhile_imp hs
  · intro s hs
    exact List.mem_takeWhile_imp (List.mem_reverse.1 hs)
  · unfold trim
    rw [List.append_assoc, ← List.reverse_append, List.takeWhile_append_dropWhile, List.reverse_reverse,
      List.takeWhile_append_dropWhile]

/-- The text is the character `c` between two runs of white space. -/
def Padded (bytes : List UInt8) (c : Char) : Prop :=
  ∃ before after : Padding, bytes = before.bytes ++ Utf8.encode (String.ofList [c]) ++ after.bytes

theorem padded_self (c : Char) : Padded (Utf8.encode (String.singleton c)) c := by
  refine ⟨⟨[], by simp⟩, ⟨[], by simp⟩, ?_⟩
  rw [Padding.bytes_eq, String.singleton_eq_ofList]
  simp

theorem trim_decode_padding (before after : Padding) (bytes : List UInt8) :
    trim (Utf8.decode (before.bytes ++ bytes ++ after.bytes)) = trim (Utf8.decode bytes) := by
  rw [after.decode_append_bytes, before.decode_bytes_append]
  exact trim_append (fun _ => Padding.isBlank_of_mem) (fun _ => Padding.isBlank_of_mem) _

/-- What a single character is left of was that character with white space about it. -/
theorem trim_decode_eq_iff {c : Char} (h : c ∉ whiteSpace) (bytes : List UInt8) :
    trim (Utf8.decode bytes) = [.char c] ↔ Padded bytes c := by
  constructor
  · intro htrim
    obtain ⟨before, after, hbefore, hafter, hsymbols⟩ := exists_eq_trim (Utf8.decode bytes)
    obtain ⟨p, rfl⟩ := Padding.exists_symbols_eq hbefore
    obtain ⟨q, rfl⟩ := Padding.exists_symbols_eq hafter
    refine ⟨p, q, ?_⟩
    rw [← Utf8.flatMap_bytes_decode bytes, hsymbols, htrim, p.bytes_eq, q.bytes_eq, Utf8.encode_ofList]
    simp [Padding.symbols, List.flatMap_map, Symbol.bytes]
  · rintro ⟨before, after, rfl⟩
    have hc : isBlank c = false := by rwa [← Bool.not_eq_true, isBlank_iff]
    have hread := Utf8.decode_encode_append [c] []
    rw [trim_decode_padding, Utf8.encode_ofList]
    rw [List.append_nil] at hread
    rw [hread]
    simp [trim, Utf8.decode, Utf8.decodeAfter, Symbol.isBlank, hc]

/-! ## Upper case -/

/-- The runs that lead to code points up to that of `Z`: the small letters, the dotless `ı` and the long
`ſ`. -/
theorem caseRuns_filter : caseRuns.filter (fun r => r.upper ≤ 0x5A) =
    [⟨0x61, 0x7A, 1, 0x41⟩, ⟨0x131, 0x131, 1, 0x49⟩, ⟨0x17F, 0x17F, 1, 0x53⟩] := by
  decide

theorem of_upperCode_eq {n t : Nat} (ht : t ≤ 0x5A) (h : upperCode n = t) :
    n = t ∨ n = t + 0x20 ∨ n = 0x131 ∨ n = 0x17F := by
  unfold upperCode at h
  split at h
  · rename_i r hr
    have hmem : r ∈ caseRuns.filter fun r => r.upper ≤ 0x5A := by
      rw [List.mem_filter, decide_eq_true_iff]
      refine ⟨List.mem_of_find?_eq_some hr, ?_⟩
      unfold CaseRun.map at h
      omega
    have hholds := List.find?_some hr
    rw [caseRuns_filter] at hmem
    simp only [List.mem_cons, List.not_mem_nil, or_false] at hmem
    rcases hmem with rfl | rfl | rfl <;>
      simp only [CaseRun.holds, CaseRun.map, Bool.and_eq_true, decide_eq_true_eq] at hholds h <;> omega
  · exact .inl h

/-- The characters that may have a given capital as their upper case. -/
def casings (capital : Char) : List Char := [capital, Char.ofNat (capital.toNat + 0x20), 'ı', 'ſ']

theorem mem_casings {c capital : Char} (h0 : capital.toNat ≠ 0) (hle : capital.toNat ≤ 0x5A)
    (h : upperChar c = capital) : c ∈ casings capital := by
  have hcode : upperCode c.toNat = capital.toNat := by
    have hn := congrArg Char.toNat h
    unfold upperChar at hn
    rw [Char.toNat_ofNat] at hn
    split at hn
    · exact hn
    · exact absurd hn.symm h0
  have eq_ofNat {n : Nat} (hn : c.toNat = n) : c = Char.ofNat n := by rw [← hn, Char.ofNat_toNat]
  simp only [casings, List.mem_cons, List.not_mem_nil, or_false]
  rcases of_upperCode_eq hle hcode with hn | hn | hn | hn
  · exact .inl (Char.toNat_inj.1 hn)
  · exact .inr (.inl (eq_ofNat hn))
  · exact .inr (.inr (.inl (eq_ofNat hn)))
  · exact .inr (.inr (.inr (eq_ofNat hn)))

theorem toList_upper (symbols : List Symbol) :
    (upper symbols).toList = symbols.map fun s => upperChar s.toChar :=
  String.toList_ofList

end Text

namespace Gate

/-! ## Letters -/

/-- The letters of the gates in both cases, with the long `ſ`. -/
def letters : List Char := ['X', 'x', 'Y', 'y', 'Z', 'z', 'S', 's', 'ſ', 'T', 't', 'H', 'h']

/-- The letters of the gates as they are written. -/
def capitals : List Char := ['X', 'Y', 'Z', 'S', 'T', 'H']

theorem exists_capital (g : Gate) : ∃ l ∈ capitals, g.name = String.singleton l := by
  cases g with
  | x => exact ⟨'X', by decide, rfl⟩
  | y => exact ⟨'Y', by decide, rfl⟩
  | z => exact ⟨'Z', by decide, rfl⟩
  | s => exact ⟨'S', by decide, rfl⟩
  | t => exact ⟨'T', by decide, rfl⟩
  | h => exact ⟨'H', by decide, rfl⟩

/-- No character that is not a letter of a gate becomes one in upper case. -/
theorem mem_letters {l c : Char} (hl : l ∈ capitals) (h : Text.upperChar c = l) : c ∈ letters := by
  have hbound : capitals.all (fun l => l.toNat ≠ 0 ∧ l.toNat ≤ 0x5A) = true := by decide
  have hcasings : capitals.all (fun l => (Text.casings l).all fun c => Text.upperChar c = l → c ∈ letters) =
      true := by decide
  obtain ⟨h0, hle⟩ := of_decide_eq_true (List.all_eq_true.1 hbound l hl)
  have hmem := List.all_eq_true.1 (List.all_eq_true.1 hcasings l hl) c (Text.mem_casings h0 hle h)
  exact of_decide_eq_true hmem h

theorem exists_gate {c : Char} (h : c ∈ letters) : ∃ g : Gate, g.name = String.singleton (Text.upperChar c) := by
  have hall : letters.all (fun c => all.any fun g => g.name = String.singleton (Text.upperChar c)) = true := by
    decide
  obtain ⟨g, -, hg⟩ := List.any_eq_true.1 (List.all_eq_true.1 hall c h)
  exact ⟨g, of_decide_eq_true hg⟩

theorem not_mem_whiteSpace {c : Char} (h : c ∈ letters) : c ∉ Text.whiteSpace := by
  have hall : letters.all (· ∉ Text.whiteSpace) = true := by decide
  exact of_decide_eq_true (List.all_eq_true.1 hall c h)

/-- A text in upper case is a gate's name exactly when it is a single letter that has that upper case. -/
theorem upper_eq_name_iff (symbols : List Text.Symbol) (g : Gate) : Text.upper symbols = g.name ↔
    ∃ c ∈ letters, symbols = [.char c] ∧ g.name = String.singleton (Text.upperChar c) := by
  constructor
  · intro h
    obtain ⟨l, hl, hname⟩ := exists_capital g
    have htext := congrArg String.toList (h.trans hname)
    rw [Text.toList_upper, String.toList_singleton, List.map_eq_singleton_iff] at htext
    obtain ⟨s, rfl, hs⟩ := htext
    cases s with
    | char c => exact ⟨c, mem_letters hl hs, rfl, by rw [hname, ← hs]; rfl⟩
    | stray b =>
      -- the replacement character is its own upper case
      have hstray : Text.upperChar (Char.ofNat 0xFFFD) ∉ capitals := by decide
      rw [← hs] at hl
      exact absurd hl hstray
  · rintro ⟨c, -, rfl, hname⟩
    rw [hname, ← String.toList_inj, Text.toList_upper, String.toList_singleton]
    rfl

/-! ## Names -/

theorem ofName?_eq_some_iff (s : String) (g : Gate) : ofName? s = some g ↔ s = g.name := by
  constructor
  · intro h
    unfold ofName? at h
    split at h <;> cases h <;> rfl
  · rintro rfl
    cases g <;> rfl

theorem parse_eq_ok_iff (name : List UInt8) (g : Gate) :
    parse name = .ok g ↔ ofName? (Text.upper (Text.trim (Text.Utf8.decode name))) = some g := by
  unfold parse
  cases ofName? (Text.upper (Text.trim (Text.Utf8.decode name))) <;> simp

theorem parse_eq_error_iff (name : List UInt8) (e : UnknownGate) : parse name = .error e ↔
    ofName? (Text.upper (Text.trim (Text.Utf8.decode name))) = none ∧ e = ⟨name⟩ := by
  unfold parse
  cases ofName? (Text.upper (Text.trim (Text.Utf8.decode name))) <;> simp [eq_comm]

theorem ofName?_trim_iff (name : List UInt8) (g : Gate) :
    ofName? (Text.upper (Text.trim (Text.Utf8.decode name))) = some g ↔
      ∃ c ∈ letters, Text.Padded name c ∧ g.name = String.singleton (Text.upperChar c) := by
  rw [ofName?_eq_some_iff, upper_eq_name_iff]
  constructor
  · rintro ⟨c, hmem, htrim, hname⟩
    exact ⟨c, hmem, (Text.trim_decode_eq_iff (not_mem_whiteSpace hmem) name).1 htrim, hname⟩
  · rintro ⟨c, hmem, hpadded, hname⟩
    exact ⟨c, hmem, (Text.trim_decode_eq_iff (not_mem_whiteSpace hmem) name).2 hpadded, hname⟩

theorem ofName?_trim_eq_none_iff (name : List UInt8) :
    ofName? (Text.upper (Text.trim (Text.Utf8.decode name))) = none ↔
      ¬ ∃ c ∈ letters, Text.Padded name c := by
  rw [Option.eq_none_iff_forall_ne_some]
  constructor
  · rintro hnone ⟨c, hmem, hpadded⟩
    obtain ⟨g, hg⟩ := exists_gate hmem
    exact hnone g ((ofName?_trim_iff name g).2 ⟨c, hmem, hpadded, hg⟩)
  · intro hnot g hg
    obtain ⟨c, hmem, hpadded, -⟩ := (ofName?_trim_iff name g).1 hg
    exact hnot ⟨c, hmem, hpadded⟩

theorem toOption_parse (name : List UInt8) :
    (parse name).toOption = ofName? (Text.upper (Text.trim (Text.Utf8.decode name))) := by
  unfold parse
  cases ofName? (Text.upper (Text.trim (Text.Utf8.decode name))) <;> rfl

/-- A name is accepted exactly when it is a letter of a gate between two runs of white space, and the gate
is the one that has the letter in upper case as its name. White space about a name does not change what it
is read as, and the name of a gate is read as that gate. Every name that is not accepted is refused with an
error that quotes it as it was given, so that the message tells the name byte by byte. -/
theorem parse_accepts_padded_letters (name : List UInt8) :
    (∀ g, parse name = .ok g ↔
      ∃ c ∈ letters, Text.Padded name c ∧ g.name = String.singleton (Text.upperChar c)) ∧
    (∀ e, parse name = .error e ↔ (¬ ∃ c ∈ letters, Text.Padded name c) ∧ e = ⟨name⟩) ∧
    (UnknownGate.mk name).message = "unknown gate: " ++ Text.quoted (Text.Utf8.decode name) ∧
    (∀ other, (UnknownGate.mk other).message = (UnknownGate.mk name).message ↔ other = name) ∧
    (∀ before after : Text.Padding,
      (parse (before.bytes ++ name ++ after.bytes)).toOption = (parse name).toOption) ∧
    ∀ g : Gate, g ∈ all ∧ parse (Text.Utf8.encode g.name) = .ok g := by
  refine ⟨fun g => ?_, fun e => ?_, rfl, fun other => ?_, fun before after => ?_, fun g => ⟨?_, ?_⟩⟩
  · rw [parse_eq_ok_iff, ofName?_trim_iff]
  · rw [parse_eq_error_iff, ofName?_trim_eq_none_iff]
  · constructor
    · intro h
      exact Text.quoted_decode_inj (String.append_right_inj _ |>.1 h)
    · exact fun h => h ▸ rfl
  · rw [toOption_parse, toOption_parse, Text.trim_decode_padding]
  · cases g <;> decide
  · obtain ⟨l, hl, hname⟩ := exists_capital g
    have hself : capitals.all (fun l => l ∈ letters ∧ Text.upperChar l = l) = true := by decide
    obtain ⟨hmem, hupper⟩ := of_decide_eq_true (List.all_eq_true.1 hself l hl)
    rw [parse_eq_ok_iff, ofName?_trim_iff, hname]
    exact ⟨l, hmem, Text.padded_self l, by rw [hupper]⟩

end Gate

end BlochSphere
