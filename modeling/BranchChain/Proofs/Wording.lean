import BranchChain.Branch.Decode
import BranchChain.Proofs.Valuing
import Mathlib.Data.List.Forall2
/-!
# Proofs.Wording — the words of a text and the bytes they stand for

The words of a text are its longest runs without white space (`Text.words_eq_iff`), and a blank between two texts keeps
their words apart (`Text.words_append_blank`).  A pattern is read word by word, so what is read follows from the words
alone, and so does the word that is told when nothing is (`Pattern.ofHex_eq_error_iff`).  The printed bytes are words
again, each standing for its byte.
-/
namespace BranchChain
namespace Text

/-! ## Words -/

/-- **A text as white space and longest runs without it**, with the runs in order. -/
inductive Parted : List Char → List (List Char) → Prop where
  | nothing : Parted [] []
  | blank {c : Char} {cs : List Char} {ws : List (List Char)} (blank : isBlank c = true) (rest : Parted cs ws) :
    Parted (c :: cs) ws
  | word {w cs : List Char} {ws : List (List Char)} (nonempty : w ≠ []) (solid : ∀ c ∈ w, isBlank c = false)
    (ends : ∀ c ∈ cs.head?, isBlank c = true) (rest : Parted cs ws) : Parted (w ++ cs) (w :: ws)

theorem consWord_append (w : List Char) (us vs : List (List Char)) : consWord w (us ++ vs) = consWord w us ++ vs := by
  unfold consWord
  split <;> rfl

theorem runs_append_blank {c : Char} (hc : isBlank c = true) (ys : List Char) : ∀ xs : List Char,
    runs isBlank (xs ++ c :: ys) = ((runs isBlank xs).1, (runs isBlank xs).2 ++ words ys)
  | [] => by
    rw [List.nil_append, runs]
    exact if_pos hc
  | x :: xs => by
    rw [List.cons_append, runs, runs, runs_append_blank hc ys xs]
    dsimp only
    split
    · rw [consWord_append]
    · rfl

/-- **A blank keeps words apart.** -/
theorem words_append_blank {c : Char} (hc : isBlank c = true) (xs ys : List Char) :
    words (xs ++ c :: ys) = words xs ++ words ys := by
  rw [words, splitAt, runs_append_blank hc, consWord_append]
  rfl

theorem runs_of_solid : ∀ {w : List Char}, (∀ c ∈ w, isBlank c = false) → runs isBlank w = (w, [])
  | [], _ => rfl
  | c :: cs, h => by
    obtain ⟨hc, hcs⟩ := List.forall_mem_cons.1 h
    rw [runs, runs_of_solid hcs, hc]
    rfl

theorem words_of_solid {w : List Char} (hne : w ≠ []) (h : ∀ c ∈ w, isBlank c = false) : words w = [w] := by
  rw [words, splitAt, runs_of_solid h]
  exact if_neg (by rwa [List.isEmpty_iff])

theorem words_append_of_ends {w cs : List Char} (hne : w ≠ []) (h : ∀ c ∈ w, isBlank c = false)
    (hends : ∀ c ∈ cs.head?, isBlank c = true) : words (w ++ cs) = w :: words cs := by
  cases cs with
  | nil => rw [List.append_nil, words_of_solid hne h, words_nil]
  | cons c cs =>
    have hc : isBlank c = true := hends c rfl
    rw [words_append_blank hc, words_of_solid hne h, words_blank c cs hc]
    rfl

theorem parted_consWord {w rest : List Char} {ws : List (List Char)} (hsolid : ∀ c ∈ w, isBlank c = false)
    (hends : ∀ c ∈ rest.head?, isBlank c = true) (h : Parted rest ws) : Parted (w ++ rest) (consWord w ws) := by
  unfold consWord
  split
  · rename_i hw
    rw [List.isEmpty_iff] at hw
    rwa [hw]
  · rename_i hw
    rw [List.isEmpty_iff] at hw
    exact .word hw hsolid hends h

/-- The first run goes up to a blank, and the runs behind it are those of what is left. -/
theorem exists_parted_runs (cs : List Char) : ∃ rest, cs = (runs isBlank cs).1 ++ rest ∧
    (∀ c ∈ (runs isBlank cs).1, isBlank c = false) ∧ (∀ c ∈ rest.head?, isBlank c = true) ∧
    Parted rest (runs isBlank cs).2 := by
  induction cs with
  | nil => exact ⟨[], rfl, fun c hc => absurd hc List.not_mem_nil, fun c hc => (by cases hc), .nothing⟩
  | cons c cs ih =>
    obtain ⟨rest, hcs, hsolid, hends, hrest⟩ := ih
    rw [runs]
    dsimp only
    cases hc : isBlank c with
    | true =>
      have hparted := parted_consWord hsolid hends hrest
      rw [← hcs] at hparted
      exact ⟨c :: cs, rfl, fun x hx => absurd hx List.not_mem_nil, fun x hx => (by cases hx; exact hc), .blank hc hparted⟩
    | false => exact ⟨rest, congrArg (c :: ·) hcs, List.forall_mem_cons.2 ⟨hc, hsolid⟩, hends, hrest⟩

theorem parted_words (cs : List Char) : Parted cs (words cs) := by
  obtain ⟨rest, hcs, hsolid, hends, hrest⟩ := exists_parted_runs cs
  have hparted := parted_consWord hsolid hends hrest
  rwa [← hcs] at hparted

/-- **The words of a text are its longest runs without white space.** -/
theorem words_eq_iff {cs : List Char} {ws : List (List Char)} : words cs = ws ↔ Parted cs ws := by
  constructor
  · rintro rfl
    exact parted_words cs
  · intro h
    induction h with
    | nothing => exact words_nil
    | @blank c cs ws hc rest ih => rw [words_blank c cs hc, ih]
    | word nonempty solid ends rest ih => rw [words_append_of_ends nonempty solid ends, ih]

theorem words_intercalate : ∀ {ws : List (List Char)}, (∀ w ∈ ws, w ≠ [] ∧ ∀ c ∈ w, isBlank c = false) →
    words ([' '].intercalate ws) = ws
  | [], _ => rfl
  | [w], h => by
    obtain ⟨hne, hsolid⟩ := h w List.mem_cons_self
    rw [List.intercalate_singleton, words_of_solid hne hsolid]
  | w :: v :: ws, h => by
    obtain ⟨⟨hne, hsolid⟩, hrest⟩ := List.forall_mem_cons.1 h
    rw [List.intercalate_cons_cons, List.append_assoc, List.singleton_append, words_append_blank (by decide),
      words_of_solid hne hsolid, words_intercalate hrest]
    rfl

/-! ## Bytes as words -/

theorem toList_intercalate_hexByte (bs : List UInt8) :
    (" ".intercalate (bs.map fun b => String.ofList (hexByte b))).toList = [' '].intercalate (bs.map hexByte) := by
  rw [String.toList_intercalate, List.map_map]
  congr 2
  funext b
  exact String.toList_ofList

/-- The digits of a byte are its number in two columns, filled with zeros. -/
theorem hexByte_eq_hex (b : UInt8) : hexByte b = (Layout.hex ⟨' ', .right, false, false, true, 2⟩ b.toNat).toList := by
  have hlt := b.toNat_lt
  by_cases hb : b.toNat < 16
  · have hdigits : Nat.toDigits 16 b.toNat = [Nat.digitChar b.toNat] := Nat.toDigits_of_lt_base hb
    simp [hexByte, Layout.hex, Layout.join, Layout.sign, hex, hdigits, Nat.div_eq_of_lt hb, Nat.mod_eq_of_lt hb]
  · have hdigits : Nat.toDigits 16 b.toNat = [Nat.digitChar (b.toNat / 16), Nat.digitChar (b.toNat % 16)] := by
      rw [Nat.toDigits_of_base_le (by decide) (by omega), Nat.toDigits_of_lt_base (by omega)]
      rfl
    simp [hexByte, Layout.hex, Layout.join, Layout.sign, hex, hdigits]

theorem hexByte_solid (b : UInt8) : hexByte b ≠ [] ∧ ∀ c ∈ hexByte b, isBlank c = false := by
  have hlt := b.toNat_lt
  have hdigit {v : Nat} (hv : v < 16) : isBlank (Nat.digitChar v) = false := (isDigit_digitChar hv).not_blank (by decide)
  refine ⟨List.cons_ne_nil _ _, fun c hc => ?_⟩
  simp only [hexByte, List.mem_cons, List.not_mem_nil, or_false] at hc
  obtain rfl | rfl := hc
  · exact hdigit (by omega)
  · exact hdigit (by omega)

theorem words_intercalate_hexByte (bs : List UInt8) : words ([' '].intercalate (bs.map hexByte)) = bs.map hexByte := by
  refine words_intercalate fun w hw => ?_
  obtain ⟨b, -, rfl⟩ := List.mem_map.1 hw
  exact hexByte_solid b

end Text

/-! ## Patterns -/

theorem PatternError.message_eq (e : PatternError) :
    e.message = "Invalid pattern: '" ++ e.word ++ "' is not a hex byte" := by
  show "Invalid pattern: " ++ ("'" ++ e.word ++ "' is not a hex byte") =
    "Invalid pattern: " ++ "'" ++ e.word ++ "' is not a hex byte"
  simp only [String.append_assoc]

namespace Pattern

open Text (IsDigit Parted words hexByte hexDigits)

/-- **The byte a word stands for**: two hexadecimal digits, behind one mark at most. -/
def Means (w : List Char) (b : UInt8) : Prop :=
  ∃ mark ∈ [[], ['0', 'x'], ['0', 'X']], ∃ c d high low, IsDigit 16 c high ∧ IsDigit 16 d low ∧ w = mark ++ [c, d] ∧
    b.toNat = 16 * high + low

theorem readByte_eq_ok_iff {w : List Char} {b : UInt8} : readByte w = .ok b ↔ Means w b := by
  have hvalue {c : Char} {v : Nat} : Text.digitValue? 16 c = some v ↔ IsDigit 16 c v := Text.digitValue?_eq_some_iff (by decide)
  have hbyte {high low : Nat} (hh : high < 16) (hl : low < 16) : (UInt8.ofNat (16 * high + low)).toNat = 16 * high + low :=
    UInt8.toNat_ofNat_of_lt' (show 16 * high + low < 256 by omega)
  constructor
  · intro h
    obtain ⟨mark, hmark, hw⟩ := exists_mark w
    unfold readByte at h
    split at h
    · rename_i c d hcd
      split at h
      · rename_i high low hc hd
        rw [hcd] at hw
        rw [hvalue] at hc hd
        cases h
        exact ⟨mark, hmark, c, d, high, low, hc, hd, hw, hbyte hc.1 hd.1⟩
      · cases h
    · cases h
  · rintro ⟨mark, hmark, c, d, high, low, hc, hd, rfl, hb⟩
    have hmem : d ∈ hexDigits := (Text.digitValue?_isSome_iff d).1 (by rw [hvalue.2 hd]; rfl)
    have hsame : UInt8.ofNat (16 * high + low) = b := UInt8.toNat_inj.1 ((hbyte hc.1 hd.1).trans hb.symm)
    simp only [readByte, unmarked_digits hmark hmem, hvalue.2 hc, hvalue.2 hd, hsame]

/-- A word that is no byte is told as it stands, its mark included. -/
theorem readByte_cases (w : List Char) : (∃ b, readByte w = .ok b) ∨ readByte w = .error ⟨String.ofList w⟩ := by
  unfold readByte
  split
  · split
    · exact .inl ⟨_, rfl⟩
    · exact .inr rfl
  · exact .inr rfl

theorem readByte_eq_error_iff {w : List Char} {e : PatternError} :
    readByte w = .error e ↔ (¬ ∃ b, Means w b) ∧ e = ⟨String.ofList w⟩ := by
  simp only [← readByte_eq_ok_iff]
  obtain ⟨b, hb⟩ | he := readByte_cases w
  · rw [hb]
    exact ⟨fun h => (by cases h), fun h => absurd ⟨b, rfl⟩ h.1⟩
  · rw [he, Except.error.injEq]
    exact ⟨fun h => ⟨fun ⟨b, hb⟩ => (by cases hb), h.symm⟩, fun h => h.2.symm⟩

theorem ofHex_eq_ok_iff_means {s : String} {p : Pattern} :
    ofHex s = .ok p ↔ List.Forall₂ Means (words s.toList) p.bytes ∧ p.name = none := by
  rw [ofHex_eq_ok_iff, mapM_eq_ok_iff]
  simp only [readByte_eq_ok_iff]

/-- **A text that is no pattern is told by its first word that is no byte.** -/
theorem ofHex_eq_error_iff {s : String} {e : PatternError} :
    ofHex s = .error e ↔ ∃ before w behind, words s.toList = before ++ w :: behind ∧
      (∀ v ∈ before, ∃ b, Means v b) ∧ (¬ ∃ b, Means w b) ∧ e = ⟨String.ofList w⟩ := by
  have hread : ofHex s = .error e ↔ (words s.toList).mapM readByte = .error e := by
    unfold ofHex
    cases (words s.toList).mapM readByte with
    | error e' => exact ⟨fun h => (by cases h; rfl), fun h => (by cases h; rfl)⟩
    | ok bytes => exact ⟨fun h => (by cases h), fun h => (by cases h)⟩
  rw [hread, mapM_eq_error_iff]
  simp only [readByte_eq_ok_iff, readByte_eq_error_iff]

/-! ## Printed patterns -/

theorem means_hexByte (b : UInt8) : Means (hexByte b) b := by
  have hlt := b.toNat_lt
  exact ⟨[], by decide, _, _, b.toNat / 16, b.toNat % 16, Text.isDigit_digitChar (by omega),
    Text.isDigit_digitChar (by omega), rfl, (Nat.div_add_mod b.toNat 16).symm⟩

theorem toList_hex (p : Pattern) : p.hex.toList = [' '].intercalate (p.bytes.map hexByte) :=
  Text.toList_intercalate_hexByte p.bytes

/-- An opcode nobody knows is printed as a pattern is. -/
theorem opcodeText_eq_hex (p : Pattern) : opcodeText p.bytes = p.hex := by
  have hopcode : (opcodeText p.bytes).toList = [' '].intercalate (p.bytes.map hexByte) :=
    Text.toList_intercalate_hexByte p.bytes
  exact String.toList_inj.1 (hopcode.trans p.toList_hex.symm)

theorem ofHex_hex (p : Pattern) : ofHex p.hex = .ok ⟨p.bytes, none⟩ := by
  rw [ofHex_eq_ok_iff_means, toList_hex, Text.words_intercalate_hexByte, List.forall₂_map_left_iff, List.forall₂_same]
  exact ⟨fun b _ => means_hexByte b, rfl⟩

theorem ofHex_append {s t : String} {p q : Pattern} (hp : ofHex s = .ok p) (hq : ofHex t = .ok q) :
    ofHex (s ++ " " ++ t) = .ok ⟨p.bytes ++ q.bytes, none⟩ := by
  rw [ofHex_eq_ok_iff_means] at hp hq ⊢
  have hwords : words (s ++ " " ++ t).toList = words s.toList ++ words t.toList := by
    rw [String.toList_append, String.toList_append, List.append_assoc]
    exact Text.words_append_blank (by decide) _ _
  rw [hwords]
  exact ⟨List.rel_append hp.1 hq.1, rfl⟩

/-- **Patterns are read from the words that stand for bytes, and from what they are printed as.**  A text whose longest
runs without white space all stand for bytes is the pattern of these bytes, and any other is told by its first run that
does not, as it stands.  The text of bytes is that of an opcode nobody knows, two columns a byte, and is read as them; so
what is printed of what was read is printed again the same, and a blank puts texts in a row. -/
theorem ofHex_inverts_hex :
    (∀ s : String, ∃ ws, Parted s.toList ws ∧ (∀ vs, Parted s.toList vs → vs = ws) ∧
      ((∃ p, ofHex s = .ok p) ↔ ∀ w ∈ ws, ∃ b, Means w b) ∧
      (∀ p, ofHex s = .ok p ↔ List.Forall₂ Means ws p.bytes ∧ p.name = none) ∧
      ∀ e, ofHex s = .error e → ∃ before w behind, ws = before ++ w :: behind ∧ (∀ v ∈ before, ∃ b, Means v b) ∧
        (¬ ∃ b, Means w b) ∧ e = ⟨String.ofList w⟩ ∧
        e.message = "Invalid pattern: '" ++ String.ofList w ++ "' is not a hex byte") ∧
    (∀ p : Pattern, (DecodeError.unknownOpcode p.bytes).message = "Unknown opcode " ++ p.hex ∧
      p.hex.toList = [' '].intercalate
        (p.bytes.map fun b => (Text.Layout.hex ⟨' ', .right, false, false, true, 2⟩ b.toNat).toList) ∧
      ofHex p.hex = .ok ⟨p.bytes, none⟩) ∧
    (∀ s t, (ofHex s).map hex = .ok t → (ofHex t).map hex = .ok t) ∧
    ∀ s t p q, ofHex s = .ok p → ofHex t = .ok q → ofHex (s ++ " " ++ t) = .ok ⟨p.bytes ++ q.bytes, none⟩ := by
  refine ⟨fun s => ⟨_, Text.parted_words s.toList, fun vs hvs => (Text.words_eq_iff.2 hvs).symm, ?_,
    fun p => ofHex_eq_ok_iff_means, fun e he => ?_⟩, fun p => ⟨?_, ?_, p.ofHex_hex⟩, fun s t h => ?_,
    fun s t p q => ofHex_append⟩
  · simp only [ofHex_ok_iff, ← readByte_ok_iff, readByte_eq_ok_iff]
  · obtain ⟨before, w, behind, hws, hbefore, hw, rfl⟩ := ofHex_eq_error_iff.1 he
    exact ⟨before, w, behind, hws, hbefore, hw, rfl, PatternError.message_eq _⟩
  · rw [DecodeError.message, opcodeText_eq_hex]
  · rw [toList_hex, List.map_congr_left fun b _ => Text.hexByte_eq_hex b]
  · obtain ⟨p, -, rfl⟩ := map_eq_ok.1 h
    rw [ofHex_hex]
    rfl

/-- An ideographic space and both marks; and a mark behind a mark, told as it stands. -/
theorem ofHex_inverts_hex_marked :
    (ofHex "0X0f\u3000B8").map hex = .ok "0f b8" ∧ (ofHex "0f b8").map hex = .ok "0f b8" ∧
    ofHex ("0X0f\u3000B8" ++ " " ++ "0x75") = .ok ⟨[0x0f, 0xb8, 0x75], none⟩ ∧
    ofHex "b8 0x0x75 +5" = .error ⟨"0x0x75"⟩ ∧
    (PatternError.mk "0x0x75").message = "Invalid pattern: '0x0x75' is not a hex byte" := by
  obtain ⟨hwords, -, hnormal, happend⟩ := ofHex_inverts_hex
  refine ⟨rfl, hnormal "0X0f\u3000B8" "0f b8" rfl, happend _ _ ⟨[0x0f, 0xb8], none⟩ ⟨[0x75], none⟩ rfl rfl, rfl, ?_⟩
  obtain ⟨ws, -, -, -, -, herror⟩ := hwords "b8 0x0x75 +5"
  obtain ⟨-, w, -, -, -, -, hw, hmessage⟩ := herror ⟨"0x0x75"⟩ rfl
  have hword : "0x0x75" = String.ofList w := congrArg PatternError.word hw
  rw [hmessage, ← hword]
  rfl

end Pattern
end BranchChain
