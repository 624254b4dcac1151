import BranchChain.Proofs.Numbering
import BranchChain.Proofs.Spelling
import Mathlib.Algebra.Ring.Nat
/-!
# Proofs.Valuing — the value of a numeral

Digits are worth what their places make of them (`Text.Worth`), and a reader that keeps to machine words takes exactly
the digits that are worth one, however many zeros stand before them (`Text.readDigits_eq_ok_iff`).  So the texts that are
addresses are known by what they are worth, and all ways to print an address are among them
(`Address.ofText_inverts_printed`).
-/
namespace BranchChain
namespace Text

/-! ## Digits -/

/-- **A digit of a value**: the character the value is written with, small or capital. -/
def IsDigit (base : Nat) (c : Char) (v : Nat) : Prop := v < base ∧ (c = Nat.digitChar v ∨ c = (Nat.digitChar v).toUpper)

theorem isDigit_digitChar {base v : Nat} (h : v < base) : IsDigit base (Nat.digitChar v) v := ⟨h, .inl rfl⟩

/-- A digit of a small base is the same digit in a large one. -/
theorem digitValue?_of_le {base : Nat} (hb : base ≤ 16) (c : Char) :
    digitValue? base c = (digitValue? 16 c).filter (· < base) := by
  unfold digitValue?
  dsimp only
  rw [Option.filter_filter]
  congr 1
  funext v
  rw [← Bool.decide_and, decide_eq_decide]
  omega

theorem digitValue?_sixteen (c : Char) (v : Nat) : digitValue? 16 c = some v ↔ IsDigit 16 c v := by
  constructor
  · intro h
    have hmem : c ∈ hexDigits := (digitValue?_isSome_iff c).1 (by rw [h]; rfl)
    have hall : hexDigits.all (fun c => (digitValue? 16 c).all fun v =>
      decide (v < 16 ∧ (c = Nat.digitChar v ∨ c = (Nat.digitChar v).toUpper))) = true := by decide
    have hc := List.all_eq_true.1 hall c hmem
    rw [h] at hc
    unfold IsDigit
    exact of_decide_eq_true hc
  · rintro ⟨hv, h⟩
    have hall : ∀ v < 16, digitValue? 16 (Nat.digitChar v) = some v ∧
      digitValue? 16 (Nat.digitChar v).toUpper = some v := by decide
    obtain rfl | rfl := h
    · exact (hall v hv).1
    · exact (hall v hv).2

/-- **Digits are told by the characters that write their values.** -/
theorem digitValue?_eq_some_iff {base : Nat} (hb : base ≤ 16) {c : Char} {v : Nat} :
    digitValue? base c = some v ↔ IsDigit base c v := by
  rw [digitValue?_of_le hb, Option.filter_eq_some_iff, digitValue?_sixteen, decide_eq_true_eq]
  exact ⟨fun ⟨⟨_, hc⟩, hv⟩ => ⟨hv, hc⟩, fun ⟨hv, hc⟩ => ⟨⟨Nat.lt_of_lt_of_le hv hb, hc⟩, hv⟩⟩

/-- A character is a digit of one value only. -/
theorem IsDigit.unique {base : Nat} (hb : base ≤ 16) {c : Char} {u v : Nat} (hu : IsDigit base c u)
    (hv : IsDigit base c v) : u = v := by
  rw [← digitValue?_eq_some_iff hb] at hu hv
  exact Option.some.inj (hu.symm.trans hv)

theorem IsDigit.not_blank {base : Nat} (hb : base ≤ 16) {c : Char} {v : Nat} (h : IsDigit base c v) :
    isBlank c = false := by
  have hall : ∀ v < 16, isBlank (Nat.digitChar v) = false ∧ isBlank (Nat.digitChar v).toUpper = false := by decide
  obtain ⟨hv, rfl | rfl⟩ := h
  · exact (hall v (by omega)).1
  · exact (hall v (by omega)).2

/-! ## Numerals -/

/-- **Digits worth a number**, the highest first: a digit counts for as many as there are numerals of the length behind
it. -/
inductive Worth (base : Nat) : List Char → Nat → Prop where
  | nothing : Worth base [] 0
  | digit {c : Char} {v : Nat} {cs : List Char} {n : Nat} (first : IsDigit base c v) (rest : Worth base cs n) :
    Worth base (c :: cs) (v * base ^ cs.length + n)

variable {base : Nat}

theorem worth_single {c : Char} {v : Nat} (h : IsDigit base c v) : Worth base [c] v := by
  have hw := Worth.digit h .nothing
  rwa [List.length_nil, pow_zero, Nat.mul_one, Nat.add_zero] at hw

theorem Worth.append {cs ds : List Char} {n k : Nat} (hcs : Worth base cs n) (hds : Worth base ds k) :
    Worth base (cs ++ ds) (n * base ^ ds.length + k) := by
  induction hcs with
  | nothing => rwa [Nat.zero_mul, Nat.zero_add]
  | @digit c v cs n first rest ih =>
    have hw := Worth.digit first ih
    rwa [List.length_append, pow_add, ← Nat.mul_assoc, ← Nat.add_assoc, ← Nat.add_mul] at hw

theorem Worth.zeros {cs : List Char} {n : Nat} (hb : 0 < base) (h : Worth base cs n) :
    ∀ k, Worth base (List.replicate k '0' ++ cs) n
  | 0 => h
  | k + 1 => by
    have hw := Worth.digit (isDigit_digitChar hb) (h.zeros hb k)
    rwa [Nat.zero_mul, Nat.zero_add] at hw

theorem Worth.exists_isDigit {cs : List Char} {n : Nat} (h : Worth base cs n) : ∀ c ∈ cs, ∃ v, IsDigit base c v := by
  induction h with
  | nothing => exact fun c hc => absurd hc List.not_mem_nil
  | @digit c v cs n first rest ih => exact List.forall_mem_cons.2 ⟨⟨v, first⟩, ih⟩

/-- **What is written is worth its number.** -/
theorem worth_toDigits (hb : 1 < base) (n : Nat) : Worth base (Nat.toDigits base n) n := by
  induction n using Nat.strongRecOn with
  | ind n ih =>
    by_cases hn : n < base
    · rw [Nat.toDigits_of_lt_base hn]
      exact worth_single (isDigit_digitChar hn)
    · have hlast : Worth base [Nat.digitChar (n % base)] (n % base) :=
        worth_single (isDigit_digitChar (Nat.mod_lt n (by omega)))
      have hw := (ih _ (Nat.div_lt_self (by omega) hb)).append hlast
      rwa [← Nat.toDigits_of_base_le hb (by omega), List.length_singleton, pow_one, Nat.div_add_mod'] at hw

/-! ## Readers of numerals -/

/-- **Digits are read if what they are worth is a word**, behind what is read already. -/
theorem readDigits_eq_ok_iff (hb : base ≤ 16) {n : Nat} {cs : List Char} {acc : Nat} (hacc : acc < 2 ^ 64) :
    readDigits base acc cs = .ok n ↔ ∃ k, Worth base cs k ∧ n = acc * base ^ cs.length + k ∧ n < 2 ^ 64 := by
  induction cs generalizing acc with
  | nil =>
    rw [readDigits, List.length_nil, pow_zero, Nat.mul_one, Except.ok.injEq]
    constructor
    · rintro rfl
      exact ⟨0, .nothing, rfl, hacc⟩
    · rintro ⟨k, hk, rfl, -⟩
      cases hk
      rfl
  | cons c cs ih =>
    have hsum (v k : Nat) : acc * base ^ (cs.length + 1) + (v * base ^ cs.length + k) =
        (acc * base + v) * base ^ cs.length + k := by
      rw [pow_succ', Nat.add_mul, Nat.mul_assoc, Nat.add_assoc]
    rw [readDigits, List.length_cons]
    cases hv : digitValue? base c with
    | none =>
      constructor
      · intro h
        cases h
      · rintro ⟨_, hk, -⟩
        cases hk with
        | digit first rest =>
          rw [(digitValue?_eq_some_iff hb).2 first] at hv
          cases hv
    | some v =>
      dsimp only
      have hd : IsDigit base c v := (digitValue?_eq_some_iff hb).1 hv
      by_cases hfits : acc * base + v < UInt64.size
      · rw [if_pos hfits, ih hfits]
        constructor
        · rintro ⟨k, hk, hn, hlt⟩
          exact ⟨_, .digit hd hk, by rw [hsum, hn], hlt⟩
        · rintro ⟨_, hk, hn, hlt⟩
          cases hk with
          | digit first rest =>
            obtain rfl := hd.unique hb first
            exact ⟨_, rest, by rw [hn, hsum], hlt⟩
      · -- what is read so far is no word, and no digits behind it make it less
        rw [if_neg hfits]
        constructor
        · intro h
          cases h
        · rintro ⟨_, hk, hn, hlt⟩
          refine absurd ?_ hfits
          show acc * base + v < 2 ^ 64
          cases hk with
          | @digit _ u _ k first rest =>
            obtain rfl := hd.unique hb first
            have hle : acc * base + v ≤ (acc * base + v) * base ^ cs.length :=
              Nat.le_mul_of_pos_right _ (Nat.pow_pos (Nat.zero_lt_of_lt hd.1))
            rw [hsum] at hn
            omega

/-- **A numeral**: digits, and one plus before them if need be. -/
def Numeral (base : Nat) (cs : List Char) (n : Nat) : Prop :=
  ∃ sign ∈ [[], ['+']], ∃ ds, ds ≠ [] ∧ Worth base ds n ∧ cs = sign ++ ds

theorem Numeral.mem {cs : List Char} {n : Nat} (h : Numeral base cs n) {c : Char} (hc : c ∈ cs) :
    c = '+' ∨ ∃ v, IsDigit base c v := by
  obtain ⟨sign, hsign, ds, -, hds, rfl⟩ := h
  rw [List.mem_append] at hc
  obtain hc | hc := hc
  · simp only [List.mem_cons, List.not_mem_nil, or_false] at hsign
    obtain rfl | rfl := hsign
    · cases hc
    · exact .inl (List.mem_singleton.1 hc)
  · exact .inr (hds.exists_isDigit c hc)

theorem map_ofNat_readDigits_iff (hb : base ≤ 16) {cs : List Char} {w : UInt64} :
    (readDigits base 0 cs).map UInt64.ofNat = .ok w ↔ Worth base cs w.toNat := by
  have hread (n : Nat) : readDigits base 0 cs = .ok n ↔ Worth base cs n ∧ n < 2 ^ 64 := by
    rw [readDigits_eq_ok_iff hb (by decide)]
    simp only [Nat.zero_mul, Nat.zero_add]
    exact ⟨fun ⟨k, hk, hn, hlt⟩ => ⟨hn ▸ hk, hlt⟩, fun ⟨hk, hlt⟩ => ⟨n, hk, rfl, hlt⟩⟩
  rw [map_eq_ok]
  constructor
  · rintro ⟨n, hn, rfl⟩
    obtain ⟨hw, hlt⟩ := (hread n).1 hn
    rwa [UInt64.toNat_ofNat_of_lt' hlt]
  · intro hw
    exact ⟨w.toNat, (hread _).2 ⟨hw, w.toNat_lt⟩, UInt64.ofNat_toNat.symm⟩

/-- **A machine word is read from its numerals**, and from nothing else. -/
theorem readWord_eq_ok_iff (hb : base ≤ 16) {cs : List Char} {w : UInt64} :
    readWord base cs = .ok w ↔ Numeral base cs w.toNat := by
  have hplus : ¬ ∃ v, IsDigit base '+' v := by
    rintro ⟨v, hv, h⟩
    have hall : ∀ v < 16, '+' ≠ Nat.digitChar v ∧ '+' ≠ (Nat.digitChar v).toUpper := by decide
    obtain ⟨hsmall, hcapital⟩ := hall v (by omega)
    exact h.elim hsmall hcapital
  unfold readWord
  split
  · refine ⟨fun h => (by cases h), fun ⟨sign, _, ds, hne, _, heq⟩ => ?_⟩
    exact absurd (List.append_eq_nil_iff.1 heq.symm).2 hne
  · rename_i c cs
    rw [map_ofNat_readDigits_iff hb]
    constructor
    · intro hw
      exact ⟨['+'], by decide, c :: cs, List.cons_ne_nil _ _, hw, rfl⟩
    · rintro ⟨sign, hsign, ds, -, hw, heq⟩
      simp only [List.mem_cons, List.not_mem_nil, or_false] at hsign
      obtain rfl | rfl := hsign
      · -- the plus would be a digit
        rw [List.nil_append] at heq
        rw [← heq] at hw
        exact absurd (hw.exists_isDigit '+' List.mem_cons_self) hplus
      · obtain rfl := (List.cons.inj heq).2
        exact hw
  · rename_i hne hno
    rw [map_ofNat_readDigits_iff hb]
    constructor
    · intro hw
      exact ⟨[], by decide, cs, hne, hw, rfl⟩
    · rintro ⟨sign, hsign, ds, hds, hw, rfl⟩
      simp only [List.mem_cons, List.not_mem_nil, or_false] at hsign
      obtain rfl | rfl := hsign
      · exact hw
      · obtain ⟨d, ds, rfl⟩ := List.exists_cons_of_ne_nil hds
        exact absurd rfl (hno d ds)

/-! ## White space around a text -/

theorem dropWhile_isBlank_append {before core : List Char} (hblank : ∀ c ∈ before, isBlank c = true)
    (hcore : ∀ c ∈ core.head?, isBlank c = false) : (before ++ core).dropWhile isBlank = core := by
  rw [List.dropWhile_append_of_pos hblank]
  cases core with
  | nil => rfl
  | cons c cs => rw [List.dropWhile_cons_of_neg]; rw [hcore c rfl]; decide

theorem trim_of_surrounded {before core behind : List Char} (hblank : ∀ c ∈ before ++ behind, isBlank c = true)
    (hne : core ≠ []) (hcore : ∀ c ∈ core, isBlank c = false) : trim (before ++ core ++ behind) = core := by
  obtain ⟨hbefore, hbehind⟩ := List.forall_mem_append.1 hblank
  obtain ⟨c, cs, rfl⟩ := List.exists_cons_of_ne_nil hne
  unfold trim
  rw [List.append_assoc, dropWhile_isBlank_append hbefore fun x hx => hcore x (by cases hx; exact List.mem_cons_self),
    List.reverse_append, dropWhile_isBlank_append (fun x hx => hbehind x (List.mem_reverse.1 hx)) fun x hx =>
      hcore x (List.mem_reverse.1 (List.mem_of_mem_head? hx)), List.reverse_reverse]

theorem exists_surrounded (cs : List Char) : ∃ before behind, cs = before ++ trim cs ++ behind ∧
    ∀ c ∈ before ++ behind, isBlank c = true := by
  have hall (l : List Char) : ∀ c ∈ l.takeWhile isBlank, isBlank c = true := fun c hc => List.all_eq_true.1 List.all_takeWhile c hc
  let rest := (cs.dropWhile isBlank).reverse
  refine ⟨cs.takeWhile isBlank, (rest.takeWhile isBlank).reverse, ?_, ?_⟩
  · rw [List.append_assoc, trim, ← List.reverse_append, List.takeWhile_append_dropWhile, List.reverse_reverse,
      List.takeWhile_append_dropWhile]
  · rw [List.forall_mem_append]
    exact ⟨hall cs, fun c hc => hall rest c (List.mem_reverse.1 hc)⟩

end Text

/-! ## Addresses -/

namespace Address

open Text (isBlank trim readWord Numeral Worth IsDigit)

/-- **The ways to write an address**: a hexadecimal numeral behind the mark, whose letter is small or not, or a decimal
numeral. -/
inductive Numbered : List Char → Nat → Prop where
  | marked {x : Char} {cs : List Char} {n : Nat} (mark : x = 'x' ∨ x = 'X') (numeral : Numeral 16 cs n) :
    Numbered ('0' :: x :: cs) n
  | plain {cs : List Char} {n : Nat} (numeral : Numeral 10 cs n) : Numbered cs n

/-- The letter of a mark is no decimal digit. -/
theorem not_mem_of_decimal {cs : List Char} {n : Nat} (h : Numeral 10 cs n) {x : Char} (hx : x = 'x' ∨ x = 'X') :
    x ∉ cs := by
  intro hmem
  have hsmall : ∀ v < 10, 'x' ≠ Nat.digitChar v ∧ 'x' ≠ (Nat.digitChar v).toUpper := by decide
  have hcapital : ∀ v < 10, 'X' ≠ Nat.digitChar v ∧ 'X' ≠ (Nat.digitChar v).toUpper := by decide
  obtain rfl | ⟨v, hv, hc⟩ := h.mem hmem
  · exact absurd hx (by decide)
  · obtain rfl | rfl := hx
    · exact hc.elim (hsmall v hv).1 (hsmall v hv).2
    · exact hc.elim (hcapital v hv).1 (hcapital v hv).2

theorem readTrimmed_eq_ok_iff {cs : List Char} {w : UInt64} : readTrimmed cs = .ok w ↔ Numbered cs w.toNat := by
  constructor
  · intro h
    unfold readTrimmed at h
    split at h
    · exact .marked (.inl rfl) ((Text.readWord_eq_ok_iff (by decide)).1 h)
    · exact .marked (.inr rfl) ((Text.readWord_eq_ok_iff (by decide)).1 h)
    · exact .plain ((Text.readWord_eq_ok_iff (by decide)).1 h)
  · intro h
    cases h with
    | marked mark numeral =>
      obtain rfl | rfl := mark
      · exact (Text.readWord_eq_ok_iff (by decide)).2 numeral
      · exact (Text.readWord_eq_ok_iff (by decide)).2 numeral
    | plain numeral =>
      unfold readTrimmed
      split
      · exact absurd (List.mem_cons_of_mem _ List.mem_cons_self) (not_mem_of_decimal numeral (.inl rfl))
      · exact absurd (List.mem_cons_of_mem _ List.mem_cons_self) (not_mem_of_decimal numeral (.inr rfl))
      · exact (Text.readWord_eq_ok_iff (by decide)).2 numeral

theorem Numbered.ne_nil {cs : List Char} {n : Nat} (h : Numbered cs n) : cs ≠ [] := by
  cases h with
  | marked => exact List.cons_ne_nil _ _
  | plain numeral =>
    obtain ⟨sign, -, ds, hne, -, rfl⟩ := numeral
    exact fun h => hne (List.append_eq_nil_iff.1 h).2

theorem Numbered.not_blank {cs : List Char} {n : Nat} (h : Numbered cs n) : ∀ c ∈ cs, isBlank c = false := by
  have hnumeral {base : Nat} (hb : base ≤ 16) {ds : List Char} (hds : Numeral base ds n) :
      ∀ c ∈ ds, isBlank c = false := by
    intro c hc
    obtain rfl | ⟨v, hv⟩ := hds.mem hc
    · decide
    · exact hv.not_blank hb
  cases h with
  | marked mark numeral =>
    rw [List.forall_mem_cons, List.forall_mem_cons]
    refine ⟨by decide, ?_, hnumeral (by decide) numeral⟩
    obtain rfl | rfl := mark <;> decide
  | plain numeral => exact hnumeral (by decide) numeral

/-- **The texts that are addresses**: white space may stand around a numeral. -/
theorem ofText_ok_iff {s : String} {a : Address} :
    ofText s = .ok a ↔ ∃ before core behind, s.toList = before ++ core ++ behind ∧
      (∀ c ∈ before ++ behind, isBlank c = true) ∧ Numbered core a.toNat := by
  have htrim : ofText s = .ok a ↔ Numbered (trim s.toList) a.toNat := by
    rw [show a.toNat = a.word.toNat from rfl, ← readTrimmed_eq_ok_iff]
    unfold ofText
    dsimp only
    cases readTrimmed (trim s.toList) with
    | error e => exact ⟨fun h => (by cases h), fun h => (by cases h)⟩
    | ok w => exact ⟨fun h => (by cases h; rfl), fun h => (by cases h; rfl)⟩
  rw [htrim]
  constructor
  · intro h
    obtain ⟨before, behind, hs, hblank⟩ := Text.exists_surrounded s.toList
    exact ⟨before, _, behind, hs, hblank, h⟩
  · rintro ⟨before, core, behind, hs, hblank, h⟩
    rwa [hs, Text.trim_of_surrounded hblank h.ne_nil h.not_blank]

theorem ofText_of_numbered {s : String} {a : Address} (h : Numbered s.toList a.toNat) : ofText s = .ok a :=
  ofText_ok_iff.2 ⟨[], s.toList, [], by rw [List.nil_append, List.append_nil], fun c hc => absurd hc List.not_mem_nil, h⟩

/-! ## Printed addresses -/

theorem numeral_of_worth {base : Nat} {ds : List Char} {n : Nat} (hne : ds ≠ []) (h : Worth base ds n) :
    Numeral base ds n :=
  ⟨[], by decide, ds, hne, h, rfl⟩

theorem toList_text (a : Address) :
    ∃ k, a.text.toList = '0' :: 'x' :: (List.replicate k '0' ++ Nat.toDigits 16 a.toNat) := by
  simp [text, Text.Layout.hex, Text.Layout.join, Text.Layout.sign, Text.hex]

theorem ofText_text (a : Address) : ofText a.text = .ok a := by
  apply ofText_of_numbered
  obtain ⟨k, hk⟩ := a.toList_text
  rw [hk]
  refine .marked (.inl rfl) (numeral_of_worth ?_ ((Text.worth_toDigits (by decide) _).zeros (by decide) k))
  exact fun h => Nat.toDigits_ne_nil (List.append_eq_nil_iff.1 h).2

theorem ofText_decimal (a : Address) : ofText (Text.decimal a.toNat) = .ok a := by
  apply ofText_of_numbered
  rw [Text.decimal, String.toList_ofList]
  exact .plain (numeral_of_worth Nat.toDigits_ne_nil (Text.worth_toDigits (by decide) _))

/-- Nothing in an address is escaped. -/
theorem compact_short (a : Address) : (Json.str a.short).compact = "\"" ++ a.short ++ "\"" := by
  have hall : ∀ v < 16, Json.escapeChar (Nat.digitChar v) = [Nat.digitChar v] := by decide
  have hplain (c : Char) (hc : c ∈ a.short.toList) : Json.escapeChar c = [c] := by
    rw [toList_short, List.mem_cons, List.mem_cons] at hc
    obtain rfl | rfl | hc := hc
    · rfl
    · rfl
    · obtain ⟨v, hv, rfl⟩ := Text.mem_toDigits (by decide) hc
      exact hall v hv
  have hsame : a.short.toList.flatMap Json.escapeChar = a.short.toList := by
    rw [List.flatMap_def, List.map_congr_left hplain, ← List.flatMap_def, List.flatMap_singleton']
  rw [Json.compact, Json.quote, hsame, List.cons_append, ← String.toList_inj]
  simp

/-- **An address is read from its numerals and from nothing else, and so from every text it is printed as.**  A text
spells a number if it is white space around a numeral that is worth the number, and is an address if the number is a
word.  The text with sixteen digits, the text in reports, whose quotes stand around it unescaped, and the decimal numeral
all are read as the address they were made from. -/
theorem ofText_inverts_printed :
    (∀ (s : String) (n : Nat), (∃ a, ofText s = .ok a ∧ a.toNat = n) ↔
      n < 2 ^ 64 ∧ ∃ before core behind, s.toList = before ++ core ++ behind ∧
        (∀ c ∈ before ++ behind, isBlank c = true) ∧ Numbered core n) ∧
    ∀ a : Address, ofText a.text = .ok a ∧
      (Json.str a.short).compact = "\"" ++ a.short ++ "\"" ∧ ofText a.short = .ok a ∧
      ofText (Text.decimal a.toNat) = .ok a := by
  refine ⟨fun s n => ⟨?_, ?_⟩, fun a => ⟨a.ofText_text, a.compact_short, a.ofText_short, a.ofText_decimal⟩⟩
  · rintro ⟨a, ha, rfl⟩
    exact ⟨a.word.toNat_lt, ofText_ok_iff.1 ha⟩
  · rintro ⟨hn, h⟩
    have ha : (⟨UInt64.ofNat n⟩ : Address).toNat = n := UInt64.toNat_ofNat_of_lt' hn
    rw [← ha] at h
    exact ⟨_, ofText_ok_iff.2 h, ha⟩

example : ofText "\u2003 0X+00fF\n" = .ok ⟨0xff⟩ ∧
    ofText "018446744073709551616" = .error ⟨"018446744073709551616", .tooLarge⟩ := ⟨rfl, rfl⟩

end Address
end BranchChain
