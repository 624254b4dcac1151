import BranchChain.Proofs.Results
import BranchChain.Settings
/-!
# Proofs.Spelling — texts that spell an anchor

A text spells a pattern if each of its words spells a byte (`Pattern.ofHex_ok_iff`), and settings are valid if there is
such a word and the limit is not zero (`Settings.validate_ok_iff`).  Nothing else is ever asked of an anchor, so whoever
reads the anchor of valid settings again finds a pattern in it, and not the empty one.
-/
namespace BranchChain

/-! ## Words that are bytes -/

/-- The hexadecimal digits of both cases. -/
def Text.hexDigits : List Char :=
  ['0', '1', '2', '3', '4', '5', '6', '7', '8', '9', 'a', 'b', 'c', 'd', 'e', 'f', 'A', 'B', 'C', 'D', 'E', 'F']

theorem Text.digitValue?_isSome_iff (c : Char) : (digitValue? 16 c).isSome = true ↔ c ∈ hexDigits := by
  by_cases h : c.toNat < 128
  · have hall : ∀ n < 128, ((digitValue? 16 (Char.ofNat n)).isSome = true ↔ Char.ofNat n ∈ hexDigits) := by
      decide +kernel
    have hc := hall c.toNat h
    rwa [Char.ofNat_toNat] at hc
  · have hall : hexDigits.all (fun d => d.toNat < 128) = true := by decide
    have hdigits : ∀ d ∈ hexDigits, d.toNat < 128 := fun d hd => of_decide_eq_true (List.all_eq_true.1 hall d hd)
    have hnone : digitValue? 16 c = none := by
      have hle (d : Char) (hd : d.toNat < 128) : ¬ c ≤ d := fun hcd => h (Nat.lt_of_le_of_lt hcd hd)
      unfold digitValue?
      rw [if_neg fun hc => hle '9' (by decide) hc.2, if_neg fun hc => hle 'z' (by decide) hc.2,
        if_neg fun hc => hle 'Z' (by decide) hc.2]
      rfl
    rw [hnone]
    exact ⟨fun hs => (by cases hs), fun hc => absurd (hdigits c hc) h⟩

namespace Pattern

open Text (digitValue? hexDigits words)

/-- **A word that is a byte**: two hexadecimal digits, behind one mark at most. -/
def IsByteWord (w : List Char) : Prop :=
  ∃ mark ∈ [[], ['0', 'x'], ['0', 'X']], ∃ c ∈ hexDigits, ∃ d ∈ hexDigits, w = mark ++ [c, d]

theorem exists_mark (w : List Char) : ∃ mark ∈ [[], ['0', 'x'], ['0', 'X']], w = mark ++ unmarked w := by
  unfold unmarked
  split
  · exact ⟨['0', 'x'], by decide, rfl⟩
  · exact ⟨['0', 'X'], by decide, rfl⟩
  · exact ⟨[], by decide, rfl⟩

/-- The letter of a mark is no digit, so two digits never are a mark. -/
theorem unmarked_digits {mark : List Char} {c d : Char} (hmark : mark ∈ [[], ['0', 'x'], ['0', 'X']])
    (hd : d ∈ hexDigits) : unmarked (mark ++ [c, d]) = [c, d] := by
  simp only [List.mem_cons, List.not_mem_nil, or_false] at hmark
  obtain rfl | rfl | rfl := hmark
  · rw [List.nil_append]
    unfold unmarked
    split
    · rename_i heq
      cases heq
      exact absurd hd (by decide)
    · rename_i heq
      cases heq
      exact absurd hd (by decide)
    · rfl
  · rfl
  · rfl

theorem readByte_ok_iff (w : List Char) : (∃ b, readByte w = .ok b) ↔ IsByteWord w := by
  constructor
  · rintro ⟨b, h⟩
    obtain ⟨mark, hmark, hw⟩ := exists_mark w
    unfold readByte at h
    split at h
    · rename_i c d hcd
      split at h
      · rename_i x y hc hd
        rw [hcd] at hw
        have hc' := (Text.digitValue?_isSome_iff c).1 (by rw [hc]; rfl)
        have hd' := (Text.digitValue?_isSome_iff d).1 (by rw [hd]; rfl)
        exact ⟨mark, hmark, c, hc', d, hd', hw⟩
      · cases h
    · cases h
  · rintro ⟨mark, hmark, c, hc, d, hd, rfl⟩
    obtain ⟨x, hx⟩ := Option.isSome_iff_exists.1 ((Text.digitValue?_isSome_iff c).2 hc)
    obtain ⟨y, hy⟩ := Option.isSome_iff_exists.1 ((Text.digitValue?_isSome_iff d).2 hd)
    exact ⟨UInt8.ofNat (16 * x + y), by simp only [readByte, unmarked_digits hmark hd, hx, hy]⟩

/-! ## Texts that are patterns -/

theorem ofHex_eq_ok_iff {s : String} {p : Pattern} :
    ofHex s = .ok p ↔ (words s.toList).mapM readByte = .ok p.bytes ∧ p.name = none := by
  unfold ofHex
  cases h : (words s.toList).mapM readByte with
  | error e => exact ⟨fun hp => (by cases hp), fun hp => (by cases hp.1)⟩
  | ok bytes =>
    obtain ⟨bytes', name⟩ := p
    show Except.ok (Pattern.mk bytes none) = .ok ⟨bytes', name⟩ ↔ _
    simp [eq_comm]

/-- **A text is a pattern if each of its words is a byte.** -/
theorem ofHex_ok_iff (s : String) : (∃ p, ofHex s = .ok p) ↔ ∀ w ∈ words s.toList, IsByteWord w := by
  simp only [← readByte_ok_iff, ← exists_mapM_eq_ok_iff, ofHex_eq_ok_iff]
  exact ⟨fun ⟨p, h, _⟩ => ⟨p.bytes, h⟩, fun ⟨bytes, h⟩ => ⟨⟨bytes, none⟩, h, rfl⟩⟩

/-- There is a byte for each word. -/
theorem length_of_ofHex {s : String} {p : Pattern} (h : ofHex s = .ok p) : p.length = (words s.toList).length :=
  length_of_mapM_eq_ok (ofHex_eq_ok_iff.1 h).1

theorem bytes_ne_nil_iff {s : String} {p : Pattern} (h : ofHex s = .ok p) : p.bytes ≠ [] ↔ words s.toList ≠ [] := by
  rw [← List.length_pos_iff, ← List.length_pos_iff, ← length_of_ofHex h, length]

end Pattern

/-! ## Valid settings -/

namespace Settings

open Text (words)
open Pattern (IsByteWord)

variable {s : Settings}

theorem pattern_eq_ok_iff {p : Pattern} :
    s.pattern = .ok p ↔ ∃ q, Pattern.ofHex s.anchor = .ok q ∧ p = q.named "anchor" := by
  unfold pattern
  cases Pattern.ofHex s.anchor with
  | error e => exact ⟨fun h => (by cases h), fun ⟨q, h, _⟩ => (by cases h)⟩
  | ok q =>
    constructor
    · intro h
      cases h
      exact ⟨q, rfl, rfl⟩
    · rintro ⟨q', h, rfl⟩
      cases h
      rfl

theorem validate_eq_ok_iff :
    s.validate = .ok () ↔ (∃ p, s.pattern = .ok p ∧ p.bytes ≠ []) ∧ s.scanLimit ≠ 0 := by
  unfold validate
  cases s.pattern with
  | error e => exact ⟨fun h => (by cases h), fun ⟨⟨p, h, _⟩, _⟩ => (by cases h)⟩
  | ok p =>
    dsimp only
    split
    · rename_i hp
      rw [Pattern.isEmpty, List.isEmpty_iff] at hp
      exact ⟨fun h => (by cases h), fun ⟨⟨q, h, hq⟩, _⟩ => (by cases h; exact absurd hp hq)⟩
    · rename_i hp
      rw [Pattern.isEmpty, List.isEmpty_iff] at hp
      split
      · rename_i hl
        exact ⟨fun h => (by cases h), fun h => absurd hl h.2⟩
      · rename_i hl
        exact ⟨fun _ => ⟨⟨p, rfl, hp⟩, hl⟩, fun _ => rfl⟩

/-- **Settings are valid if their anchor has words, all of them bytes, and their limit is not zero.** -/
theorem validate_ok_iff :
    s.validate = .ok () ↔
      words s.anchor.toList ≠ [] ∧ (∀ w ∈ words s.anchor.toList, IsByteWord w) ∧ 0 < s.scanLimit := by
  rw [validate_eq_ok_iff, UInt64.pos_iff_ne_zero, ← and_assoc, and_congr_left_iff]
  intro _
  rw [← Pattern.ofHex_ok_iff]
  constructor
  · rintro ⟨p, hp, hne⟩
    obtain ⟨q, hq, rfl⟩ := pattern_eq_ok_iff.1 hp
    exact ⟨(Pattern.bytes_ne_nil_iff hq).1 hne, q, hq⟩
  · rintro ⟨hne, q, hq⟩
    exact ⟨q.named "anchor", pattern_eq_ok_iff.2 ⟨q, hq, rfl⟩, (Pattern.bytes_ne_nil_iff hq).2 hne⟩

end Settings
end BranchChain
