import BranchChain.Address.Reader
import BranchChain.Json.Token
import BranchChain.Proofs.Results
/-!
# Proofs.Numbering — numbers written and read again

A number is written digit by digit from its last one back: all but the last are the digits of a smaller number.  So what a
reader makes of digits follows the same way (`Text.readDigits_toDigits`), and a machine word is read as it was written, in
decimal and in hexadecimal (`Text.readWord_toDigits`), also as an address (`Address.ofText_short`).
-/
namespace BranchChain
namespace Text

/-! ## Digits -/

theorem digitValue?_digitChar {b d : Nat} (hb : b ≤ 16) (hd : d < b) : digitValue? b (Nat.digitChar d) = some d := by
  have hall : ∀ b < 17, ∀ d < b, digitValue? b (Nat.digitChar d) = some d := by decide
  exact hall b (by omega) d hd

theorem mem_toDigits {b : Nat} (hb : 1 < b) {c : Char} : ∀ {n : Nat}, c ∈ Nat.toDigits b n →
    ∃ d < b, c = Nat.digitChar d := by
  intro n
  induction n using Nat.strongRecOn with
  | ind n ih =>
    intro hc
    by_cases hn : n < b
    · rw [Nat.toDigits_of_lt_base hn, List.mem_singleton] at hc
      exact ⟨n, hn, hc⟩
    · rw [Nat.toDigits_of_base_le hb (by omega), List.mem_append, List.mem_singleton] at hc
      obtain hc | hc := hc
      · exact ih _ (Nat.div_lt_self (by omega) hb) hc
      · exact ⟨n % b, Nat.mod_lt _ (by omega), hc⟩

/-- No number but zero begins with a zero. -/
theorem head?_toDigits {b n : Nat} (hb : 1 < b) (hb' : b ≤ 16) (h0 : 0 < n) : (Nat.toDigits b n).head? ≠ some '0' := by
  induction n using Nat.strongRecOn with
  | ind n ih =>
    by_cases hn : n < b
    · rw [Nat.toDigits_of_lt_base hn, List.head?_cons]
      have hall : ∀ d < 16, 0 < d → some (Nat.digitChar d) ≠ some '0' := by decide
      exact hall n (by omega) h0
    · have hrest := ih _ (Nat.div_lt_self h0 hb) (Nat.div_pos (by omega) (by omega))
      have hsome : (Nat.toDigits b (n / b)).head?.isSome = true := List.isSome_head?.2 Nat.toDigits_ne_nil
      rwa [Nat.toDigits_of_base_le hb (by omega), List.head?_append, Option.or_of_isSome hsome]

theorem signed_eq_repr (n : Int) : signed n = n.repr := by
  cases n <;> simp [signed, decimal, Int.repr, Nat.repr]

/-! ## Words -/

theorem readDigits_append (b : Nat) (ds : List Char) : ∀ (cs : List Char) (acc : Nat),
    readDigits b acc (cs ++ ds) = readDigits b acc cs >>= fun n => readDigits b n ds
  | [], acc => rfl
  | c :: cs, acc => by
    rw [List.cons_append, readDigits, readDigits]
    cases digitValue? b c with
    | none => rfl
    | some d =>
      dsimp only
      split
      · exact readDigits_append b ds cs _
      · rfl

theorem readDigits_toDigits {b n : Nat} (hb : 1 < b) (hb' : b ≤ 16) (h : n < UInt64.size) :
    readDigits b 0 (Nat.toDigits b n) = .ok n := by
  have hlast (acc d : Nat) (hd : d < b) (hfits : acc * b + d < UInt64.size) :
      readDigits b acc [Nat.digitChar d] = .ok (acc * b + d) := by
    simp only [readDigits, digitValue?_digitChar hb' hd, if_pos hfits]
  induction n using Nat.strongRecOn with
  | ind n ih =>
    by_cases hn : n < b
    · rw [Nat.toDigits_of_lt_base hn, hlast 0 n hn (by omega), Nat.zero_mul, Nat.zero_add]
    · have hdiv : n / b < n := Nat.div_lt_self (by omega) hb
      have hsum : n / b * b + n % b = n := Nat.div_add_mod' n b
      rw [Nat.toDigits_of_base_le hb (by omega), readDigits_append, ih _ hdiv (by omega), bind_ok,
        hlast _ _ (Nat.mod_lt _ (by omega)) (by omega), hsum]

/-- **A word is read as it was written.** -/
theorem readWord_toDigits {b : Nat} (hb : 1 < b) (hb' : b ≤ 16) (w : UInt64) :
    readWord b (Nat.toDigits b w.toNat) = .ok w := by
  have hdigits := readDigits_toDigits hb hb' w.toNat_lt
  have hplus : '+' ∉ Nat.toDigits b w.toNat := by
    intro hmem
    obtain ⟨d, hd, heq⟩ := mem_toDigits hb hmem
    have hall : ∀ d < 16, '+' ≠ Nat.digitChar d := by decide
    exact hall d (by omega) heq
  unfold readWord
  split
  · rename_i heq
    exact absurd heq Nat.toDigits_ne_nil
  · rename_i heq
    rw [heq] at hplus
    exact absurd List.mem_cons_self hplus
  · rw [hdigits]
    exact congrArg Except.ok (UInt64.ofNat_toNat)

theorem trim_of_forall {cs : List Char} (h : ∀ c ∈ cs, isBlank c = false) : trim cs = cs := by
  have hdrop {cs : List Char} (h : ∀ c ∈ cs, isBlank c = false) : cs.dropWhile isBlank = cs := by
    cases cs with
    | nil => rfl
    | cons c cs => rw [List.dropWhile_cons, h c List.mem_cons_self]; rfl
  rw [trim, hdrop h, hdrop fun c hc => h c (List.mem_reverse.1 hc), List.reverse_reverse]

end Text

/-! ## Addresses -/

namespace Address

theorem toList_short (a : Address) : a.short.toList = '0' :: 'x' :: Nat.toDigits 16 a.toNat := by
  simp [short, Text.Layout.hex, Text.Layout.join, Text.Layout.pad, Text.Layout.sign, Text.hex]

/-- **An address is read from the text that reports give it.** -/
theorem ofText_short (a : Address) : ofText a.short = .ok a := by
  have hblank : ∀ c ∈ a.short.toList, Text.isBlank c = false := by
    rw [toList_short]
    intro c hc
    rw [List.mem_cons, List.mem_cons] at hc
    obtain rfl | rfl | hc := hc
    · decide
    · decide
    · obtain ⟨d, hd, rfl⟩ := Text.mem_toDigits (by decide) hc
      have hall : ∀ d < 16, Text.isBlank (Nat.digitChar d) = false := by decide
      exact hall d hd
  unfold ofText
  rw [Text.trim_of_forall hblank, toList_short]
  simp only [readTrimmed]
  rw [show a.toNat = a.word.toNat from rfl, Text.readWord_toDigits (by decide) (by decide)]

end Address
end BranchChain
