import BranchChain.Proofs.Numbering
import Mathlib.Data.List.Forall2
/-!
# Proofs.Cutting — texts that are cut as they were written

A token is cut off with the text it spells (`Json.spans`).  What is cut off the front of a text depends on what follows it
only where that could go on with a number (`Json.Closes`), so a text can be cut piece by piece (`Json.Cuts.append`).  In
this way both texts of a value are cut into the same tokens, those it is written with (`Json.written`), whatever strings and
numbers it holds (`Json.spans_compact`, `Json.spans_pretty`).
-/
namespace BranchChain
namespace Json

/-! ## Tokens with their texts -/

/-- **A token and the text it was cut from.** -/
structure Span where
  token : Token
  text : List Char
  deriving DecidableEq, Repr

def spansFrom : Nat → List Char → List Span
  | 0, _ => []
  | n + 1, cs =>
    match cs.dropWhile isSpace with
    | [] => []
    | c :: cs => ⟨(tokenFrom c cs).1, (c :: cs).take (cs.length + 1 - (tokenFrom c cs).2.length)⟩ :: spansFrom n (tokenFrom c cs).2

/-- **The tokens of a text, with their texts.** -/
def spans (cs : List Char) : List Span := spansFrom cs.length cs

theorem cut_eq : ∀ (n : Nat) (cs : List Char), cut n cs = (spansFrom n cs).map Span.token
  | 0, cs => rfl
  | n + 1, cs => by
    rw [cut, spansFrom]
    cases cs.dropWhile isSpace with
    | nil => rfl
    | cons c cs => exact congrArg (_ :: ·) (cut_eq n (tokenFrom c cs).2)

theorem tokens_eq (cs : List Char) : tokens cs = (spans cs).map Span.token := cut_eq cs.length cs

/-! ## Texts cut piece by piece -/

/-- **A text in front of another is cut into spans**, and then the other is cut. -/
def Cuts (w : List Char) (ss : List Span) (rest : List Char) : Prop :=
  ∀ n, (w ++ rest).length ≤ n → ∃ k, rest.length ≤ k ∧ spansFrom n (w ++ rest) = ss ++ spansFrom k rest

/-- **No number goes on** with a text. -/
def Closes (rest : List Char) : Prop := ∀ c ∈ rest.head?, c.isDigit = false ∧ c ≠ '.' ∧ c ≠ 'e' ∧ c ≠ 'E'

def Writes (w : List Char) (ss : List Span) : Prop := ∀ rest, Closes rest → Cuts w ss rest

variable {w w' rest : List Char} {ss ss' : List Span} {c : Char} {t : Token}

theorem Cuts.append (h : Cuts w ss (w' ++ rest)) (h' : Cuts w' ss' rest) : Cuts (w ++ w') (ss ++ ss') rest := by
  intro n hn
  rw [List.append_assoc] at hn ⊢
  obtain ⟨k, hk, hss⟩ := h n hn
  obtain ⟨k', hk', hss'⟩ := h' k hk
  exact ⟨k', hk', by rw [hss, hss', List.append_assoc]⟩

theorem cuts_gap (h : ∀ c ∈ w, isSpace c = true) : Cuts w [] rest := by
  intro n hn
  rw [List.length_append] at hn
  refine ⟨n, by omega, ?_⟩
  cases n with
  | zero => rfl
  | succ n =>
    rw [spansFrom, spansFrom, List.dropWhile_append_of_pos h]
    rfl

theorem cuts_token (hc : isSpace c = false) (h : tokenFrom c (w ++ rest) = (t, rest)) :
    Cuts (c :: w) [⟨t, c :: w⟩] rest := by
  intro n hn
  rw [List.cons_append, List.length_cons, List.length_append] at hn
  obtain ⟨n, rfl⟩ := Nat.exists_eq_add_of_le' (show 1 ≤ n by omega)
  refine ⟨n, by omega, ?_⟩
  -- the token's text is what is missing of the text behind it
  have htake : (c :: (w ++ rest)).take ((w ++ rest).length + 1 - rest.length) = c :: w := by
    rw [List.length_append, show w.length + rest.length + 1 - rest.length = w.length + 1 by omega, List.take_succ_cons,
      List.take_left]
  rw [spansFrom, List.cons_append, List.dropWhile_cons_of_neg (by rw [hc]; decide)]
  dsimp only
  rw [h, htake]
  rfl

theorem spans_of_cuts (h : Cuts w ss []) : spans w = ss := by
  obtain ⟨k, -, hk⟩ := h w.length (Nat.le_of_eq (by rw [List.append_nil]))
  rw [List.append_nil] at hk
  rw [spans, hk]
  cases k <;> exact List.append_nil ss

theorem closes_nil : Closes [] := fun c hc => by cases hc

theorem closes_cons (h : c.isDigit = false ∧ c ≠ '.' ∧ c ≠ 'e' ∧ c ≠ 'E') : Closes (c :: rest) := by
  intro d hd
  cases hd
  exact h

/-! ## Strings -/

/-- What a written character is read as: by its number, where it has no other text. -/
def pieceOf (c : Char) : Piece :=
  if c.toNat < 0x20 ∧ c ∉ ['\x08', '\x0c', '\n', '\r', '\t'] then .unit c.toNat else .plain c

theorem unit?_hexByte {n : Nat} (hn : n < 0x20) :
    unit? '0' '0' (Nat.digitChar (n / 16)) (Nat.digitChar (n % 16)) = some n := by
  have hall : ∀ n < 0x20, unit? '0' '0' (Nat.digitChar (n / 16)) (Nat.digitChar (n % 16)) = some n := by decide
  exact hall n hn

theorem piecesBehind_plain (before : List Piece) {c : Char} (cs : List Char) (hquote : c ≠ '"') (hback : c ≠ '\\')
    (hplain : ¬ c.toNat < 0x20) : piecesBehind before (c :: cs) = piecesBehind (.plain c :: before) cs := by
  rw [piecesBehind]
  · exact if_neg hplain
  · exact hquote
  · exact fun a b c' d rest h => absurd h hback
  · exact fun rest h => absurd h hback
  · exact fun e rest h => absurd h hback
  · exact fun h => absurd h hback

theorem piecesBehind_escapeChar (before : List Piece) (c : Char) (cs : List Char) :
    piecesBehind before (escapeChar c ++ cs) = piecesBehind (pieceOf c :: before) cs := by
  -- seven characters have an escape of their own, the other control characters one by number, and the rest has none
  by_cases hletter : c ∈ ['"', '\\', '\x08', '\x0c', '\n', '\r', '\t']
  · simp only [List.mem_cons, List.not_mem_nil, or_false] at hletter
    obtain rfl | rfl | rfl | rfl | rfl | rfl | rfl := hletter <;> rfl
  · simp only [List.mem_cons, List.not_mem_nil, or_false, not_or] at hletter
    obtain ⟨hquote, hback, h1, h2, h3, h4, h5⟩ := hletter
    simp only [escapeChar, pieceOf, if_neg hquote, if_neg hback, if_neg h1, if_neg h2, if_neg h3, if_neg h4, if_neg h5]
    by_cases hctrl : c.toNat < 0x20
    · have hbyte : (UInt8.ofNat c.toNat).toNat = c.toNat := UInt8.toNat_ofNat_of_lt' (Nat.lt_trans hctrl (by decide))
      rw [if_pos hctrl, if_pos ⟨hctrl, by simp [h1, h2, h3, h4, h5]⟩, Text.hexByte, hbyte]
      show piecesBehind before ('\\' :: 'u' :: '0' :: '0' :: _ :: _ :: cs) = _
      rw [piecesBehind, unit?_hexByte hctrl]
    · rw [if_neg hctrl, if_neg fun h => hctrl h.1]
      exact piecesBehind_plain before cs hquote hback hctrl

theorem pieces_escaped (cs rest : List Char) :
    pieces (cs.flatMap escapeChar ++ '"' :: rest) = (cs.map pieceOf, .ok rest) := by
  have hgo : ∀ (cs : List Char) (before : List Piece),
      piecesBehind before (cs.flatMap escapeChar ++ '"' :: rest) = (before.reverse ++ cs.map pieceOf, .ok rest) := by
    intro cs
    induction cs with
    | nil =>
      intro before
      rw [List.map_nil, List.append_nil]
      rfl
    | cons c cs ih =>
      intro before
      rw [List.flatMap_cons, List.append_assoc, piecesBehind_escapeChar, ih, List.reverse_cons, List.append_assoc]
      rfl
  exact hgo cs []

/-- A character is spelled by its piece, as no control character is a surrogate. -/
theorem spellBehind_pieceOf (before : List Char) (c : Char) (ps : List Piece) :
    spellBehind true before (pieceOf c :: ps) = spellBehind true (c :: before) ps := by
  unfold pieceOf
  split
  · rename_i h
    have htrail : isTrail c.toNat = false := by
      rw [isTrail, Bool.and_eq_false_iff, decide_eq_false_iff_not]
      exact .inl (by omega)
    have hlead : isLead c.toNat = false := by
      rw [isLead, Bool.and_eq_false_iff, decide_eq_false_iff_not]
      exact .inl (by omega)
    cases ps with
    | nil => simp [spellBehind, htrail, hlead]
    | cons p ps => cases p <;> simp [spellBehind, htrail, hlead]
  · rfl

theorem spell_pieceOf (cs : List Char) : spell true (cs.map pieceOf) = some cs := by
  have hgo : ∀ (cs before : List Char), spellBehind true before (cs.map pieceOf) = some (before.reverse ++ cs) := by
    intro cs
    induction cs with
    | nil =>
      intro before
      rw [List.append_nil]
      rfl
    | cons c cs ih =>
      intro before
      rw [List.map_cons, spellBehind_pieceOf, ih, List.reverse_cons, List.append_assoc]
      rfl
  exact hgo cs []

theorem toList_quote (s : String) : (quote s).toList = '"' :: (s.toList.flatMap escapeChar ++ ['"']) := by
  rw [quote, String.toList_ofList, List.cons_append]

/-- **A written string is read as itself.** -/
theorem cuts_quote (s : String) (rest : List Char) : Cuts (quote s).toList [⟨.string (some s), (quote s).toList⟩] rest := by
  rw [toList_quote]
  refine cuts_token (by decide) ?_
  show stringToken _ = _
  rw [List.append_assoc, List.singleton_append, stringToken, pieces_escaped]
  dsimp only
  rw [spell_pieceOf, Option.map_some, String.ofList_toList]

/-! ## Numbers -/

/-- What a whole number is read as. -/
def numberOf (n : Int) : Number :=
  let m := wholeMagnitude (Nat.toDigits 10 n.natAbs)
  if 0 ≤ n ∧ m.exponent = 0 then .word (UInt64.ofNat m.leading) else m.number

theorem toNat_of_digitValue? {d : Nat} (h : Text.digitValue? 10 c = some d) : c.toNat - '0'.toNat = d := by
  rw [Text.digitValue?, Option.filter_eq_some_iff] at h
  obtain ⟨hv, hd⟩ := h
  rw [decide_eq_true_eq] at hd
  split at hv
  · exact Option.some.inj hv
  · split at hv
    · cases hv
      omega
    · split at hv
      · cases hv
        omega
      · cases hv

/-- Digits that are read as a word fill one, with nothing left over. -/
theorem fill_of_readDigits : ∀ {cs : List Char} {acc n : Nat}, Text.readDigits 10 acc cs = .ok n → fill acc cs = (n, [])
  | [], acc, n, h => by
    cases h
    rfl
  | c :: cs, acc, n, h => by
    rw [Text.readDigits] at h
    split at h
    · cases h
    · rename_i d hd
      split at h
      · rename_i hfits
        rw [fill, toNat_of_digitValue? hd, if_pos hfits, fill_of_readDigits h]
      · cases h

theorem numberOf_word (w : UInt64) : numberOf w.toNat = .word w := by
  have hfill := fill_of_readDigits (Text.readDigits_toDigits (by decide) (by decide) w.toNat_lt)
  rw [numberOf, Int.natAbs_natCast, wholeMagnitude, hfill]
  simp

theorem digits_of_closes (h : Closes rest) : rest.takeWhile Char.isDigit = [] ∧ rest.dropWhile Char.isDigit = rest := by
  cases rest with
  | nil => exact ⟨rfl, rfl⟩
  | cons c rest =>
    have hc := (h c rfl).1
    rw [List.takeWhile_cons, List.dropWhile_cons, hc]
    exact ⟨rfl, rfl⟩

theorem exponentToken_of_closes (h : Closes rest) (m : Magnitude) (plain : Number) :
    exponentToken m plain rest = (.number plain, rest) := by
  cases rest with
  | nil => rfl
  | cons c rest =>
    obtain ⟨-, -, he, hE⟩ := h c rfl
    exact if_neg (not_or.2 ⟨he, hE⟩)

theorem numberToken_toDigits (n : Int) (h : Closes rest) :
    numberToken (decide (n < 0)) (Nat.toDigits 10 n.natAbs ++ rest) = (.number (numberOf n), rest) := by
  have hdigits : ∀ c ∈ Nat.toDigits 10 n.natAbs, c.isDigit = true := fun c hc =>
    Nat.isDigit_of_mem_toDigits (by decide) (by decide) hc
  obtain ⟨htake, hdrop⟩ := digits_of_closes h
  have hempty : (Nat.toDigits 10 n.natAbs).isEmpty = false := List.isEmpty_eq_false_iff.2 Nat.toDigits_ne_nil
  have hzero : ¬ ((Nat.toDigits 10 n.natAbs).head? = some '0' ∧ 1 < (Nat.toDigits 10 n.natAbs).length) := by
    rintro ⟨hhead, hlen⟩
    by_cases hn : 0 < n.natAbs
    · exact Text.head?_toDigits (by decide) (by decide) hn hhead
    · rw [Nat.eq_zero_of_not_pos hn] at hlen
      exact absurd hlen (by decide)
  unfold numberToken
  rw [List.takeWhile_append_of_pos hdigits, List.dropWhile_append_of_pos hdigits, htake, hdrop, List.append_nil]
  simp only [hempty, Bool.false_eq_true, ↓reduceIte, if_neg hzero]
  split
  · rename_i cs
    exact absurd rfl (h '.' rfl).2.1
  · rw [exponentToken_of_closes h, numberOf]
    simp

theorem tokenFrom_of_isDigit (hc : c.isDigit = true) (cs : List Char) : tokenFrom c cs = numberToken false (c :: cs) := by
  unfold tokenFrom
  split
  case h_12 => rw [if_pos hc]
  all_goals exact absurd hc (by decide)

theorem not_isSpace_of_isDigit (hc : c.isDigit = true) : isSpace c = false := by
  rw [Bool.eq_false_iff]
  intro hspace
  simp only [isSpace, Bool.or_eq_true, beq_iff_eq] at hspace
  obtain ((rfl | rfl) | rfl) | rfl := hspace <;> exact absurd hc (by decide)

/-- **A written number is read as itself**, where none goes on behind it. -/
theorem writes_signed (n : Int) : Writes (Text.signed n).toList [⟨.number (numberOf n), (Text.signed n).toList⟩] := by
  intro rest hrest
  have htoken := numberToken_toDigits n hrest
  by_cases hn : n < 0
  · have htext : (Text.signed n).toList = '-' :: Nat.toDigits 10 n.natAbs := by simp [Text.signed, hn, Text.decimal]
    rw [htext]
    rw [decide_eq_true hn] at htoken
    exact cuts_token (by decide) htoken
  · have htext : (Text.signed n).toList = Nat.toDigits 10 n.natAbs := by simp [Text.signed, hn, Text.decimal]
    obtain ⟨c, w, hcw⟩ := List.exists_cons_of_ne_nil (Nat.toDigits_ne_nil (n := n.natAbs) (b := 10))
    have hc : c.isDigit = true := Nat.isDigit_of_mem_toDigits (b := 10) (by decide) (by decide) (hcw ▸ List.mem_cons_self)
    rw [htext, hcw]
    rw [decide_eq_false hn, hcw, List.cons_append, ← tokenFrom_of_isDigit hc] at htoken
    exact cuts_token (not_isSpace_of_isDigit hc) htoken

/-! ## Values -/

def mark (t : Token) (c : Char) : Span := ⟨t, [c]⟩

mutual

/-- **What a value is written with**, blanks aside. -/
def written : Json → List Span
  | .null => [⟨.null, ['n', 'u', 'l', 'l']⟩]
  | .bool b => [⟨.bool b, if b then ['t', 'r', 'u', 'e'] else ['f', 'a', 'l', 's', 'e']⟩]
  | .int n => [⟨.number (numberOf n), (Text.signed n).toList⟩]
  | .str s => [⟨.string (some s), (quote s).toList⟩]
  | .arr items => mark .bracketOpen '[' :: [mark .comma ','].intercalate (writtenItems items) ++ [mark .bracketClose ']']
  | .obj fields => mark .braceOpen '\x7b' :: [mark .comma ','].intercalate (writtenFields fields) ++ [mark .braceClose '\x7d']

def writtenItems : List Json → List (List Span)
  | [] => []
  | j :: js => written j :: writtenItems js

def writtenFields : List (String × Json) → List (List Span)
  | [] => []
  | (k, j) :: fs => (⟨.string (some k), (quote k).toList⟩ :: mark .colon ':' :: written j) :: writtenFields fs

end

/-- Items with commas between them are the first and the others, each behind a comma. -/
theorem intercalate_eq_flatMap {α : Type} (x : α) (l : List α) (ls : List (List α)) :
    [x].intercalate (l :: ls) = l ++ ls.flatMap (x :: ·) := by
  induction ls generalizing l with
  | nil => rw [List.intercalate_singleton, List.flatMap_nil, List.append_nil]
  | cons l' ls ih =>
    rw [List.intercalate_cons_cons, ih, List.flatMap_cons, List.append_assoc]
    rfl

/-! ## Layouts -/

/-- **A character that is a token by itself**, and no part of a number. -/
def IsMark (t : Token) (c : Char) : Prop :=
  isSpace c = false ∧ (c.isDigit = false ∧ c ≠ '.' ∧ c ≠ 'e' ∧ c ≠ 'E') ∧ ∀ cs, tokenFrom c cs = (t, cs)

theorem isMark_comma : IsMark .comma ',' := ⟨by decide, by decide, fun _ => rfl⟩

theorem isMark_colon : IsMark .colon ':' := ⟨by decide, by decide, fun _ => rfl⟩

theorem isMark_bracketOpen : IsMark .bracketOpen '[' := ⟨by decide, by decide, fun _ => rfl⟩

theorem isMark_bracketClose : IsMark .bracketClose ']' := ⟨by decide, by decide, fun _ => rfl⟩

theorem isMark_braceOpen : IsMark .braceOpen '\x7b' := ⟨by decide, by decide, fun _ => rfl⟩

theorem isMark_braceClose : IsMark .braceClose '\x7d' := ⟨by decide, by decide, fun _ => rfl⟩

theorem IsMark.cuts (h : IsMark t c) (rest : List Char) : Cuts [c] [mark t c] rest := cuts_token h.1 (h.2.2 rest)

theorem IsMark.closes (h : IsMark t c) (rest : List Char) : Closes (c :: rest) := closes_cons h.2.1

def IsGap (w : List Char) : Prop := ∀ c ∈ w, isSpace c = true

theorem isGap_nil : IsGap [] := fun c hc => by cases hc

theorem isGap_space : IsGap [' '] := by
  intro c hc
  rw [List.mem_singleton.1 hc]
  decide

theorem isGap_newline (level : Nat) : IsGap (newline level).toList := by
  intro c hc
  rw [newline, String.toList_ofList, List.mem_cons] at hc
  obtain rfl | hc := hc
  · decide
  · rw [(List.mem_replicate.1 hc).2]
    decide

theorem IsGap.closes_append (hw : IsGap w) (h : Closes rest) : Closes (w ++ rest) := by
  cases w with
  | nil => exact h
  | cons c w =>
    have hc := hw c List.mem_cons_self
    simp only [isSpace, Bool.or_eq_true, beq_iff_eq] at hc
    obtain ((rfl | rfl) | rfl) | rfl := hc <;> exact closes_cons (by decide)

theorem IsGap.writes_append (hw : IsGap w) (h : Writes w' ss) : Writes (w ++ w') ss := fun rest hrest =>
  (cuts_gap hw).append (h rest hrest)

theorem writes_intercalate {sss : List (List Span)} {ws : List String}
    (h : List.Forall₂ (fun ss w => Writes w.toList ss) sss ws) :
    Writes (",".intercalate ws).toList ([mark .comma ','].intercalate sss) := by
  rw [String.toList_intercalate]
  induction h with
  | nil => exact fun rest _ => cuts_gap isGap_nil
  | @cons ss w sss ws hw h ih =>
    intro rest hrest
    cases h with
    | nil =>
      simp only [List.map_cons, List.map_nil, List.intercalate_singleton]
      exact hw rest hrest
    | cons _ _ =>
      simp only [List.map_cons, List.intercalate_cons_cons] at ih ⊢
      refine Cuts.append (Cuts.append (hw _ ?_) (isMark_comma.cuts _)) (ih rest hrest)
      exact isMark_comma.closes _

/-- **What stands between two marks**, with blanks in front of the second. -/
theorem Writes.enclosed {o c : Char} {topen tclose : Token} (ho : IsMark topen o) (hc : IsMark tclose c) (hw : Writes w ss)
    (hw' : IsGap w') : Writes (o :: w ++ w' ++ [c]) (mark topen o :: ss ++ [mark tclose c]) := by
  intro rest _
  have hclose : Cuts (w' ++ [c]) [mark tclose c] rest := Cuts.append (cuts_gap hw') (hc.cuts rest)
  have hbody : Cuts w ss (w' ++ [c] ++ rest) := by
    refine hw _ ?_
    rw [List.append_assoc]
    exact hw'.closes_append (hc.closes rest)
  rw [List.append_assoc]
  exact ((ho.cuts _).append hbody).append hclose

/-- **A field**: its key, a colon, and blanks in front of its value. -/
theorem writes_field (k : String) (hw : IsGap w) (h : Writes w' ss) :
    Writes ((quote k).toList ++ ':' :: w ++ w') (⟨.string (some k), (quote k).toList⟩ :: mark .colon ':' :: ss) := by
  intro rest hrest
  rw [List.append_assoc, List.cons_append]
  exact (cuts_quote k _).append ((isMark_colon.cuts _).append (hw.writes_append h rest hrest))

/-! ## Whole texts -/

mutual

/-- **The text without blanks is cut into what the value is written with.** -/
theorem writes_compact : ∀ j : Json, Writes (compact j).toList (written j)
  | .null => fun _ _ => cuts_token (by decide) rfl
  | .bool true => fun _ _ => cuts_token (by decide) rfl
  | .bool false => fun _ _ => cuts_token (by decide) rfl
  | .int n => writes_signed n
  | .str s => fun rest _ => cuts_quote s rest
  | .arr items => by
    have h := (writes_intercalate (writes_compactItems items)).enclosed isMark_bracketOpen isMark_bracketClose isGap_nil
    simpa [compact, written] using h
  | .obj fields => by
    have h := (writes_intercalate (writes_compactFields fields)).enclosed isMark_braceOpen isMark_braceClose isGap_nil
    simpa [compact, written] using h

theorem writes_compactItems : ∀ js : List Json,
    List.Forall₂ (fun ss w => Writes w.toList ss) (writtenItems js) (compactItems js)
  | [] => .nil
  | j :: js => .cons (writes_compact j) (writes_compactItems js)

theorem writes_compactFields : ∀ fs : List (String × Json),
    List.Forall₂ (fun ss w => Writes w.toList ss) (writtenFields fs) (compactFields fs)
  | [] => .nil
  | (k, j) :: fs => by
    refine .cons ?_ (writes_compactFields fs)
    have h := writes_field k isGap_nil (writes_compact j)
    simpa using h

end

mutual

/-- **So is the text with an item per line**, at every level. -/
theorem writes_prettyAt : ∀ (level : Nat) (j : Json), Writes (prettyAt level j).toList (written j)
  | level, .null => writes_compact .null
  | level, .bool b => writes_compact (.bool b)
  | level, .int n => writes_signed n
  | level, .str s => fun rest _ => cuts_quote s rest
  | level, .arr [] => writes_compact (.arr [])
  | level, .obj [] => writes_compact (.obj [])
  | level, .arr (j :: js) => by
    have h := (writes_intercalate (writes_prettyItems (level + 1) (j :: js))).enclosed isMark_bracketOpen
      isMark_bracketClose (isGap_newline level)
    simpa [prettyAt, written] using h
  | level, .obj (f :: fs) => by
    have h := (writes_intercalate (writes_prettyFields (level + 1) (f :: fs))).enclosed isMark_braceOpen
      isMark_braceClose (isGap_newline level)
    simpa [prettyAt, written] using h

theorem writes_prettyItems : ∀ (level : Nat) (js : List Json),
    List.Forall₂ (fun ss w => Writes w.toList ss) (writtenItems js) (prettyItems level js)
  | level, [] => .nil
  | level, j :: js => by
    refine .cons ?_ (writes_prettyItems level js)
    rw [String.toList_append]
    exact (isGap_newline level).writes_append (writes_prettyAt level j)

theorem writes_prettyFields : ∀ (level : Nat) (fs : List (String × Json)),
    List.Forall₂ (fun ss w => Writes w.toList ss) (writtenFields fs) (prettyFields level fs)
  | level, [] => .nil
  | level, (k, j) :: fs => by
    refine .cons ?_ (writes_prettyFields level fs)
    have h := (isGap_newline level).writes_append
      (writes_field k isGap_space (writes_prettyAt level j))
    simpa using h

end

/-- **Both texts of a value are cut into what it is written with.** -/
theorem spans_compact (j : Json) : spans (compact j).toList = written j := spans_of_cuts (writes_compact j [] closes_nil)

theorem spans_pretty (j : Json) : spans (pretty j).toList = written j := spans_of_cuts (writes_prettyAt 0 j [] closes_nil)

end Json
end BranchChain
