import BranchChain.Json.Token
/-!
# Proofs.Bracketing — tokens between brackets

A value hangs together: its brackets close at its last token and not before (`Json.Whole`), so no value is the beginning of
another one.  Hence the tokens of an object are those of one list of entries only (`Json.objectTokens_inj`), and the tokens
of an array of plain values are those of one list of them (`Json.arrayTokens_inj`).
-/
namespace BranchChain
namespace Json

/-! ## Tokens that hang together -/

/-- How much deeper a text is behind a token. -/
def Token.rise : Token → Int
  | .braceOpen | .bracketOpen => 1
  | .braceClose | .bracketClose => -1
  | _ => 0

/-- How many brackets and braces are open behind tokens. -/
def depth : List Token → Int
  | [] => 0
  | t :: ts => t.rise + depth ts

/-- **Tokens that hang together**: what they open is closed by the last of them, and not before. -/
def Whole (v : List Token) : Prop := v ≠ [] ∧ depth v = 0 ∧ ∀ w u, v = w ++ u → w ≠ [] → u ≠ [] → 0 < depth w

theorem whole_singleton {t : Token} (h : t.rise = 0) : Whole [t] := by
  refine ⟨List.cons_ne_nil t [], by rw [depth, depth, h]; rfl, fun w u hv hw hu => ?_⟩
  obtain ⟨rfl, -⟩ | ⟨-, rfl⟩ := List.singleton_eq_append_iff.1 hv
  · exact absurd rfl hw
  · exact absurd rfl hu

theorem Whole.eq_nil_of_append {v w : List Token} (hv : Whole v) (hvw : Whole (v ++ w)) : w = [] := by
  cases w with
  | nil => rfl
  | cons t w =>
    have hpos := hvw.2.2 v (t :: w) rfl hv.1 (List.cons_ne_nil t w)
    rw [hv.2.1] at hpos
    exact absurd hpos (Int.lt_irrefl 0)

/-! ## Objects and arrays -/

/-- Lists of tokens with a comma between them. -/
def separated : List (List Token) → List Token
  | [] => []
  | v :: vs => v ++ vs.flatMap (.comma :: ·)

/-- A key and the value behind it. -/
def entryTokens (e : String × List Token) : List Token := .string (some e.1) :: .colon :: e.2

/-- **The tokens of an object.** -/
def objectTokens (es : List (String × List Token)) : List Token :=
  .braceOpen :: separated (es.map entryTokens) ++ [.braceClose]

/-- **The tokens of an array.** -/
def arrayTokens (vs : List (List Token)) : List Token := .bracketOpen :: separated vs ++ [.bracketClose]

/-! ## One way to split a text -/

/-- **Lists that end by themselves**: where one of them begins, no other does. -/
def EndsItself (P : List Token → Prop) : Prop :=
  (∀ v, P v → v ≠ []) ∧ ∀ v v' r r', P v → P v' → v ++ r = v' ++ r' → v = v' ∧ r = r'

theorem endsItself_whole : EndsItself Whole := by
  refine ⟨fun v hv => hv.1, fun v v' r r' hv hv' h => ?_⟩
  -- one of the two begins the other, and closes where it ends
  obtain ⟨w, rfl, rfl⟩ | ⟨w, rfl, rfl⟩ := List.append_eq_append_iff.1 h
  · simp [hv.eq_nil_of_append hv']
  · simp [hv'.eq_nil_of_append hv]

theorem endsItself_entry : EndsItself fun v => ∃ e, Whole e.2 ∧ v = entryTokens e := by
  refine ⟨?_, ?_⟩
  · rintro _ ⟨e, -, rfl⟩
    exact List.cons_ne_nil _ _
  · rintro _ _ r r' ⟨⟨k, v⟩, hv, rfl⟩ ⟨⟨k', v'⟩, hv', rfl⟩ h
    obtain ⟨hk, h⟩ := List.cons.inj h
    obtain ⟨rfl, rfl⟩ := endsItself_whole.2 _ _ _ _ hv hv' (List.cons.inj h).2
    cases hk
    exact ⟨rfl, rfl⟩

theorem endsItself_singleton : EndsItself fun v => ∃ t, v = [t] := by
  refine ⟨?_, ?_⟩
  · rintro _ ⟨t, rfl⟩
    exact List.cons_ne_nil _ _
  · rintro _ _ r r' ⟨t, rfl⟩ ⟨t', rfl⟩ h
    obtain ⟨rfl, rfl⟩ := List.cons.inj h
    exact ⟨rfl, rfl⟩

section EndsItself

variable {P : List Token → Prop} (hP : EndsItself P) {c : Token} (hc : c ≠ .comma)
include hP hc

theorem flatMap_comma_inj : ∀ {vs vs' : List (List Token)}, (∀ v ∈ vs, P v) → (∀ v ∈ vs', P v) →
    vs.flatMap (.comma :: ·) ++ [c] = vs'.flatMap (.comma :: ·) ++ [c] → vs = vs'
  | [], [], _, _, _ => rfl
  | [], _ :: _, _, _, h => absurd (List.cons.inj h).1 hc
  | _ :: _, [], _, _, h => absurd (List.cons.inj h).1.symm hc
  | v :: vs, v' :: vs', hvs, hvs', h => by
    rw [List.forall_mem_cons] at hvs hvs'
    rw [List.flatMap_cons, List.flatMap_cons, List.append_assoc, List.append_assoc] at h
    obtain ⟨rfl, hrest⟩ := hP.2 _ _ _ _ hvs.1 hvs'.1 (List.cons.inj h).2
    rw [flatMap_comma_inj hvs.2 hvs'.2 hrest]

/-- **A text between its brackets is split at its commas in one way only.** -/
theorem separated_inj {vs vs' : List (List Token)} (hvs : ∀ v ∈ vs, P v) (hvs' : ∀ v ∈ vs', P v)
    (h : separated vs ++ [c] = separated vs' ++ [c]) : vs = vs' := by
  have hnil {v : List Token} {vs : List (List Token)} (hv : P v) (h : [c] = separated (v :: vs) ++ [c]) : False := by
    have hlen := congrArg List.length h
    rw [separated, List.length_append, List.length_append, List.length_singleton] at hlen
    exact hP.1 v hv (List.length_eq_zero_iff.1 (by omega))
  cases vs with
  | nil =>
    cases vs' with
    | nil => rfl
    | cons v' vs' => exact (hnil (hvs' v' List.mem_cons_self) h).elim
  | cons v vs =>
    cases vs' with
    | nil => exact (hnil (hvs v List.mem_cons_self) h.symm).elim
    | cons v' vs' => exact flatMap_comma_inj hP hc hvs hvs' (congrArg (Token.comma :: ·) h)

end EndsItself

theorem objectTokens_inj {es es' : List (String × List Token)} (hes : ∀ e ∈ es, Whole e.2) (hes' : ∀ e ∈ es', Whole e.2)
    (h : objectTokens es = objectTokens es') : es = es' := by
  have hall {es : List (String × List Token)} (hes : ∀ e ∈ es, Whole e.2) :
      ∀ v ∈ es.map entryTokens, ∃ e, Whole e.2 ∧ v = entryTokens e := by
    intro v hv
    obtain ⟨e, he, rfl⟩ := List.mem_map.1 hv
    exact ⟨e, hes e he, rfl⟩
  have hmap := separated_inj endsItself_entry (by simp) (hall hes) (hall hes') (List.cons.inj h).2
  refine (List.map_inj_right ?_).1 hmap
  rintro ⟨k, v⟩ ⟨k', v'⟩ he
  cases he
  rfl

theorem arrayTokens_inj {ts ts' : List Token} (h : arrayTokens (ts.map fun t => [t]) = arrayTokens (ts'.map fun t => [t])) :
    ts = ts' := by
  have hall (ts : List Token) : ∀ v ∈ ts.map fun t => [t], ∃ t, v = [t] := by
    intro v hv
    obtain ⟨t, -, rfl⟩ := List.mem_map.1 hv
    exact ⟨t, rfl⟩
  have hmap := separated_inj endsItself_singleton (by simp) (hall ts) (hall ts') (List.cons.inj h).2
  exact (List.map_inj_right fun _ _ ht => List.singleton_inj.1 ht).1 hmap

end Json
end BranchChain
