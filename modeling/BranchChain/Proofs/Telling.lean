import BranchChain.Proofs.Bracketing
import BranchChain.Proofs.Results
import BranchChain.Settings.Reader
/-!
# Proofs.Telling — what a settings text tells

A text that is read as settings is one object or one array (`Settings.Tells`).  An object tells a field if one of its
outermost keys has the field's name, and what a text does not tell keeps its default.  The reader is taken apart from the
front: what it has still to read from a place is an entry and what it has still to read behind that
(`Settings.reads_entry`).  As brackets and commas leave no second way to split a text, it tells one draft only
(`Settings.Tells.unique`).
-/
namespace BranchChain
namespace Settings

open Json (Token ReadFault Whole depth entryTokens objectTokens arrayTokens separated)

/-! ## Fields and drafts -/

namespace Field

/-- Where a field stands in an array. -/
def place : Field → Nat
  | .anchor => 0
  | .scanLimit => 1
  | .branchCount => 2

theorem ofName?_eq_some_iff {s : String} {f : Field} : ofName? s = some f ↔ s = f.name := by
  unfold ofName?
  constructor
  · intro h
    have hf := List.find?_some h
    rw [beq_iff_eq] at hf
    exact hf.symm
  · rintro rfl
    cases f <;> decide

theorem name_injective {f g : Field} (h : f.name = g.name) : f = g :=
  Option.some.inj ((ofName?_eq_some_iff.2 rfl).symm.trans (ofName?_eq_some_iff.2 h))

end Field

namespace Draft

/-- **The token a field was read from.** -/
def token? (d : Draft) : Field → Option Token
  | .anchor => d.anchor.map fun s => .string (some s)
  | .scanLimit => d.scanLimit.map fun n => .number (.word n)
  | .branchCount => d.branchCount.map fun n => .number (.word n)

theorem token?_empty (f : Field) : token? {} f = none := by
  cases f <;> rfl

theorem has_eq (d : Draft) (f : Field) : d.has f = (d.token? f).isSome := by
  cases f <;> exact (Option.isSome_map).symm

/-- A draft is what it has of the fields. -/
theorem ext_token? {d d' : Draft} (h : ∀ f, d.token? f = d'.token? f) : d = d' := by
  obtain ⟨anchor, scanLimit, branchCount⟩ := d
  obtain ⟨anchor', scanLimit', branchCount'⟩ := d'
  obtain rfl : anchor = anchor' := Option.map_injective (fun _ _ hs => by cases hs; rfl) (h .anchor)
  obtain rfl : scanLimit = scanLimit' := Option.map_injective (fun _ _ hn => by cases hn; rfl) (h .scanLimit)
  obtain rfl : branchCount = branchCount' := Option.map_injective (fun _ _ hn => by cases hn; rfl) (h .branchCount)
  rfl

variable {d d' : Draft} {f : Field} {t : Token}

/-- The value of a field is one token, and no other field changes with it. -/
theorem put_eq_ok (h : d.put f t = .ok d') :
    t.rise = 0 ∧ d'.token? f = some t ∧ ∀ g, g ≠ f → d'.token? g = d.token? g := by
  unfold put at h
  split at h <;> cases h <;> refine ⟨rfl, rfl, fun g hg => ?_⟩ <;> cases g <;> first | rfl | exact absurd rfl hg

end Draft

/-- **A text tells a draft.**  In an object, whatever its other entries hold, the value of a field is the one token
behind its name; an array has the values in the order of the fields, as many as it has. -/
inductive Tells : List Token → Draft → Prop where
  | object {es : List (String × List Token)} {d : Draft} (whole : ∀ e ∈ es, Whole e.2)
    (fields : ∀ (f : Field) v, (f.name, v) ∈ es ↔ ∃ t, d.token? f = some t ∧ v = [t]) : Tells (objectTokens es) d
  | array {ts : List Token} {d : Draft} (short : ts.length ≤ 3) (fields : ∀ f : Field, d.token? f = ts[f.place]?) :
    Tells (arrayTokens (ts.map fun t => [t])) d

/-- **A text tells one draft only.** -/
theorem Tells.unique {ts : List Token} {d d' : Draft} (h : Tells ts d) (h' : Tells ts d') : d = d' := by
  refine Draft.ext_token? fun f => ?_
  cases h with
  | @object es _ whole fields =>
    generalize hts : objectTokens es = ts at h'
    cases h' with
    | @object es' _ whole' fields' =>
      obtain rfl := Json.objectTokens_inj whole whole' hts
      have hmem {d : Draft} (fields : ∀ (f : Field) v, (f.name, v) ∈ es ↔ ∃ t, d.token? f = some t ∧ v = [t])
          (t : Token) : d.token? f = some t ↔ (f.name, [t]) ∈ es := by
        rw [fields f [t]]
        simp
      exact Option.ext fun t => by rw [hmem fields, hmem fields']
    | array => cases hts
  | @array vs _ _ fields =>
    generalize hts : arrayTokens (vs.map fun t => [t]) = ts at h'
    cases h' with
    | object => cases hts
    | array _ fields' => rw [fields f, fields' f, Json.arrayTokens_inj hts]

/-! ## Entries one behind the other -/

/-- **What entries make of a draft**: those of other names nothing, and each field is put once. -/
inductive Takes : Draft → List (String × List Token) → Draft → Prop where
  | nil {d : Draft} : Takes d [] d
  | other {d d' : Draft} {k : String} {v : List Token} {es : List (String × List Token)} (unknown : Field.ofName? k = none)
    (whole : Whole v) (rest : Takes d es d') : Takes d ((k, v) :: es) d'
  | known {d d₁ d' : Draft} {f : Field} {t : Token} {es : List (String × List Token)} (fresh : d.token? f = none)
    (put : d.put f t = .ok d₁) (rest : Takes d₁ es d') : Takes d ((f.name, [t]) :: es) d'

namespace Takes

variable {d d' : Draft} {es : List (String × List Token)}

theorem whole (h : Takes d es d') : ∀ e ∈ es, Whole e.2 := by
  induction h with
  | nil => exact fun e he => by cases he
  | other _ hv _ ih =>
    exact List.forall_mem_cons.2 ⟨hv, ih⟩
  | known _ put _ ih =>
    exact List.forall_mem_cons.2 ⟨Json.whole_singleton (Draft.put_eq_ok put).1, ih⟩

/-- A field that was read before is none of the entries. -/
theorem fields (h : Takes d es d') (f : Field) :
    (∀ t, d.token? f = some t → d'.token? f = some t ∧ ∀ v, (f.name, v) ∉ es) ∧
    (d.token? f = none → ∀ v, (f.name, v) ∈ es ↔ ∃ t, d'.token? f = some t ∧ v = [t]) := by
  induction h with
  | nil =>
    refine ⟨fun t ht => ⟨ht, fun v hv => by cases hv⟩, fun hnone v => ⟨fun hv => (by cases hv), ?_⟩⟩
    rintro ⟨t, ht, -⟩
    rw [hnone] at ht
    cases ht
  | @other d d' k v es unknown _ _ ih =>
    have hne (v' : List Token) : (f.name, v') ≠ (k, v) := by
      intro heq
      rw [← (Prod.mk.inj heq).1, Field.ofName?_eq_some_iff.2 rfl] at unknown
      cases unknown
    constructor
    · intro t ht
      exact ⟨(ih.1 t ht).1, fun v' hv' => (List.mem_cons.1 hv').elim (hne v') ((ih.1 t ht).2 v')⟩
    · intro hnone v'
      rw [List.mem_cons, or_iff_right (hne v')]
      exact ih.2 hnone v'
  | @known d d₁ d' g t es fresh put _ ih =>
    obtain ⟨-, hg, hother⟩ := Draft.put_eq_ok put
    by_cases hf : f = g
    · subst hf
      refine ⟨fun t' ht' => (by rw [fresh] at ht'; cases ht'), fun _ v => ?_⟩
      obtain ⟨ht, hnot⟩ := ih.1 t hg
      rw [List.mem_cons, or_iff_left (hnot v), ht]
      simp
    · have hne (v' : List Token) : (f.name, v') ≠ (g.name, [t]) := fun heq => hf (Field.name_injective (Prod.mk.inj heq).1)
      rw [← hother f hf]
      constructor
      · intro t' ht'
        exact ⟨(ih.1 t' ht').1, fun v' hv' => (List.mem_cons.1 hv').elim (hne v') ((ih.1 t' ht').2 v')⟩
      · intro hnone v'
        rw [List.mem_cons, or_iff_right (hne v')]
        exact ih.2 hnone v'

end Takes

/-! ## Reading from a place to the end -/

/-- **From a place the tokens are read to the end of the settings.** -/
def Reads (at_ : Draft × Place) (ts : List Token) (d : Draft) : Prop := ts.foldlM step at_ = .ok (d, .done)

variable {d d' : Draft} {p : Place} {t : Token} {ts : List Token} {x : Draft × Place}

theorem reads_cons : Reads x (t :: ts) d' ↔ ∃ y, step x t = .ok y ∧ Reads y ts d' := by
  unfold Reads
  rw [List.foldlM_cons]
  cases step x t with
  | error e => exact ⟨fun h => (by cases h), fun ⟨y, h, _⟩ => (by cases h)⟩
  | ok y => exact ⟨fun h => ⟨y, rfl, h⟩, fun ⟨z, hz, h⟩ => (by cases hz; exact h)⟩

theorem reads_done (h : Reads (d, .done) ts d') : ts = [] ∧ d' = d := by
  cases ts with
  | nil =>
    cases h
    exact ⟨rfl, rfl⟩
  | cons t ts =>
    obtain ⟨y, hy, -⟩ := reads_cons.1 h
    cases hy

/-- Before the end there is a token to read. -/
theorem exists_next (h : Reads (d, p) ts d') (hp : p ≠ .done) :
    ∃ t ts' x, ts = t :: ts' ∧ step (d, p) t = .ok x ∧ Reads x ts' d' := by
  cases ts with
  | nil =>
    cases h
    exact absurd rfl hp
  | cons t ts =>
    obtain ⟨x, hx, h⟩ := reads_cons.1 h
    exact ⟨t, ts, x, rfl, hx, h⟩

/-! ## Values passed over -/

namespace Passing

/-- **So many frames are open**: none at the end of the value, and some anywhere before it. -/
def Opens (q : Option Passing) (n : Int) : Prop := (q = none ∧ n = 0) ∨ ∃ p, q = some p ∧ p.frames ≠ [] ∧ p.frames.length = n

variable {frames : List Frame} {q : Option Passing}

theorem opens_behind (frames : List Frame) : Opens (behind frames) frames.length := by
  unfold behind
  split
  · rename_i h
    rw [List.isEmpty_iff] at h
    subst h
    exact .inl ⟨rfl, rfl⟩
  · rename_i h
    rw [List.isEmpty_iff] at h
    exact .inr ⟨_, rfl, h, rfl⟩

theorem opens_cons (spot : Spot) (f : Frame) (frames : List Frame) : Opens (some ⟨spot, f :: frames⟩) (frames.length + 1) :=
  .inr ⟨_, rfl, List.cons_ne_nil f frames, by rw [List.length_cons]; rfl⟩

theorem opens_value (h : value frames t = .ok q) : Opens q (frames.length + t.rise) := by
  cases t <;> cases h
  case braceOpen => exact opens_cons ..
  case bracketOpen => exact opens_cons ..
  all_goals exact (Int.add_zero _).symm ▸ opens_behind frames

/-- A key leaves the frame open that it stands in. -/
theorem opens_key {f : Frame} (h : key (f :: frames) t = .ok q) : Opens q ((f :: frames).length + t.rise) := by
  unfold key at h
  split at h <;> cases h
  exact opens_cons ..

/-- **A token opens and closes as many frames as it says**, wherever in a value it stands. -/
theorem opens_step {p : Passing} (hp : p.frames ≠ [] ∨ p.spot = .value) (h : p.step t = .ok q) :
    Opens q (p.frames.length + t.rise) := by
  obtain ⟨spot, frames⟩ := p
  have hlast (frames : List Frame) : Opens (behind frames) (frames.length + 1 + (-1)) := by
    rw [Int.add_neg_cancel_right]
    exact opens_behind frames
  unfold step at h
  dsimp only at h hp ⊢
  split at h
  case h_1 => exact opens_value h
  case h_2 => cases h; exact hlast _
  case h_3 => exact opens_value h
  case h_4 => cases h; exact hlast _
  case h_5 =>
    obtain ⟨f, frames, rfl⟩ := List.exists_cons_of_ne_nil (hp.resolve_right (by decide))
    exact opens_key h
  case h_6 =>
    obtain ⟨f, frames, rfl⟩ := List.exists_cons_of_ne_nil (hp.resolve_right (by decide))
    exact opens_key h
  case h_7 =>
    obtain ⟨f, frames, rfl⟩ := List.exists_cons_of_ne_nil (hp.resolve_right (by decide))
    cases h
    exact opens_cons ..
  case h_8 => cases h; exact opens_cons ..
  case h_9 => cases h; exact opens_cons ..
  case h_10 => cases h; exact hlast _
  case h_11 => cases h; exact hlast _
  case h_12 => cases h

end Passing

/-- **What is passed over closes what is open**, and nothing before its last token does. -/
theorem reads_passing : ∀ {ts : List Token} {p : Passing}, p.frames ≠ [] ∨ p.spot = .value →
    Reads (d, .passing p) ts d' →
    ∃ v rest, ts = v ++ rest ∧ Reads (d, .entryEnd) rest d' ∧ v ≠ [] ∧ p.frames.length + depth v = 0 ∧
      ∀ w u, v = w ++ u → w ≠ [] → u ≠ [] → 0 < p.frames.length + depth w
  | [], p, _, h => by cases h
  | t :: ts, p, hp, h => by
    obtain ⟨x, hx, h⟩ := reads_cons.1 h
    obtain ⟨q, hq, rfl⟩ := map_eq_ok.1 hx
    obtain ⟨rfl, hn⟩ | ⟨p', rfl, hopen, hn⟩ := Passing.opens_step hp hq
    · refine ⟨[t], ts, rfl, h, List.cons_ne_nil t [], ?_, fun w u hv hw hu => ?_⟩
      · rw [depth, depth, Int.add_zero, hn]
      · obtain ⟨rfl, -⟩ | ⟨-, rfl⟩ := List.singleton_eq_append_iff.1 hv
        · exact absurd rfl hw
        · exact absurd rfl hu
    · obtain ⟨v, rest, rfl, hrest, hne, hzero, hpos⟩ := reads_passing (.inl hopen) h
      refine ⟨t :: v, rest, rfl, hrest, List.cons_ne_nil t v, ?_, fun w u hv hw hu => ?_⟩
      · rw [depth]
        omega
      · obtain ⟨x, w, rfl⟩ := List.exists_cons_of_ne_nil hw
        obtain ⟨rfl, rfl⟩ := List.cons.inj hv
        have hopen := List.length_pos_iff.2 hopen
        rw [depth]
        cases w with
        | nil =>
          rw [depth]
          omega
        | cons x w =>
          have := hpos (x :: w) u rfl (List.cons_ne_nil x w) hu
          omega

/-! ## Objects -/

theorem readKey_eq_ok (h : readKey d t = .ok x) :
    ∃ k, t = .string (some k) ∧ x = (d, .colon (Field.ofName? k)) ∧ ∀ f, Field.ofName? k = some f → d.token? f = none := by
  unfold readKey at h
  split at h
  · rename_i k
    refine ⟨k, rfl, ?_⟩
    split at h
    · rename_i f hf
      split at h
      · cases h
      · rename_i hhas
        cases h
        refine ⟨by rw [hf], fun g hg => ?_⟩
        rw [hf, Option.some.injEq] at hg
        rw [← hg]
        rwa [Bool.not_eq_true, Draft.has_eq, Option.isSome_eq_false_iff, Option.isNone_iff_eq_none] at hhas
    · rename_i hf
      cases h
      exact ⟨by rw [hf], fun g hg => by rw [hf] at hg; cases hg⟩
  · cases h
  · cases h

theorem step_colon_eq_ok {g : Option Field} (h : step (d, .colon g) t = .ok x) :
    t = .colon ∧ x = (d, g.elim (.passing ⟨.value, []⟩) .value) := by
  cases g <;> cases t <;> cases h <;> exact ⟨rfl, rfl⟩

theorem step_entryEnd_eq_ok (h : step (d, .entryEnd) t = .ok x) :
    t = .comma ∧ x = (d, .key) ∨ t = .braceClose ∧ x = (d, .done) := by
  cases t <;> cases h
  · exact .inr ⟨rfl, rfl⟩
  · exact .inl ⟨rfl, rfl⟩

/-- **An entry, and what is left to read behind it.** -/
theorem reads_entry (hkey : readKey d t = .ok x) (h : Reads x ts d') :
    ∃ e rest d₁, t :: ts = entryTokens e ++ rest ∧ Reads (d₁, .entryEnd) rest d' ∧
      ∀ es, Takes d₁ es d' → Takes d (e :: es) d' := by
  obtain ⟨k, rfl, rfl, hfresh⟩ := readKey_eq_ok hkey
  obtain ⟨_, ts, _, rfl, hx, h⟩ := exists_next h (by simp)
  obtain ⟨rfl, rfl⟩ := step_colon_eq_ok hx
  cases hk : Field.ofName? k with
  | none =>
    rw [hk] at h
    obtain ⟨v, rest, rfl, hrest, hne, hzero, hpos⟩ := reads_passing (.inr rfl) h
    have hwhole : Whole v := by
      simp only [List.length_nil, Int.natCast_zero, Int.zero_add] at hzero hpos
      exact ⟨hne, hzero, hpos⟩
    exact ⟨(k, v), rest, d, rfl, hrest, fun es hes => .other hk hwhole hes⟩
  | some f =>
    rw [hk] at h
    have hname := Field.ofName?_eq_some_iff.1 hk
    obtain ⟨t, ts, _, rfl, hx, h⟩ := exists_next h (by simp)
    obtain ⟨d₁, hput, rfl⟩ := map_eq_ok.1 hx
    refine ⟨(k, [t]), ts, d₁, rfl, h, fun es hes => ?_⟩
    rw [hname]
    exact .known (hfresh f hk) hput hes

/-- Behind an entry stand the others, each behind a comma, and the closing brace. -/
theorem reads_entryEnd : ∀ (n : Nat) {ts : List Token} {d : Draft}, ts.length < n → Reads (d, .entryEnd) ts d' →
    ∃ es, ts = (es.map entryTokens).flatMap (.comma :: ·) ++ [.braceClose] ∧ Takes d es d'
  | 0, ts, d, hn, _ => absurd hn (Nat.not_lt_zero _)
  | n + 1, ts, d, hn, h => by
    obtain ⟨t, ts, x, rfl, hx, h⟩ := exists_next h (by simp)
    obtain ⟨rfl, rfl⟩ | ⟨rfl, rfl⟩ := step_entryEnd_eq_ok hx
    · obtain ⟨t, ts, x, rfl, hx, h⟩ := exists_next h (by simp)
      obtain ⟨e, rest, d₁, he, hrest, htakes⟩ := reads_entry hx h
      rw [List.length_cons, he, List.length_append] at hn
      obtain ⟨es, hes, h⟩ := reads_entryEnd n (by omega) hrest
      refine ⟨e :: es, ?_, htakes es h⟩
      rw [he, hes, List.map_cons, List.flatMap_cons, List.cons_append, List.cons_append, List.append_assoc]
    · obtain ⟨rfl, rfl⟩ := reads_done h
      exact ⟨[], rfl, .nil⟩

theorem step_firstKey_eq_ok (h : step (d, .firstKey) t = .ok x) :
    t = .braceClose ∧ x = (d, .done) ∨ readKey d t = .ok x := by
  cases t <;> first | exact .inr h | (cases h; exact .inl ⟨rfl, rfl⟩)

theorem reads_firstKey (h : Reads (d, .firstKey) ts d') : ∃ es, .braceOpen :: ts = objectTokens es ∧ Takes d es d' := by
  obtain ⟨t, ts, x, rfl, hx, h⟩ := exists_next h (by simp)
  obtain ⟨rfl, rfl⟩ | hkey := step_firstKey_eq_ok hx
  · obtain ⟨rfl, rfl⟩ := reads_done h
    exact ⟨[], rfl, .nil⟩
  · obtain ⟨e, rest, d₁, he, hrest, htakes⟩ := reads_entry hkey h
    obtain ⟨es, hes, h⟩ := reads_entryEnd _ (Nat.lt_succ_self _) hrest
    refine ⟨e :: es, ?_, htakes es h⟩
    rw [he, hes, objectTokens, List.map_cons, separated, List.cons_append, List.append_assoc]

/-! ## Arrays -/

/-- **What the values of an array make of a draft**, from a field on. -/
inductive Puts : Draft → Option Field → List Token → Draft → Prop where
  | nil {d : Draft} {next : Option Field} : Puts d next [] d
  | cons {d d₁ d' : Draft} {f : Field} {t : Token} {ts : List Token} (put : d.put f t = .ok d₁)
    (rest : Puts d₁ f.next? ts d') : Puts d (some f) (t :: ts) d'

/-- The place of the next field, behind the last one if there is none. -/
def nextPlace : Option Field → Nat
  | none => 3
  | some f => f.place

theorem nextPlace_next? (f : Field) : nextPlace f.next? = f.place + 1 := by
  cases f <;> rfl

theorem nextPlace_le (next : Option Field) : nextPlace next ≤ 3 := by
  rcases next with _ | _ | _ | _ <;> decide

theorem Field.place_injective {f g : Field} (h : f.place = g.place) : f = g := by
  cases f <;> cases g <;> first | rfl | cases h

theorem Puts.fields {next : Option Field} (h : Puts d next ts d') :
    nextPlace next + ts.length ≤ 3 ∧ ∀ f : Field,
      (f.place < nextPlace next → d'.token? f = d.token? f) ∧
      (nextPlace next ≤ f.place → d.token? f = none → d'.token? f = ts[f.place - nextPlace next]?) := by
  induction h with
  | @nil d next => exact ⟨nextPlace_le next, fun f => ⟨fun _ => rfl, fun _ hnone => hnone⟩⟩
  | @cons d d₁ d' g t ts put _ ih =>
    obtain ⟨-, hg, hother⟩ := Draft.put_eq_ok put
    rw [nextPlace_next?] at ih
    refine ⟨by rw [List.length_cons, nextPlace]; omega, fun f => ⟨fun hlt => ?_, fun hle hnone => ?_⟩⟩
    · rw [nextPlace] at hlt
      rw [(ih.2 f).1 (by omega), hother f fun heq => by rw [heq] at hlt; omega]
    · rw [nextPlace] at hle ⊢
      obtain heq | hlt := Nat.eq_or_lt_of_le hle
      · obtain rfl := Field.place_injective heq
        rw [(ih.2 g).1 (Nat.lt_succ_self _), hg, Nat.sub_self]
        rfl
      · rw [(ih.2 f).2 hlt (by rw [hother f fun heq => by rw [heq] at hlt; omega, hnone]),
          show f.place - g.place = f.place - (g.place + 1) + 1 by omega]
        rfl

theorem step_itemEnd_eq_ok {next : Option Field} (h : step (d, .itemEnd next) t = .ok x) :
    t = .bracketClose ∧ x = (d, .done) ∨ ∃ f, next = some f ∧ t = .comma ∧ x = (d, .item f) := by
  cases next <;> cases t <;> cases h
  · exact .inl ⟨rfl, rfl⟩
  · exact .inl ⟨rfl, rfl⟩
  · exact .inr ⟨_, rfl, rfl, rfl⟩

theorem reads_itemEnd : ∀ (n : Nat) {ts : List Token} {d : Draft} {next : Option Field}, ts.length < n →
    Reads (d, .itemEnd next) ts d' →
    ∃ vs, ts = (vs.map fun t => [t]).flatMap (.comma :: ·) ++ [.bracketClose] ∧ Puts d next vs d'
  | 0, ts, d, next, hn, _ => absurd hn (Nat.not_lt_zero _)
  | n + 1, ts, d, next, hn, h => by
    obtain ⟨t, ts, x, rfl, hx, h⟩ := exists_next h (by simp)
    obtain ⟨rfl, rfl⟩ | ⟨f, rfl, rfl, rfl⟩ := step_itemEnd_eq_ok hx
    · obtain ⟨rfl, rfl⟩ := reads_done h
      exact ⟨[], rfl, .nil⟩
    · obtain ⟨t, ts, x, rfl, hx, h⟩ := exists_next h (by simp)
      obtain ⟨d₁, hput, rfl⟩ := map_eq_ok.1 hx
      rw [List.length_cons, List.length_cons] at hn
      obtain ⟨vs, rfl, hputs⟩ := reads_itemEnd n (by omega) h
      exact ⟨t :: vs, rfl, .cons hput hputs⟩

theorem step_firstItem_eq_ok (h : step (d, .firstItem) t = .ok x) :
    t = .bracketClose ∧ x = (d, .done) ∨ ∃ d₁, d.put .anchor t = .ok d₁ ∧ x = (d₁, .itemEnd (Field.next? .anchor)) := by
  cases t <;> first | exact .inr (map_eq_ok.1 h) | (cases h; exact .inl ⟨rfl, rfl⟩)

theorem reads_firstItem (h : Reads (d, .firstItem) ts d') :
    ∃ vs, .bracketOpen :: ts = arrayTokens (vs.map fun t => [t]) ∧ Puts d (some .anchor) vs d' := by
  obtain ⟨t, ts, x, rfl, hx, h⟩ := exists_next h (by simp)
  obtain ⟨rfl, rfl⟩ | ⟨d₁, hput, rfl⟩ := step_firstItem_eq_ok hx
  · obtain ⟨rfl, rfl⟩ := reads_done h
    exact ⟨[], rfl, .nil⟩
  · obtain ⟨vs, rfl, hputs⟩ := reads_itemEnd _ (Nat.lt_succ_self _) h
    exact ⟨t :: vs, rfl, .cons hput hputs⟩

/-! ## Whole texts -/

theorem step_start_eq_ok (h : step (d, .start) t = .ok x) :
    t = .braceOpen ∧ x = (d, .firstKey) ∨ t = .bracketOpen ∧ x = (d, .firstItem) := by
  cases t <;> cases h
  · exact .inl ⟨rfl, rfl⟩
  · exact .inr ⟨rfl, rfl⟩

theorem tells_of_reads (h : Reads ({}, .start) ts d) : Tells ts d := by
  obtain ⟨t, ts, x, rfl, hx, h⟩ := exists_next h (by simp)
  obtain ⟨rfl, rfl⟩ | ⟨rfl, rfl⟩ := step_start_eq_ok hx
  · obtain ⟨es, hes, htakes⟩ := reads_firstKey h
    rw [hes]
    refine .object htakes.whole fun f v => ?_
    exact (htakes.fields f).2 (Draft.token?_empty f) v
  · obtain ⟨vs, hvs, hputs⟩ := reads_firstItem h
    rw [hvs]
    obtain ⟨hlen, hfields⟩ := hputs.fields
    exact .array (by rwa [nextPlace, Field.place, Nat.zero_add] at hlen) fun f =>
      (hfields f).2 (Nat.zero_le _) (Draft.token?_empty f)

/-- **Settings that are read are what their text tells**, and the defaults where it tells nothing. -/
theorem tells_of_ofJson {text : String} {s : Settings} (h : ofJson text = .ok s) :
    ∃ d, Tells (Json.tokens text.toList) d ∧ s = d.settings := by
  unfold ofJson ofTokens at h
  cases hx : (Json.tokens text.toList).foldlM step ({}, .start) with
  | error e =>
    rw [hx] at h
    cases h
  | ok x =>
    rw [hx] at h
    obtain ⟨d, p⟩ := x
    cases p <;> cases h
    exact ⟨d, tells_of_reads hx, rfl⟩

end Settings
end BranchChain
